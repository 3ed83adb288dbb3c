import Logging.Pattern.Compiled
import Logging.Proofs.Session.Resets
import Logging.Proofs.Tree.Attachments

/-!
# Attachments in a session

What a client does with the attachments of one node, through whatever handles for it, is answered as
a map of two keys at most would answer it; a reset of the node empties the map
(`Session.attachments_steps`). Keys are those that the client has names for, and two names may be
for the same key. Nothing that is done in a session puts a key in both places of a node
(`Session.attachesOnce_steps`).
-/

namespace Logging

open Session Run

/-! ### No key twice -/

/-- At no node is a key in both places. -/
def Tree.AttachesOnce (t : Tree) : Prop := ∀ n, (t.node n).attachments.Distinct

lemma ofContents_distinct : Node.OfContents fun a => a.attachments.Distinct where
  empty _ _ h := h ▸ Attachments.distinct_empty
  same _ h hd := h ▸ hd

namespace Session

variable {L : Licence} {s s' : Session} {n : NodeId}

lemma Deed.attachesOnce (h : s.Deed L s') (ht : s.tree.AttachesOnce) : s'.tree.AttachesOnce := by
  have hnodes : s.tree.Each fun a => a.attachments.Distinct := ht
  cases h with
  | beside h => rwa [h.tree]
  | @configure n f _ _ ha => exact hnodes.modify n ha
  | @setLevel n l? _ => exact hnodes.setLevel ofContents_distinct n l?
  | @grow n name _ _ => exact hnodes.getOrCreate ofContents_distinct n _
  | @grant n name _ =>
    exact (hnodes.getOrCreate ofContents_distinct n (Path.ofString name)).modify _ id
  | destroy hr => exact (End.destroy hr).ends.each ofContents_distinct hnodes
  | @process a rest _ =>
    have hstrike : (({ s with notices := rest } : Session).strikeOff a).tree.AttachesOnce :=
      hnodes.modify a.node id
    exact (ends_process _ a).each ofContents_distinct hstrike
  | @reset n _ _ =>
    exact (ends_settle _).each ofContents_distinct (hnodes.reset ofContents_distinct n)
  | takeDown _ => exact hnodes.takeDown ofContents_distinct Tree.root

lemma Course.attachesOnce (h : s.Course L s') (ht : s.tree.AttachesOnce) :
    s'.tree.AttachesOnce := by
  induction h with
  | refl => exact ht
  | tail _ h ih => exact h.attachesOnce ih

lemma attachesOnce_new (strong : Bool) (baseline : Level) (levels : List Level)
    (filters : List (String × NodeFilter)) :
    (new strong baseline levels filters).tree.AttachesOnce :=
  Tree.each_new ofContents_distinct _ strong

/-- Whatever a client does, no key is attached twice to a node. -/
lemma attachesOnce_steps [Pattern.Engine] (depth : Nat) (strong : Bool) (baseline : Level)
    (levels : List Level) (filters : List (String × NodeFilter)) (steps : List Step) :
    ((new strong baseline levels filters).steps (Calls.within depth) steps).2.tree.AttachesOnce :=
  (conduct_all depth (sound_new strong baseline levels filters) steps).course.attachesOnce
    (attachesOnce_new strong baseline levels filters)

end Session

/-! ### Steps on attachments -/

namespace AttachmentUse

/-- The step of a client that uses the attachments of the node of a handle. -/
def step (handle : String) : AttachmentUse String → Step
  | attach k v => .attach handle k v
  | attachIfAbsent k v => .attachIfAbsent handle k v
  | detach k => .detach handle k
  | get k => .attachment handle k
  | clear => .reset handle

/-- The keys themselves in place of the names that a client has for them. -/
def resolve (keys : Dict String AttachmentKey) :
    AttachmentUse String → Except Stop (AttachmentUse AttachmentKey)
  | attach k v => (named k).map (.attach · v)
  | attachIfAbsent k v => (named k).map (.attachIfAbsent · v)
  | detach k => (named k).map .detach
  | get k => (named k).map .get
  | clear => .ok .clear
where
  named (k : String) : Except Stop AttachmentKey :=
    match keys.get? k with
    | some key => .ok key
    | none => .error (.unknown k)

end AttachmentUse

namespace AttachmentMap

/-- The answer to a step for what a map answers. -/
def answer : Except Fault (Option AttachmentValue) → Except Stop Answer
  | .ok v? => .ok (.value? v?)
  | .error f => .error (.fault f)

/-- What a client is answered if a map of attachments is used, and the map that it becomes. -/
def tell (keys : Dict String AttachmentKey) (owner : String) (m : AttachmentMap)
    (u : AttachmentUse String) : Except Stop Answer × AttachmentMap :=
  match u.resolve keys with
  | .ok u => (answer (m.use owner u).1, (m.use owner u).2)
  | .error stop => (.error stop, m)

def tellAll (keys : Dict String AttachmentKey) (owner : String) (m : AttachmentMap) :
    List (AttachmentUse String) → List (Except Stop Answer) × AttachmentMap
  | [] => ([], m)
  | u :: us =>
    let (r, m) := m.tell keys owner u
    let (rs, m) := tellAll keys owner m us
    (r :: rs, m)

end AttachmentMap

namespace Session

variable {s s' : Session} {n : NodeId} {h owner : String} {handles : List String}
  {keys : Dict String AttachmentKey} {m : AttachmentMap}

/-! ### One step -/

/-- A node that a client can get at through some handles, with what is attached to it. -/
structure Attached (s : Session) (handles : List String) (n : NodeId)
    (keys : Dict String AttachmentKey) (owner : String) (m : AttachmentMap) : Prop where
  nodeAt : ∀ h ∈ handles, NodeAt s h n
  keys_eq : s.client.keys = keys
  fullName : (s.node n).fullName = owner
  distinct : (s.node n).attachments.Distinct
  toMap : (s.node n).attachments.toMap = m

/-- Nothing about this is in the journal. -/
lemma Attached.withJournal (ha : s.Attached handles n keys owner m) (es : List Event) :
    ({ s with journal := es } : Session).Attached handles n keys owner m :=
  ⟨ha.nodeAt, ha.keys_eq, ha.fullName, ha.distinct, ha.toMap⟩

lemma run_nodeAt (hn : NodeAt s h n) : (nodeAt h).run s = (.ok n, s) := by
  obtain ⟨i, hi, rfl⟩ := hn
  rw [nodeAt, run_bind, run_need, hi]
  rfl

/-- Whether an answer is as told, and the node is left with what is then in the map. -/
structure Told (r : Except Stop Answer × Session) (handles : List String) (n : NodeId)
    (keys : Dict String AttachmentKey) (owner : String)
    (told : Except Stop Answer × AttachmentMap) : Prop where
  answer : r.1 = told.1
  attached : r.2.Attached handles n keys owner told.2

/-- A change of the attachments is one of the map. -/
lemma Attached.change (ha : s.Attached handles n keys owner m) (hn : s.tree.contains n)
    {f : Attachments → String → Except Fault (Option AttachmentValue × Attachments)}
    {u : AttachmentUse AttachmentKey}
    (hf : ∀ (a : Attachments) owner, a.use owner u = a.settled (f a owner)) :
    Told ((changeAttachments n f).run s) handles n keys owner
      (AttachmentMap.answer (m.use owner u).1, (m.use owner u).2) := by
  have hagrees := Attachments.agrees_use ha.distinct owner u
  rw [ha.toMap, hf] at hagrees
  rw [run_changeAttachments, ha.fullName]
  rcases hr : f (s.node n).attachments owner with e | ⟨v?, a⟩
  · rw [hr] at hagrees
    obtain ⟨hanswer, hmap, hdistinct⟩ := hagrees
    rw [← hanswer, ← hmap]
    exact ⟨rfl, ha.nodeAt, ha.keys_eq, ha.fullName, ha.distinct, rfl⟩
  · rw [hr] at hagrees
    obtain ⟨hanswer, hmap, hdistinct⟩ := hagrees
    have hnode : (s.modifyNode n fun node => { node with attachments := a }).node n =
        { s.node n with attachments := a } := by
      rw [node, modifyNode, Tree.node_modify, if_pos ⟨rfl, hn⟩]
      rfl
    rw [← hanswer, ← hmap]
    refine ⟨rfl, ha.nodeAt, ha.keys_eq, ?_, ?_, ?_⟩ <;> rw [hnode]
    · exact ha.fullName
    · exact hdistinct
    · rfl

/-- A key by the name that the client has for it. -/
lemma Attached.run_key (ha : s.Attached handles n keys owner m) (hh : NodeAt s h n) (k : String)
    {f : AttachmentKey → NodeId → Run Answer} {u : AttachmentKey → AttachmentUse AttachmentKey}
    (hf : ∀ key, Told ((f key n).run s) handles n keys owner
      (AttachmentMap.answer (m.use owner (u key)).1, (m.use owner (u key)).2)) :
    Told ((need Client.keys k >>= fun key => Run.nodeAt h >>= f key).run s) handles n keys owner
      (match (AttachmentUse.resolve.named keys k).map u with
        | .ok u => (AttachmentMap.answer (m.use owner u).1, (m.use owner u).2)
        | .error stop => (.error stop, m)) := by
  rw [run_bind, run_need, ha.keys_eq, AttachmentUse.resolve.named]
  cases keys.get? k with
  | none => exact ⟨rfl, ha⟩
  | some key =>
    have hnode := hf key
    simp only [run_bind, run_nodeAt hh]
    exact hnode

lemma attachments_of_unset {a : Node} (h : a.isConfigured = false) : a.attachments = {} := by
  have hempty : a.attachments.isEmpty := by
    simp only [Node.isConfigured, Bool.or_eq_false_iff, Bool.not_eq_false'] at h
    exact h.2
  rcases hat : a.attachments with ⟨first?, second?⟩
  simp only [hat, Attachments.isEmpty, Bool.and_eq_true, Option.isNone_iff_eq_none] at hempty
  rw [hempty.1, hempty.2]

/-- A reset takes all attachments away. -/
lemma Attached.reset (ha : s.Attached handles n keys owner m) (hh : NodeAt s h n) (hs : s.Sound)
    (hg : s.Grounded) (hsettled : s.Settled) :
    ((Run.reset n).run s).2.Attached handles n keys owner ∅ := by
  have hresets := resets_reset hs hg hsettled n
  have hkeeps : (s.wiped n).Keeps ((Run.reset n).run s).2 := (ends_settle (s.wiped n)).keeps
  have hn : ((Run.reset n).run s).2.tree.contains n := by
    obtain ⟨i, hi, rfl⟩ := hh
    obtain ⟨c, hc⟩ := Option.isSome_iff_exists.1 (hg.held hi)
    have hnode : s.nodeOf i = c := by rw [nodeOf, hc, Option.getD_some]
    exact hresets.stays (Or.inr (Or.inr ⟨i, hnode ▸ hc, handle_mem_outerRefs hi⟩))
  have hcleared := hresets.self hn
  have hempty := attachments_of_unset hcleared.unset
  refine ⟨fun h hh => ?_, ?_, hcleared.fullName.trans ha.fullName, ?_, ?_⟩
  · have hsettle : NodeAt (s.wiped n).settle h n := (ha.nodeAt h hh).settle rfl rfl
    exact hsettle
  · exact (congrArg Client.keys hkeeps.client).trans ha.keys_eq
  · exact hempty ▸ Attachments.distinct_empty
  · rw [hempty]
    rfl

/-- A step on the attachments of the node is answered as the map answers it. -/
lemma Attached.take [Pattern.Engine] (ha : s.Attached handles n keys owner m) (hh : NodeAt s h n)
    (hs : s.Sound) (hg : s.Grounded) (hsettled : s.Settled) (calls : Calls)
    (u : AttachmentUse String) :
    Told (((u.step h).take calls).run s) handles n keys owner (m.tell keys owner u) := by
  have hn : s.tree.contains n := (hh.known hs).there hg
  cases u with
  | attach k v =>
    refine ha.run_key hh k (u := (.attach · v)) (f := fun key n =>
      changeAttachments n fun a owner => a.attach owner key v) fun key => ?_
    exact ha.change hn fun _ _ => rfl
  | attachIfAbsent k v =>
    refine ha.run_key hh k (u := (.attachIfAbsent · v)) (f := fun key n =>
      changeAttachments n fun a owner => a.attachIfAbsent owner key v) fun key => ?_
    exact ha.change hn fun _ _ => rfl
  | detach k =>
    refine ha.run_key hh k (u := .detach) (f := fun key n =>
      changeAttachments n fun a _ => .ok (a.detach key)) fun key => ?_
    exact ha.change hn fun _ _ => rfl
  | get k =>
    refine ha.run_key hh k (u := .get) (f := fun key n =>
      Run.node n >>= fun a => return .value? (a.attachments.get? key)) fun key => ⟨?_, ha⟩
    have hget := Attachments.lookup_toMap (s.node n).attachments key
    rw [ha.toMap] at hget
    rw [AttachmentMap.use, hget]
    rfl
  | clear =>
    have hreset : ((AttachmentUse.clear.step h).take calls).run s =
        (.ok .nothing, ((Run.reset n).run s).2) := by
      rw [AttachmentUse.step, Step.take, run_bind, run_nodeAt hh]
      rfl
    rw [hreset]
    exact ⟨rfl, ha.reset hh hs hg hsettled⟩

lemma Attached.step [Pattern.Engine] (ha : s.Attached handles n keys owner m) (hh : h ∈ handles)
    (hs : s.Sound) (hg : s.Grounded) (hsettled : s.Settled) (calls : Calls)
    (u : AttachmentUse String) :
    (s.step calls (u.step h)).1.answer = (m.tell keys owner u).1 ∧
      (s.step calls (u.step h)).2.Attached handles n keys owner (m.tell keys owner u).2 := by
  have hin : s.Conduct .all { s with journal := [] } :=
    .of_eq (Or.inl trivial) rfl rfl rfl rfl rfl rfl rfl
  have ha' := ha.withJournal []
  obtain ⟨hanswer, hattached⟩ := ha'.take (ha'.nodeAt h hh) (hin.sound hs) (hin.grounded hg)
    (hin.settled hg hsettled) calls u
  exact ⟨hanswer, hattached.withJournal []⟩

/-! ### A run -/

lemma Attached.steps [Pattern.Engine] (ha : s.Attached handles n keys owner m) (hs : s.Sound)
    (hg : s.Grounded) (hsettled : s.Settled) (depth : Nat)
    {uses : List (String × AttachmentUse String)} (hh : ∀ u ∈ uses, u.1 ∈ handles) :
    let out := s.steps (Calls.within depth) (uses.map fun u => u.2.step u.1)
    let told := m.tellAll keys owner (uses.map Prod.snd)
    out.1.map Report.answer = told.1 ∧ out.2.Attached handles n keys owner told.2 := by
  induction uses generalizing s m with
  | nil => exact ⟨rfl, ha⟩
  | cons u uses ih =>
    obtain ⟨hanswer, hattached⟩ :=
      ha.step (hh u List.mem_cons_self) hs hg hsettled (Calls.within depth) u.2
    have hc := conduct_step_all depth hs (u.2.step u.1)
    obtain ⟨hrest, hend⟩ := ih hattached (hc.sound hs) (hc.grounded hg) (hc.settled hg hsettled)
      fun v hv => hh v (List.mem_cons_of_mem u hv)
    refine ⟨?_, hend⟩
    rw [List.map_cons, Session.steps, List.map_cons, hanswer, hrest]
    rfl

/-- After any steps, let a client use the attachments of a node. The answers are those of the map of
what is attached, which never holds more than two keys: a third key is refused, and then nothing
changes. At the end what is attached is what is in the map, and at no node is a key there twice. -/
theorem attachments_steps [Pattern.Engine] (depth : Nat) (strong : Bool) (baseline : Level)
    (levels : List Level) (filters : List (String × NodeFilter)) (before : List Step) (n : NodeId)
    (uses : List (String × AttachmentUse String)) :
    let s := ((new strong baseline levels filters).steps (Calls.within depth) before).2
    (∀ u ∈ uses, NodeAt s u.1 n) →
      let out := s.steps (Calls.within depth) (uses.map fun u => u.2.step u.1)
      let told := (s.node n).attachments.toMap.tellAll s.client.keys (s.node n).fullName
        (uses.map Prod.snd)
      out.1.map Report.answer = told.1 ∧ (out.2.node n).attachments.toMap = told.2 ∧
        told.2.keys.card ≤ 2 ∧ out.2.tree.AttachesOnce := by
  intro s hn out told
  have hs : s.Sound := sound_steps depth strong baseline levels filters before
  obtain ⟨hg, hsettled⟩ := orderly_steps depth strong baseline levels filters before
  have honce : s.tree.AttachesOnce :=
    attachesOnce_steps depth strong baseline levels filters before
  have ha : s.Attached (uses.map Prod.fst) n s.client.keys (s.node n).fullName
      (s.node n).attachments.toMap := by
    refine ⟨fun h hh => ?_, rfl, rfl, honce n, rfl⟩
    obtain ⟨u, hu, rfl⟩ := List.mem_map.1 hh
    exact hn u hu
  obtain ⟨hanswers, hend⟩ := ha.steps hs hg hsettled depth fun u hu => List.mem_map_of_mem hu
  have hconduct := conduct_all depth hs (uses.map fun u => u.2.step u.1)
  refine ⟨hanswers, hend.toMap, ?_, hconduct.course.attachesOnce honce⟩
  rw [← hend.toMap]
  exact Attachments.card_toMap_le hend.distinct

open scoped Pattern.Searching in
/-- The first place is free again when a value is attached to the key in the second, and two keys
of one name are different keys. -/
theorem attachments_steps_hole :
    let s := ((new true .info [] []).steps (Calls.within 0) [.logger "a" (some "h"), .newKey "k" "key",
      .newKey "l" "key", .newKey "m" "other"]).2
    let uses : List (String × AttachmentUse String) := [("h", .attach "k" (.int 1)),
      ("h", .attach "l" (.int 2)), ("h", .attach "m" (.int 3)), ("h", .detach "k"),
      ("h", .attach "l" (.int 4)), ("h", .attachIfAbsent "m" (.int 5)), ("h", .get "l")]
    let out := s.steps (Calls.within 0) (uses.map fun u => u.2.step u.1)
    (∀ u ∈ uses, NodeAt s u.1 1) ∧
      out.1.map Report.answer = [.ok .nothing, .ok .nothing,
        .error (.fault (.attachmentCapacity "a" "other")), .ok (.value (.int 1)),
        .ok (.value (.int 2)), .ok .nothing, .ok (.value (.int 4))] := by
  intro s uses out
  have hn : ∀ u ∈ uses, NodeAt s u.1 1 := by
    have hh : NodeAt s "h" 1 := ⟨0, by decide +kernel, by decide +kernel⟩
    have hnames : ∀ u ∈ uses, u.1 = "h" := by simp [uses]
    exact fun u hu => (hnames u hu).symm ▸ hh
  have hempty : (s.node 1).attachments = {} := by decide +kernel
  have hname : (s.node 1).fullName = "a" := by decide +kernel
  have htold : ∀ keys : Dict String AttachmentKey, keys.get? "k" = some ⟨0, "key"⟩ →
      keys.get? "l" = some ⟨1, "key"⟩ → keys.get? "m" = some ⟨2, "other"⟩ →
      (AttachmentMap.tellAll keys "a" ∅ (uses.map Prod.snd)).1 = [.ok .nothing, .ok .nothing,
        .error (.fault (.attachmentCapacity "a" "other")), .ok (.value (.int 1)),
        .ok (.value (.int 2)), .ok .nothing, .ok (.value (.int 4))] := by
    intro keys hk hl hm
    simp only [uses, List.map_cons, List.map_nil, AttachmentMap.tellAll, AttachmentMap.tell,
      AttachmentUse.resolve, AttachmentUse.resolve.named, hk, hl, hm, Except.map]
    rfl
  obtain ⟨hanswers, -⟩ := attachments_steps 0 true .info [] [] _ 1 uses hn
  refine ⟨hn, hanswers.trans ?_⟩
  rw [hempty, hname]
  exact htold s.client.keys (by decide +kernel) (by decide +kernel) (by decide +kernel)

end Session

end Logging
