import Mathlib.Tactic.Common
import Logging.Proofs.Session.Runs
import Logging.Session.Step

/-!
# Steps take courses

Callbacks leave a session as they may however deep they are nested, by induction on the depth, and
so does every step of a client that is permitted (`Step.movesIf`). Any number of steps from a new
session therefore leads to a sound one (`sound_steps`), in which references lead somewhere and all
that exists is referred to (`orderly_steps`).
-/

namespace Logging

open Session

namespace Run

variable {α β : Type} {L : Licence} {P : Session → Prop} {n : NodeId} {calls : Calls}

/-! ### Callbacks -/

lemma moves_inNamespace {call : Run Unit} (h : MovesIf L (fun s => s.scope?.isSome) call) :
    Moves L (Action.perform.inNamespace call) := by
  intro s hs
  change s.Conduct L ((if s.scope?.isSome then call else pure ()).run s).2
  split_ifs with hn
  · exact h s hs hn
  · exact .refl s

/-- Something is done at the node of a handle. -/
lemma moves_nodeOf_bind (h : HandleId) {f : NodeId → Run α}
    (hf : ∀ n, MovesIf L (fun s => s.Open L n) (f n)) : Moves L (nodeOf h >>= f) :=
  fun s hs => hf _ s hs (Or.inr (bound_nodeOf s h))

section

variable (hcalls : CallsMove L calls) (hr : L.callbacks → ∀ s n, L.reset s n)

include hcalls hr

lemma moves_perform {a : BoundAction} (ha : a.isMild ∨ L.callbacks) :
    Moves L (Action.perform calls a) := by
  cases a with
  | note text => exact moves_emit _
  | log h l message => exact moves_log hcalls h l message
  | setLevel h l? => exact moves_nodeOf_bind h fun n => movesIf_setLevel n l?
  | addSink h k => exact moves_nodeOf_bind h fun n => movesIf_changeSinks n _
  | removeSink h k =>
    exact moves_nodeOf_bind h fun n => (movesIf_changeSinks n _).bind fun _ => moves_emit _
  | reset h =>
    have hreset := hr (ha.resolve_left nofun)
    exact moves_nodeOf_bind h fun n => (movesIf_reset n).mono fun s hn => ⟨hn, hreset s n⟩
  | touch name => exact moves_inNamespace (movesIf_logger name fun _ => (moves_emit _).if)
  | reclaim => exact moves_inNamespace (moves_reclaim.bind fun _ => moves_emit _).if
  | close =>
    have hreset := hr (ha.resolve_left nofun)
    exact moves_inNamespace (moves_close hcalls fun s => hreset s _).if
  | addHook text =>
    have hnote : L.Admits ([.note text] : List BoundAction) := fun a ha => by
      obtain rfl := List.mem_singleton.1 ha
      exact Or.inl rfl
    refine moves_inNamespace (moves_get.bind fun s => Moves.ite (moves_emit _) ?_).if
    exact (moves_addHook hnote).bind fun _ => moves_emit _
  | abort => exact moves_stop _

lemma moves_performAll {actions : List BoundAction} (ha : L.Admits actions) :
    Moves L (Action.performAll calls actions) := by
  induction actions with
  | nil => exact moves_pure _
  | cons a actions ih =>
    have hhead := moves_perform hcalls hr (ha a List.mem_cons_self)
    exact hhead.bind fun _ => ih (ha.mono (List.subset_cons_self a actions))

lemma moves_predicate {p : BoundPredicate} (hp : L.Admits p.actions) (r : Record) :
    Moves L (p.run calls r) :=
  (moves_performAll hcalls hr hp).bind fun _ => moves_pure _

lemma moves_sinkPublish {sink : BoundSink} (hs : L.Admits sink.allActions) (r : Record) :
    Moves L (sink.publish calls r) := by
  have hactions := hs.mono (List.subset_append_left sink.actions sink.flushActions)
  refine Moves.ite (moves_pure _) ((moves_emit _).bind fun _ => ?_)
  exact (moves_performAll hcalls hr hactions).bind fun _ => moves_pure _

lemma moves_sinkFlush {sink : BoundSink} (hs : L.Admits sink.allActions) :
    Moves L (sink.flush calls) := by
  have hactions := hs.mono (List.subset_append_right sink.actions sink.flushActions)
  refine Moves.ite (moves_pure _) ((moves_emit _).bind fun _ => ?_)
  exact (moves_performAll hcalls hr hactions).bind fun _ => moves_pure _

omit hcalls

/-- Callbacks leave a session as they may, if they may reset any node or reset none. -/
theorem callsMove (depth : Nat) : CallsMove L (Calls.within depth) := by
  induction depth with
  | zero =>
    exact ⟨fun _ _ => moves_stop _, fun _ _ => moves_stop _, fun _ => moves_stop _,
      fun _ => moves_stop _⟩
  | succ depth ih =>
    refine ⟨fun r hp => moves_predicate ih hr hp r, fun k r s hs => ?_, fun k s hs => ?_,
      fun hh => moves_performAll ih hr hh⟩
    · exact moves_sinkPublish ih hr (hs.heeds.sink_actions k) r s hs
    · exact moves_sinkFlush ih hr (hs.heeds.sink_actions k) s hs

end

theorem callsMove_within (depth : Nat) : CallsMove .all (Calls.within depth) :=
  callsMove (fun _ _ _ => trivial) depth

/-! ### What the client holds -/

/-- The handle is there, or a client has it already. -/
def Lasts (s : Session) (i : HandleId) : Prop :=
  (∃ id, s.client.handles.get? id = some i) ∨ s.handles.contains i

/-- What a client may come to hold: nodes only by licence, and nothing that is not there. -/
structure Holds (L : Licence) (s : Session) (c : Client) : Prop where
  handles : ∀ {id i}, c.handles.get? id = some i → Lasts s i
  nodes : ∀ {id n}, c.nodes.get? id = some n →
    s.client.nodes.get? id = some n ∨ L.nodes ∧ s.Known n
  walks : ∀ {id w n}, c.walks.get? id = some w → n ∈ w.pending →
    (∃ id w, s.client.walks.get? id = some w ∧ n ∈ w.pending) ∨ L.nodes ∧ s.Known n
  filters : ∀ {id f}, c.filters.get? id = some f →
    s.client.filters.get? id = some f ∨ L.Admits f.actions

lemma Holds.refl (s : Session) : Holds L s s.client :=
  ⟨fun h => Or.inl ⟨_, h⟩, Or.inl, fun h hm => Or.inl ⟨_, _, h, hm⟩, Or.inl⟩

lemma holds_of_eq {s : Session} {c : Client} (hh : c.handles = s.client.handles)
    (hn : c.nodes = s.client.nodes) (hw : c.walks = s.client.walks)
    (hf : c.filters = s.client.filters) : Holds L s c where
  handles h := Or.inl ⟨_, hh ▸ h⟩
  nodes h := Or.inl (hn ▸ h)
  walks h hm := Or.inl ⟨_, _, hw ▸ h, hm⟩
  filters h := Or.inl (hf ▸ h)

/-- The nodes that a client refers to are those that it keeps and those that it has yet to visit. -/
lemma node_mem_refsOfClient_iff {c : Client} :
    .node n ∈ refsOfClient c ↔ (∃ id, c.nodes.get? id = some n) ∨
      ∃ id w, c.walks.get? id = some w ∧ n ∈ w.pending := by
  simp only [refsOfClient, List.mem_append, List.mem_map, List.mem_flatMap, Dict.mem_values_iff,
    node_not_mem_refsOfSinks, node_not_mem_refsOfFilter, reduceCtorEq, Ref.node.injEq, and_false,
    exists_false, false_or, or_false, exists_eq_right]
  refine or_congr_right ⟨?_, ?_⟩
  · rintro ⟨w, ⟨id, h⟩, hm⟩
    exact ⟨id, w, h, hm⟩
  · rintro ⟨id, w, h, hm⟩
    exact ⟨w, ⟨id, h⟩, hm⟩

lemma Holds.outer {s : Session} {c : Client} (h : Holds L s c)
    (hm : .node n ∈ ({ s with client := c } : Session).outerRefs) :
    .node n ∈ s.outerRefs ∨ L.nodes ∧ s.Known n := by
  simp only [outerRefs, List.mem_append, node_mem_refsOfClient_iff] at hm ⊢
  rcases hm with (hm | ⟨id, hm⟩ | ⟨id, w, hw, hm⟩) | hm
  · exact Or.inl (Or.inl (Or.inl hm))
  · exact (h.nodes hm).imp_left fun hm => Or.inl (Or.inr (Or.inl ⟨id, hm⟩))
  · exact (h.walks hw hm).imp_left fun hm => Or.inl (Or.inr (Or.inr hm))
  · exact Or.inl (Or.inr hm)

/-- The client holds something else, and what it let go of ends. -/
lemma Holds.conduct {s : Session} {c : Client} (h : Holds L s c) (hs : s.Sound) :
    s.Conduct L ({ s with client := c } : Session).settle := by
  have hb : s.Beside L { s with client := c } :=
    { tree := rfl
      handles := rfl
      notices := rfl
      reclaimed := Or.inr rfl
      outer := fun hm => (h.outer hm).imp_right And.left
      kept := fun hm => (h.nodes hm).imp_right fun hm => hm.2.made
      named := id }
  refine .of_settle hs hb.course rfl
    (fun hg => hg.of_beside rfl rfl (fun hm => ?_) fun hi => ?_) fun hh => ?_
  · exact (h.outer hm).elim hg.outer fun hm => hm.2.there hg
  · exact (h.handles hi).elim (fun ⟨_, hi⟩ => hg.held hi) id
  · refine { node := hh.node, filter := fun hf => ?_, sink := hh.sink, hook := hh.hook }
    cases hf with
    | registered hns hf => exact hh.filter (.registered hns hf)
    | kept hf => exact (h.filters hf).elim (fun hf => hh.filter (.kept hf)) id

lemma movesIf_modifyClient {f : Client → Client}
    (hf : ∀ s : Session, s.Ready L → P s → Holds L s (f s.client)) :
    MovesIf L P (modifyClient f) :=
  fun s hs hP => (hf s hs hP).conduct hs.toSound

lemma moves_dropClient {f : Client → Client} (hf : ∀ s : Session, Holds L s (f s.client)) :
    Moves L (modifyClient f) :=
  fun s hs => (hf s).conduct hs.toSound

lemma moves_modifyClient {f : Client → Client} (hh : ∀ c, (f c).handles = c.handles)
    (hn : ∀ c, (f c).nodes = c.nodes) (hw : ∀ c, (f c).walks = c.walks)
    (hf : ∀ c, (f c).filters = c.filters) : Moves L (modifyClient f) := fun s hs =>
  (holds_of_eq (hh s.client) (hn s.client) (hw s.client) (hf s.client)).conduct hs.toSound

lemma get?_of_erase {κ β : Type} [DecidableEq κ] {d : Dict κ β} {k k' : κ} {b : β}
    (h : (d.erase k).get? k' = some b) : d.get? k' = some b := by
  rw [Dict.get?_erase] at h
  split_ifs at h
  exact h

lemma run_need (d : Client → Dict String α) (id : String) (s : Session) :
    (need d id).run s =
      match (d s.client).get? id with
      | some a => (.ok a, s)
      | none => (.error (.unknown id), s) := by
  rw [need, run_bind]
  change (match (d s.client).get? id with
    | some a => (return a : Run α)
    | none => stop (.unknown id)).run s = _
  cases (d s.client).get? id <;> rfl

lemma reads_need (d : Client → Dict String α) (id : String) : Reads (need d id) := by
  intro s
  rw [run_need]
  cases (d s.client).get? id <;> rfl

lemma get?_of_need {d : Client → Dict String α} {id : String} {s : Session} {a : α}
    (h : ((need d id).run s).1 = .ok a) : (d s.client).get? id = some a := by
  rw [run_need] at h
  cases hd : (d s.client).get? id with
  | none =>
    rw [hd] at h
    cases h
  | some b =>
    rw [hd] at h
    cases h
    rfl

lemma reads_nodeAt (h : String) : Reads (nodeAt h) :=
  (reads_need Client.handles h).bind fun h => reads_nodeOf h

lemma reads_nodeIn (place : Place) : Reads (nodeIn place) := by
  cases place with
  | node id => exact reads_need Client.nodes id
  | handle id => exact reads_nodeAt id

lemma run_theNamespace (s : Session) :
    theNamespace.run s =
      match s.scope? with
      | some ns => (.ok ns, s)
      | none => (.error (.unknown "namespace"), s) := by
  rw [theNamespace, run_bind]
  change (match s.scope? with
    | some ns => (return ns : Run Namespace)
    | none => stop (.unknown "namespace")).run s = _
  cases s.scope? <;> rfl

lemma reads_theNamespace : Reads theNamespace := by
  intro s
  rw [run_theNamespace]
  cases s.scope? <;> rfl

lemma moves_theNamespace : Moves L theNamespace := reads_theNamespace.moves

/-- What is done with the namespace may rely on it, and on its levels going by their names. -/
lemma moves_theNamespace_bind {f : Namespace → Run α}
    (hf : ∀ ns, ns.levels.Named → MovesIf L (fun s => s.scope?.isSome) (f ns)) :
    Moves L (theNamespace >>= f) := by
  intro s hs
  rw [run_bind, run_theNamespace]
  cases hns : s.scope? with
  | none => exact .refl s
  | some ns => exact hf ns (hs.named ns hns) s hs (Option.isSome_iff_exists.2 ⟨ns, hns⟩)

lemma reads_fullName (n : NodeId) : Reads (fullName n) := fun _ => rfl

lemma reads_sinkNames (a : NodeSinks) : Reads (sinkNames a) := fun _ => rfl

lemma reads_ofBuild (r : Except BuildError α) : Reads (ofBuild r) := by
  rcases r with (f | id) | a
  · exact reads_stop _
  · exact reads_stop _
  · exact reads_pure a

lemma reads_buildFilter [Pattern.Engine] (spec : FilterSpec) : Reads (buildFilter spec) :=
  reads_get.bind fun _ => reads_ofBuild _

lemma run_ofBuild_bind (r : Except BuildError α) (f : α → Run β) (s : Session) :
    (ofBuild r >>= f).run s =
      match r with
      | .ok a => (f a).run s
      | .error (.fault e) => (.error (.fault e), s)
      | .error (.unknown id) => (.error (.unknown id), s) := by
  rw [run_bind]
  rcases r with (e | id) | a <;> rfl

/-- Actions that are bound stay within a licence. -/
lemma moves_bindActions_bind {s₀ : Session} {actions : List (Action String String)}
    (ha : L.Admits actions) {f : List BoundAction → Run α}
    (hf : ∀ bound, L.Admits bound → Moves L (f bound)) :
    Moves L (ofBuild (s₀.bindActions actions) >>= f) := by
  intro s hs
  rw [run_ofBuild_bind]
  rcases hb : s₀.bindActions actions with (e | id) | bound
  · exact .refl s
  · exact .refl s
  · exact hf bound (ha.of_bindActions hb) s hs

/-- A filter that is built stays within a licence. -/
lemma movesIf_buildFilter_bind [Pattern.Engine] {spec : FilterSpec} (ha : L.Admits spec.actions)
    {f : NodeFilter → Run α} (hf : ∀ g, L.Admits g.actions → MovesIf L P (f g)) :
    MovesIf L P (buildFilter spec >>= f) := by
  have hbind : buildFilter spec >>= f = get >>= fun s => ofBuild (s.buildFilter spec) >>= f :=
    bind_assoc _ _ _
  rw [hbind]
  refine reads_get.behaves.bind_moves fun s₀ s hs h => ?_
  obtain ⟨hget, hP⟩ := h
  obtain rfl : s = s₀ := Except.ok.inj hget
  rw [run_ofBuild_bind]
  rcases hb : s.buildFilter spec with (e | id) | g
  · exact .refl s
  · exact .refl s
  · exact hf g (hs.heeds.admits_of_buildFilter ha hb) s hs hP

lemma movesIf_keepHandle (as? : Option String) (h : HandleId) :
    MovesIf L (fun s => Lasts s h) (keepHandle as? h) := by
  refine (reads_nodeOf h).bind_if fun n => (reads_fullName n).bind_if fun name => ?_
  cases as? with
  | none => exact (moves_pure _).if
  | some id =>
    refine (movesIf_modifyClient fun s _ hc => ?_).bind fun _ => moves_pure _
    refine { Holds.refl s with handles := fun {j i} hi => ?_ }
    have hi' : (s.client.handles.insert id h).get? j = some i := hi
    rw [Dict.get?_insert] at hi'
    split_ifs at hi'
    · exact Option.some.inj hi' ▸ hc
    · exact Or.inl ⟨_, hi'⟩

/-- A handle that was just made may be kept. -/
lemma movesIf_keepNew (as? : Option String) (h : HandleId) :
    MovesIf L (fun s => s.handles.contains h) (keepHandle as? h) :=
  (movesIf_keepHandle as? h).mono fun _ => Or.inr

lemma reads_levelNames : Reads levelNames :=
  reads_theNamespace.bind fun _ => reads_get.bind fun _ => reads_pure _

lemma moves_levelNames : Moves L levelNames := reads_levelNames.moves

lemma run_changeAttachments (n : NodeId)
    (f : Attachments → String → Except Fault (Option AttachmentValue × Attachments))
    (s : Session) :
    (changeAttachments n f).run s =
      match f (s.node n).attachments (s.node n).fullName with
      | .ok (v?, a) => (.ok (.value? v?), s.modifyNode n fun node => { node with attachments := a })
      | .error e => (.error (.fault e), s) := by
  rw [changeAttachments, run_bind]
  change (ofExcept (f (s.node n).attachments (s.node n).fullName) >>= _ : Run Answer).run s = _
  rcases f (s.node n).attachments (s.node n).fullName with e | ⟨v?, a⟩ <;> rfl

/-- A change of attachments must not put a key in both places. -/
lemma movesIf_changeAttachments (n : NodeId)
    {f : Attachments → String → Except Fault (Option AttachmentValue × Attachments)}
    (hf : ∀ a owner r, a.Distinct → f a owner = .ok r → r.2.Distinct) :
    MovesIf L (fun s => s.Open L n) (changeAttachments n f) := by
  intro s _ hn
  rw [run_changeAttachments]
  cases hr : f (s.node n).attachments (s.node n).fullName with
  | error e => exact .refl s
  | ok r => exact conduct_adjust hn (Node.adjusts_attachments r.2) fun h => hf _ _ r h hr

/-! ### The node of a handle of the client -/

/-- The client has a handle for the node under a name. -/
def NodeAt (s : Session) (h : String) (n : NodeId) : Prop :=
  ∃ i, s.client.handles.get? h = some i ∧ s.nodeOf i = n

lemma NodeAt.open {s : Session} {h : String} (hn : NodeAt s h n) : s.Open L n := by
  obtain ⟨i, -, rfl⟩ := hn
  exact Or.inr (bound_nodeOf s i)

lemma NodeAt.known {s : Session} {h : String} (hn : NodeAt s h n) (hs : s.Sound) : s.Known n := by
  obtain ⟨i, hi, rfl⟩ := hn
  rw [Session.nodeOf]
  cases hb : s.handles.get? i with
  | some n => exact ⟨hs.handle hb, fun hg => hg.bound hb⟩
  | none =>
    refine ⟨hs.made, fun hg => ?_⟩
    have hc := hg.held hi
    rw [Store.contains, hb] at hc
    cases hc

lemma nodeAt_of_run {s : Session} {h : String} (hn : ((nodeAt h).run s).1 = .ok n) :
    NodeAt s h n := by
  rw [nodeAt, run_bind, run_need] at hn
  cases hi : s.client.handles.get? h with
  | none =>
    rw [hi] at hn
    cases hn
  | some i =>
    rw [hi] at hn
    exact ⟨i, hi, Except.ok.inj hn⟩

lemma behaves_nodeAt (h : String) : Behaves L P (nodeAt h) fun n s => NodeAt s h n ∧ P s := by
  intro s hs hP
  obtain ⟨hc, hn⟩ := (reads_nodeAt h).behaves (L := L) s hs hP
  exact ⟨hc, fun n hr => (hn n hr).imp_left nodeAt_of_run⟩

/-- Something is done at the node of a handle of the client. -/
lemma moves_nodeAt_bind (h : String) {f : NodeId → Run α}
    (hf : ∀ n, MovesIf L (fun s => s.Open L n) (f n)) : Moves L (nodeAt h >>= f) := fun s hs =>
  (behaves_nodeAt (P := fun _ => True) h).bind_moves
    (fun n => (hf n).mono fun _ hn => hn.1.open) s hs trivial

/-- A session may settle under what the client holds. -/
lemma NodeAt.settle {s s' : Session} {h : String} (hn : NodeAt s h n)
    (hc : s'.client.handles = s.client.handles) (hh : s'.handles = s.handles) :
    NodeAt s'.settle h n := by
  obtain ⟨i, hi, rfl⟩ := hn
  have hk := (ends_settle s').keeps
  rw [← hc] at hi
  refine ⟨i, by rw [hk.client]; exact hi, ?_⟩
  rw [Session.nodeOf, Session.nodeOf, hk.held (handle_mem_outerRefs hi), hh]

/-- To save an array leaves the client its handles. -/
lemma behaves_saveArray (save? : Option String) (a : NodeSinks) (h : String) :
    Behaves L (fun s => NodeAt s h n) (saveArray save? a) fun _ s => NodeAt s h n := by
  refine (reads_sinkNames a).behaves.bind fun names => ?_
  rintro s hs ⟨-, hn⟩
  cases save? with
  | none => exact ⟨.refl s, fun _ _ => hn⟩
  | some id =>
    have hc : Holds L s { s.client with arrays := s.client.arrays.insert id a } :=
      holds_of_eq rfl rfl rfl rfl
    exact ⟨hc.conduct hs.toSound, fun _ _ => hn.settle rfl rfl⟩

/-- The array that the sinks of a node make is saved before they change. -/
lemma movesIf_saveArray_bind (save? : Option String) (a : NodeSinks) (h : String)
    {f : Answer → Run α} (hf : ∀ answer, MovesIf L (fun s => s.Open L n) (f answer)) :
    MovesIf L (fun s => NodeAt s h n) (saveArray save? a >>= f) :=
  (behaves_saveArray save? a h).bind_moves fun answer => (hf answer).mono fun _ hn => hn.open

/-! ### Nodes that are known -/

/-- A client may keep a node that is known, if it may keep nodes. -/
lemma movesIf_keepNode (hL : L.nodes) (as? : Option String) (n : NodeId) :
    MovesIf L (fun s => s.Known n) (keepNode as? n) := by
  refine (reads_fullName n).bind_if fun name => ?_
  cases as? with
  | none => exact (moves_pure _).if
  | some id =>
    refine (movesIf_modifyClient fun s _ hn => ?_).bind fun _ => moves_pure _
    refine { Holds.refl s with nodes := fun {j m} hm => ?_ }
    have hm' : (s.client.nodes.insert id n).get? j = some m := hm
    rw [Dict.get?_insert] at hm'
    split_ifs at hm'
    · exact Or.inr ⟨hL, Option.some.inj hm' ▸ hn⟩
    · exact Or.inl hm'

lemma behaves_nodeIn (place : Place) : Behaves L P (nodeIn place) fun n s => s.Known n ∧ P s := by
  cases place with
  | handle id =>
    intro s hs hP
    obtain ⟨h, hn⟩ := behaves_nodeAt id s hs hP
    refine ⟨h, fun n hr => ⟨(hn n hr).1.known ?_, (hn n hr).2⟩⟩
    exact h.sound hs.toSound
  | node id =>
    intro s hs hP
    have hread : ((need Client.nodes id).run s).2 = s := reads_need Client.nodes id s
    refine ⟨(reads_need Client.nodes id).moves s hs, fun n hn => ?_⟩
    have hk := get?_of_need hn
    show ((need Client.nodes id).run s).2.Known n ∧ P ((need Client.nodes id).run s).2
    rw [hread]
    refine ⟨⟨hs.kept hk, fun hg => hg.outer ?_⟩, hP⟩
    have hc := node_mem_refsOfClient_iff.2 (Or.inl ⟨id, hk⟩)
    simp [outerRefs, hc]

/-- A node that is found is known, if the start of its path is. -/
lemma Known.find? {s : Session} (hs : s.Sound) (hn : s.Known n) {path : List String} {m : NodeId}
    (hm : s.tree.find? n path = some m) : s.Known m := by
  cases path with
  | nil =>
    cases hm
    exact hn
  | cons k path =>
    have hc := (Tree.below_of_find? (List.cons_ne_nil k path) hm).contains hs.tree.toWellShaped
    exact ⟨Tree.lt_next_of_contains hc, fun _ => hc⟩

lemma movesIf_find? (name : String) {use : NodeId → Run α} {other : Run α}
    (hu : ∀ m, MovesIf L (fun s => s.Known m) (use m)) (ho : Moves L other) :
    MovesIf L (fun s => s.Known n) (find? n name >>= fun
      | some m => use m
      | none => other) := by
  intro s hs hn
  rw [run_bind]
  change s.Conduct L ((match s.tree.find? n (Path.ofString name) with
    | some m => use m
    | none => other).run s).2
  cases hm : s.tree.find? n (Path.ofString name) with
  | none => exact ho s hs
  | some m => exact hu m s hs (Known.find? hs.toSound hn hm)

lemma movesIf_createNode (hL : L.nodes) (as? : Option String) (name : String) :
    MovesIf L (fun s => s.Known n) (getOrCreate n name >>= fun m => keepNode as? m) := by
  intro s hs hn
  have h := Conduct.getOrCreate hs.toSound hL hn name
  rw [run_bind, run_getOrCreate]
  exact h.trans
    (movesIf_keepNode hL as? _ _ (h.ready hs) (known_getOrCreate hs.toSound hn _))

/-- A handle for the parent of a node may be made. -/
lemma moves_parent [Pattern.Engine] (h : String) (as? : Option String) (calls : Calls) :
    Moves L ((Step.parent h as?).take calls) := by
  intro s hs
  refine (behaves_nodeAt (P := fun _ => True) h).bind_moves (fun n => ?_) s hs trivial
  rintro s hs -
  rw [run_bind]
  change s.Conduct L ((match (s.node n).parent? with
    | some p => withHandle p (keepHandle as?)
    | none => return .nothing).run s).2
  cases hp : (s.node n).parent? with
  | none => exact .refl s
  | some p =>
    have hn := Tree.lt_next_of_contains (Tree.contains_of_parent? hp)
    exact movesIf_withHandle (movesIf_keepNew as?) s hs
      ⟨Nat.lt_trans (hs.tree.parent_older hp) hn, fun hg => hg.parent hp⟩

/-- What a walk is still to visit was so before, or is below what it visited. -/
lemma mem_nextWithin {t : Tree} (ht : t.WellShaped) (fuel : Nat) {pending : List NodeId}
    {m : NodeId} (hm : m ∈ (LiveNames.nextWithin t fuel pending).2) :
    m ∈ pending ∨ t.contains m := by
  induction fuel generalizing pending with
  | zero => exact Or.inl hm
  | succ fuel ih =>
    cases pending with
    | nil => exact Or.inl hm
    | cons n pending =>
      have hmore : ∀ {m}, m ∈ LiveNames.sortedChildren t n ++ pending →
          m ∈ n :: pending ∨ t.contains m := by
        intro m hm
        rcases List.mem_append.1 hm with hm | hm
        · simp only [LiveNames.sortedChildren, List.mem_map, List.mem_mergeSort, Prod.exists,
            exists_eq_right, Dict.mem_entries_iff] at hm
          obtain ⟨k, hk⟩ := hm
          exact Or.inr (ht.present hk)
        · exact Or.inl (List.mem_cons_of_mem n hm)
      rw [LiveNames.nextWithin] at hm
      split_ifs at hm
      · exact hmore hm
      · exact (ih hm).elim hmore Or.inr

/-- A new sink is held by the client. -/
lemma moves_pushSink {b : BoundSink} (ha : L.Admits b.allActions) {f : Client → Client}
    (hh : ∀ c, (f c).handles = c.handles) (hn : ∀ c, (f c).nodes = c.nodes)
    (hw : ∀ c, (f c).walks = c.walks) (hf : ∀ c, (f c).filters = c.filters) :
    Moves L (do
      modify fun s => { s with sinks := s.sinks.push b }
      modifyClient f) := by
  intro s hs
  have hb : s.Beside L { s with sinks := s.sinks.push b } :=
    ⟨rfl, rfl, rfl, Or.inr rfl, Or.inl, Or.inl, id⟩
  have hc : Holds L { s with sinks := s.sinks.push b } (f s.client) :=
    holds_of_eq (hh s.client) (hn s.client) (hw s.client) (hf s.client)
  have h := hc.conduct (hb.leads.sound hs.toSound)
  exact
    { course := hb.course.trans h.course
      inUse := h.inUse
      grounded := fun hg => h.grounded (hg.of_beside rfl rfl hg.outer hg.held)
      settled := fun _ _ => settled_settle _
      heeds := fun hh => h.heeds (hh.pushSink ha) }

/-- A walk begins at the root. -/
lemma movesIf_startNames (hL : L.nodes) (id : String) :
    MovesIf L (fun s => s.scope?.isSome) (modifyClient fun c =>
      { c with walks := c.walks.insert id (LiveNames.start Tree.root) }) := by
  refine movesIf_modifyClient fun s hs hn => ?_
  refine { Holds.refl s with walks := fun {j w m} hw hm => ?_ }
  have hw' : (s.client.walks.insert id (LiveNames.start Tree.root)).get? j = some w := hw
  rw [Dict.get?_insert] at hw'
  split_ifs at hw'
  · cases hw'
    obtain rfl := List.mem_singleton.1 hm
    exact Or.inr ⟨hL, known_root hs.toSound hn⟩
  · exact Or.inl ⟨_, _, hw', hm⟩

lemma movesIf_nextName [Pattern.Engine] (id : String) (calls : Calls) :
    MovesIf L (fun _ => L.nodes) ((Step.nextName id).take calls) := by
  refine (reads_need Client.walks id).behaves.bind_moves fun w => ?_
  refine (reads_get.behaves).bind_moves fun s₀ => ?_
  refine (movesIf_modifyClient fun s hs h => ?_).bind fun _ => moves_pure _
  obtain ⟨hget, hw, hL⟩ := h
  obtain rfl : s = s₀ := Except.ok.inj hget
  have hid := get?_of_need hw
  refine { Holds.refl s with walks := fun {j w' m} hw' hm => ?_ }
  have hw'' : (s.client.walks.insert id (w.next s.tree).2).get? j = some w' := hw'
  rw [Dict.get?_insert] at hw''
  split_ifs at hw''
  · cases hw''
    refine (mem_nextWithin hs.tree.toWellShaped _ hm).imp (fun hm => ⟨id, w, hid, hm⟩) fun hc => ?_
    exact ⟨hL, Tree.lt_next_of_contains hc, fun _ => hc⟩
  · exact Or.inl ⟨_, _, hw'', hm⟩

lemma moves_dropNamespace (hL : L.drop) :
    Moves L (do
      modify fun s => { s with tree := s.tree.takeDown Tree.root, scope? := none }
      settle) := by
  refine fun s hs => .of_settle hs.toSound (Deed.takeDown hL).course rfl (fun hg => ?_) fun hh => ?_
  · have ht := hg.takeDown hs.toSound Tree.root
    refine ht.of_beside rfl rfl (fun hm => ht.outer ?_) ht.held
    simp only [outerRefs, List.mem_append, Option.toList_none, List.flatMap_nil, List.not_mem_nil,
      or_false] at hm
    exact List.mem_append_left _ (List.mem_append.2 hm)
  · exact hh.takeDown

end Run

open Run

variable {calls : Calls} {L : Licence}

/-- All that the predicates, sinks and hooks do that a step hands to the session. -/
def Step.actions : Step → List (Action String String)
  | setFilter _ spec? => spec?.toList.flatMap FilterSpec.actions
  | newSink _ sink => sink.allActions
  | registerFilter _ spec | keepFilter _ spec => spec.actions
  | addHook actions => actions
  | _ => []

/-- What the step itself does is within a licence. -/
def Step.Permitted (L : Licence) (s : Session) : Step → Prop
  | keepNode .. | createNode .. | findNode .. | setNodeLevel .. => L.nodes
  | startNames _ | nextName _ => L.nodes
  | resetNode place => L.nodes ∧ ∀ n, ((nodeIn place).run s).1 = .ok n → L.reset s n
  | reset h => ∀ n, ((nodeAt h).run s).1 = .ok n → L.reset s n
  | close => ∀ s, L.reset s Tree.root
  | resetMetrics => L.recount
  | dropNamespace => L.drop
  | _ => True

/-- A step that is permitted leaves any session that is ready as it may, if the callbacks that it
hands over are within the licence. -/
theorem Step.movesIf [Pattern.Engine] (hcalls : CallsMove L calls) {step : Step}
    (ha : L.Admits step.actions) : MovesIf L (step.Permitted L) (step.take calls) := by
  cases step with
  | logger name as? =>
    exact (moves_theNamespace_bind fun _ _ => movesIf_logger name (movesIf_keepNew as?)).if
  | loggerIfExists name as? =>
    refine (moves_theNamespace_bind fun _ _ => behaves_reclaim.bind_moves fun _ s hs hn => ?_).if
    exact movesIf_find? name (fun _ => movesIf_withHandle (movesIf_keepNew as?)) (moves_pure _)
      s hs (known_root hs.toSound hn)
  | root as? =>
    refine (moves_theNamespace_bind fun _ _ s hs hn => ?_).if
    exact movesIf_withHandle (movesIf_keepNew as?) s hs (known_root hs.toSound hn)
  | parent h as? => exact (moves_parent h as? calls).if
  | clone h as? =>
    exact (reads_need Client.handles h).behaves.bind_moves fun i s hs hi =>
      movesIf_keepHandle as? i s hs (Or.inl ⟨h, get?_of_need hi.1⟩)
  | dropHandle h =>
    refine (moves_get.bind fun _ => (moves_dropClient fun s => ?_).bind fun _ => moves_pure _).if
    exact { Holds.refl s with handles := fun h => Or.inl ⟨_, get?_of_erase h⟩ }
  | sameNode h other =>
    exact ((reads_nodeAt h).bind fun _ => (reads_nodeAt other).bind fun _ => reads_pure _).moves.if
  | describeHandle h =>
    exact ((reads_need _ h).bind fun _ => reads_get.bind fun _ => reads_pure _).moves.if
  | keepNode h as? =>
    exact (behaves_nodeAt h).bind_moves fun n s hs hn =>
      movesIf_keepNode hn.2 as? n s hs (hn.1.known hs.toSound)
  | createNode place name as? =>
    exact (behaves_nodeIn place).bind_moves fun n s hs hn =>
      movesIf_createNode hn.2 as? name s hs hn.1
  | findNode place name as? =>
    exact (behaves_nodeIn place).bind_moves fun n s hs hn =>
      movesIf_find? name (movesIf_keepNode hn.2 as?) (moves_pure _) s hs hn.1
  | dropNode n =>
    refine (moves_get.bind fun _ => (moves_dropClient fun s => ?_).bind fun _ => moves_pure _).if
    exact { Holds.refl s with nodes := fun h => Or.inl (get?_of_erase h) }
  | nodeInfo place | describeNode place =>
    exact ((reads_nodeIn place).bind fun _ => reads_get.bind fun _ => reads_pure _).moves.if
  | setNodeLevel place l? =>
    exact (reads_nodeIn place).behaves.bind_moves fun n =>
      ((movesIf_setLevel n l?).bind fun _ => moves_pure _).mono fun _ hn => Or.inl hn.2
  | resetNode place =>
    exact (reads_nodeIn place).behaves.bind_moves fun n =>
      ((movesIf_reset n).bind fun _ => moves_pure _).mono fun _ hn =>
        ⟨Or.inl hn.2.1, hn.2.2 n hn.1⟩
  | setLevel h l? =>
    exact (moves_nodeAt_bind h fun n => (movesIf_setLevel n l?).bind fun _ => moves_pure _).if
  | level h | effective h | isEnabled h | filter h =>
    exact ((reads_nodeAt h).bind fun n => (reads_node n).bind fun _ => reads_pure _).moves.if
  | setFilter h spec? =>
    refine (moves_nodeAt_bind h fun n => ?_).if
    cases spec? with
    | none => exact (movesIf_setFilter n none nofun).bind fun _ => moves_pure _
    | some spec =>
      have hspec : L.Admits spec.actions := ha.mono (List.subset_append_left _ _)
      refine movesIf_buildFilter_bind hspec fun f hf => ?_
      exact (movesIf_setFilter n f fun g hg => Option.some.inj hg ▸ hf).bind fun _ => moves_pure _
  | setUseParentFilters h value =>
    exact (moves_nodeAt_bind h fun n => (movesIf_adjust n (Node.adjusts_parentFilters value)
      fun _ => rfl).bind fun _ => (reads_node n).moves.bind fun _ => moves_pure _).if
  | setUseParentSinks h value =>
    exact (moves_nodeAt_bind h fun n => (movesIf_adjust n (Node.adjusts_parentSinks value)
      fun _ => rfl).bind fun _ => (reads_node n).moves.bind fun _ => moves_pure _).if
  | reset h =>
    exact (reads_nodeAt h).behaves.bind_moves fun n =>
      ((movesIf_reset n).bind fun _ => moves_pure _).mono fun _ hn =>
        ⟨(nodeAt_of_run hn.1).open, hn.2 n hn.1⟩
  | newSink id sink =>
    have hactions : L.Admits sink.actions := ha.mono (List.subset_append_left _ _)
    have hflush : L.Admits sink.flushActions := ha.mono (List.subset_append_right _ _)
    refine (moves_get.bind fun s => moves_bindActions_bind hactions fun actions h =>
      moves_get.bind fun s => moves_bindActions_bind hflush fun flushActions h' =>
        moves_get.bind fun s => ?_).if
    have hpush := moves_pushSink (L := L)
      (b :=
        { name := sink.name
          silent := sink.silent
          bare := sink.bare
          publishFault? := sink.publishFault?
          flushFault? := sink.flushFault?
          actions
          flushActions })
      (f := fun c => { c with sinks := c.sinks.insert id s.sinks.next })
      (List.forall_mem_append.2 ⟨h, h'⟩) (fun _ => rfl) (fun _ => rfl) (fun _ => rfl) fun _ => rfl
    exact hpush.bind fun _ => moves_pure _
  | addSink h k =>
    refine (moves_nodeAt_bind h fun n => (reads_need _ k).bind_if fun k => ?_).if
    refine (movesIf_changeSinks n _).bind fun _ => (reads_node n).moves.bind fun _ => ?_
    exact (reads_sinkNames _).moves.bind fun _ => moves_pure _
  | removeSink h k =>
    refine (moves_nodeAt_bind h fun n => (reads_need _ k).bind_if fun k => ?_).if
    refine (movesIf_changeSinks n _).bind fun _ => (reads_node n).moves.bind fun _ => ?_
    exact (reads_sinkNames _).moves.bind fun _ => moves_pure _
  | setSinks h ids save? =>
    refine (behaves_nodeAt h).bind_moves fun n => MovesIf.mono ?_ fun _ hn => hn.1
    refine (reads_mapM (reads_need _) ids).bind_if fun ks => (reads_node n).bind_if fun _ => ?_
    exact movesIf_saveArray_bind save? _ h fun _ => movesIf_changeSinks n _
  | clearSinks h save? =>
    refine (behaves_nodeAt h).bind_moves fun n => MovesIf.mono ?_ fun _ hn => hn.1
    refine (reads_node n).bind_if fun _ => ?_
    exact movesIf_saveArray_bind save? _ h fun _ => movesIf_changeSinks n _
  | sinks h save? =>
    refine (behaves_nodeAt h).bind_moves fun n => MovesIf.mono ?_ fun _ hn => hn.1
    refine (reads_node n).bind_if fun a => ?_
    exact fun s hs hn => (behaves_saveArray save? a.sinks h s hs hn).1
  | compareAndSetSinks h expected ids =>
    refine (moves_nodeAt_bind h fun n => (reads_need _ expected).bind_if fun expected => ?_).if
    refine (reads_mapM (reads_need _) ids).bind_if fun ks => ?_
    refine (movesIf_changeSinks n _).bind fun _ => (reads_node n).moves.bind fun _ => ?_
    exact (reads_sinkNames _).moves.bind fun _ => moves_pure _
  | dropSink id =>
    refine (moves_get.bind fun _ => (moves_modifyClient ?_ ?_ ?_ ?_).bind fun _ =>
      moves_pure _).if <;> exact fun _ => rfl
  | dropNames id =>
    refine (moves_get.bind fun _ => (moves_dropClient fun s => ?_).bind fun _ => moves_pure _).if
    exact { Holds.refl s with walks := fun h hm => Or.inl ⟨_, _, get?_of_erase h, hm⟩ }
  | newKey id name =>
    refine ((moves_modifyClient ?_ ?_ ?_ ?_).bind fun _ => moves_pure _).if <;> exact fun _ => rfl
  | describeKey id => exact ((reads_need _ id).bind fun _ => reads_pure _).moves.if
  | attach h key v =>
    exact ((reads_need _ key).moves.bind fun key => moves_nodeAt_bind h fun n =>
      movesIf_changeAttachments n fun _ owner _ ha => ha.of_use owner (.attach key v) rfl).if
  | attachIfAbsent h key v =>
    exact ((reads_need _ key).moves.bind fun key => moves_nodeAt_bind h fun n =>
      movesIf_changeAttachments n fun _ owner _ ha =>
        ha.of_use owner (.attachIfAbsent key v) rfl).if
  | detach h key =>
    exact ((reads_need _ key).moves.bind fun key => moves_nodeAt_bind h fun n =>
      movesIf_changeAttachments n fun _ owner _ ha => ha.of_use owner (.detach key) rfl).if
  | attachment h key =>
    exact ((reads_need _ key).bind fun _ => (reads_nodeAt h).bind fun n =>
      (reads_node n).bind fun _ => reads_pure _).moves.if
  | log h l message =>
    exact ((reads_need _ h).moves.bind fun h =>
      (moves_log hcalls h l message).bind fun _ => moves_pure _).if
  | logLazily h l message =>
    exact ((reads_need _ h).moves.bind fun h =>
      (moves_logLazily hcalls h l _).bind fun _ => moves_pure _).if
  | logRecord h r =>
    exact ((reads_need _ h).moves.bind fun h =>
      (moves_logRecord hcalls h r).bind fun _ => moves_pure _).if
  | publish h r =>
    exact ((reads_nodeAt h).moves.bind fun n =>
      (moves_publish hcalls n r).bind fun _ => moves_pure _).if
  | isLoggable h r =>
    exact ((reads_nodeAt h).moves.bind fun n =>
      (moves_isLoggable hcalls n r).bind fun _ => moves_pure _).if
  | flush h =>
    exact ((reads_nodeAt h).moves.bind fun n =>
      (moves_flush hcalls n).bind fun _ => moves_pure _).if
  | registerLevel l =>
    refine (moves_get.bind fun _ => (moves_modifyNamespace ?_ ?_ ?_).bind fun _ =>
      moves_levelNames).if
    · exact fun ns h => h.register l
    · exact fun ns r hr => hr
    · exact fun ns => ⟨rfl, fun _ => Or.inl⟩
  | holdLevel id l =>
    refine (moves_theNamespace.bind fun _ => moves_get.bind fun _ => moves_get.bind fun s =>
      (moves_modifyNamespace ?_ ?_ ?_).bind fun _ => (moves_modifyClient ?_ ?_ ?_ ?_).bind fun _ =>
        moves_levelNames).if
    · exact fun ns h => h.registerWeak _ l
    · exact fun ns r hr => hr
    · exact fun ns => ⟨rfl, fun _ => Or.inl⟩
    all_goals exact fun _ => rfl
  | releaseLevel id =>
    refine ((moves_modifyClient ?_ ?_ ?_ ?_).bind fun _ => moves_levelNames).if <;>
      exact fun _ => rfl
  | unregisterLevel name =>
    refine (moves_theNamespace_bind fun ns h => ((moves_modifyNamespace ?_ ?_ ?_).bind fun _ =>
      moves_pure _).if).if
    · exact fun _ _ => h.unregister name
    · exact fun ns r hr => hr
    · exact fun ns => ⟨rfl, fun _ => Or.inl⟩
  | levelForName name =>
    exact (reads_theNamespace.bind fun _ => reads_get.bind fun _ =>
      (reads_ofExcept _).bind fun _ => reads_pure _).moves.if
  | levelNames => exact moves_levelNames.if
  | registerFilter name spec =>
    refine movesIf_buildFilter_bind ha fun f hf =>
      (moves_changeFilters_settle (f := fun d => d.insert name f) (fun d k g hg => ?_)
        (moves_pure _)).if
    rw [Dict.get?_insert] at hg
    split_ifs at hg
    · exact Or.inr (Option.some.inj hg ▸ hf)
    · exact Or.inl hg
  | unregisterFilter name =>
    exact (moves_theNamespace.bind fun _ => moves_changeFilters_settle (f := fun d => d.erase name)
      (fun _ _ _ hg => Or.inl (get?_of_erase hg)) (moves_pure _)).if
  | namedFilter name | isClosed => exact (reads_theNamespace.bind fun _ => reads_pure _).moves.if
  | keepFilter id spec =>
    refine movesIf_buildFilter_bind ha fun f hf =>
      (movesIf_modifyClient fun s _ _ => ?_).bind fun _ => moves_pure _
    refine { Holds.refl s with filters := fun {k g} hg => ?_ }
    have hg' : (s.client.filters.insert id f).get? k = some g := hg
    rw [Dict.get?_insert] at hg'
    split_ifs at hg'
    · exact Or.inr (Option.some.inj hg' ▸ hf)
    · exact Or.inl hg'
  | evaluateFilter id r =>
    refine (reads_need Client.filters id).behaves.bind_moves fun f s hs hf => ?_
    have hadmits := hs.heeds.filter (.kept (get?_of_need hf.1))
    exact (moves_evaluate_of_admits hcalls hadmits r).bind (fun _ => moves_pure _) s hs
  | liveNames =>
    exact (moves_theNamespace.bind fun _ => moves_reclaim.bind fun _ =>
      moves_get.bind fun _ => moves_pure _).if
  | startNames id =>
    intro s hs hL
    refine moves_theNamespace_bind (fun _ _ => behaves_reclaim.bind_moves fun _ => ?_) s hs
    exact (movesIf_startNames hL id).bind fun _ => moves_pure _
  | nextName id => exact movesIf_nextName id calls
  | reclaim =>
    exact (moves_theNamespace.bind fun _ => moves_reclaim.bind fun _ => moves_pure _).if
  | metrics => exact (reads_get.bind fun _ => reads_pure _).moves.if
  | resetMetrics =>
    intro s _ hL
    exact .of_eq (Or.inl hL) rfl rfl rfl rfl rfl rfl rfl
  | addHook actions =>
    exact (moves_get.bind fun _ => moves_bindActions_bind ha fun _ h =>
      (moves_addHook h).bind fun _ => moves_pure _).if
  | close =>
    intro s hs hr
    exact (moves_close hcalls hr).bind (fun _ => moves_get.bind fun _ => moves_pure _) s hs
  | settings | describeNamespace =>
    exact (reads_theNamespace.bind fun _ => reads_get.bind fun _ => reads_pure _).moves.if
  | dropNamespace =>
    intro s hs hL
    refine moves_get.bind (fun s => Moves.ite ?_ (moves_pure _)) s hs
    exact (moves_dropNamespace hL).bind fun _ => moves_pure _

/-! ### Steps from a new session -/

namespace Session

variable {s : Session}

lemma sound_new (strong : Bool) (baseline : Level) (levels : List Level)
    (filters : List (String × NodeFilter)) : (new strong baseline levels filters).Sound where
  tree := Tree.levelsSound_new _ _
  made := Nat.zero_lt_one
  handle h := by cases h
  kept h := by cases h
  named ns h := by
    cases h
    exact LevelRegistry.named_standard.foldl_register _

/-- The namespace refers to the root, which is all there is. -/
lemma settled_new (strong : Bool) (baseline : Level) (levels : List Level)
    (filters : List (String × NodeFilter)) : (new strong baseline levels filters).Settled := by
  intro r hr
  cases r with
  | handle | sink => cases hr
  | node n =>
    have hn : n < 1 := Tree.lt_next_of_contains hr
    obtain rfl := Nat.lt_one_iff.1 hn
    refine mem_refs_of_scope rfl ?_
    exact List.mem_append_left _ List.mem_cons_self

lemma grounded_new (strong : Bool) (baseline : Level) (levels : List Level)
    (filters : List (String × NodeFilter)) : (new strong baseline levels filters).Grounded where
  outer {n} hn := by
    have h : n = Tree.root := by
      simpa [outerRefs, new, node_mem_refsOfClient_iff, node_mem_refsOfNamespace_iff] using hn
    rw [h]
    rfl
  bound h := by cases h
  parent {m n} h := by cases (Tree.parent?_new _ _ _).symm.trans h
  held h := by cases h

/-- The first callbacks are the predicates of the filters that the namespace begins with. -/
lemma ready_new (strong : Bool) (baseline : Level) (levels : List Level)
    {filters : List (String × NodeFilter)} (hf : ∀ f ∈ filters, L.Admits f.2.actions) :
    (new strong baseline levels filters).Ready L where
  toSound := sound_new strong baseline levels filters
  heeds :=
    { node := Tree.each_new (Node.ofContents_filter _) _ strong
      filter := fun h => by
        cases h with
        | registered hns h =>
          cases hns
          exact hf _ (Dict.mem_of_get?_ofList h)
        | kept h => cases h
      sink := fun h => by cases h
      hook := fun hns hh => by
        cases hns
        cases hh }

variable [Pattern.Engine]

/-- Each step is within a licence when it is taken. -/
def Permits (L : Licence) (calls : Calls) : Session → List Step → Prop
  | _, [] => True
  | s, step :: more =>
    step.Permitted L { s with journal := [] } ∧ Permits L calls (s.step calls step).2 more

/-- Steps are permitted if everything is, but for metrics that start anew. -/
lemma permits_of_mem (hn : L.nodes) (hr : ∀ s n, L.reset s n) (hd : L.drop) {steps : List Step}
    (hm : .resetMetrics ∈ steps → L.recount) (s : Session) : s.Permits L calls steps := by
  induction steps generalizing s with
  | nil => trivial
  | cons step more ih =>
    refine ⟨?_, ih (fun h => hm (List.mem_cons_of_mem step h)) _⟩
    cases step with
    | resetNode => exact ⟨hn, fun _ _ => hr _ _⟩
    | reset => exact fun _ _ => hr _ _
    | close => exact fun _ => hr _ _
    | resetMetrics => exact hm List.mem_cons_self
    | dropNamespace => exact hd
    | keepNode | createNode | findNode | setNodeLevel | startNames | nextName => exact hn
    | _ => trivial

lemma permits_all (s : Session) (steps : List Step) : s.Permits .all calls steps :=
  permits_of_mem trivial (fun _ _ => trivial) trivial (fun _ => trivial) s

lemma conduct_step (hcalls : CallsMove L calls) (hs : s.Ready L) {step : Step}
    (ha : L.Admits step.actions) (hp : step.Permitted L { s with journal := [] }) :
    s.Conduct L (s.step calls step).2 := by
  have hin : s.Conduct L { s with journal := [] } :=
    .of_eq (Or.inr rfl) rfl rfl rfl rfl rfl rfl rfl
  have h := hin.trans (Step.movesIf hcalls ha _ (hin.ready hs) hp)
  exact h.trans (.of_eq (Or.inr rfl) rfl rfl rfl rfl rfl rfl rfl)

/-- Steps that are permitted leave a session as they may. -/
theorem conduct_steps (hcalls : CallsMove L calls) (hs : s.Ready L) {steps : List Step}
    (ha : ∀ step ∈ steps, L.Admits step.actions) (hp : s.Permits L calls steps) :
    s.Conduct L (s.steps calls steps).2 := by
  induction steps generalizing s with
  | nil => exact .refl s
  | cons step more ih =>
    rw [List.forall_mem_cons] at ha
    have h := conduct_step hcalls hs ha.1 hp.1
    exact h.trans (ih (h.ready hs) ha.2 hp.2)

/-- Whatever steps a client takes, it may, if everything is allowed. -/
lemma conduct_all (depth : Nat) (hs : s.Sound) (steps : List Step) :
    s.Conduct .all (s.steps (Calls.within depth) steps).2 :=
  conduct_steps (callsMove_within depth) (hs.ready trivial)
    (fun _ _ => Licence.all.admits_of_callbacks trivial _) (permits_all s steps)

lemma conduct_step_all (depth : Nat) (hs : s.Sound) (step : Step) :
    s.Conduct .all (s.step (Calls.within depth) step).2 :=
  conduct_all depth hs [step]

lemma leads_steps (depth : Nat) (hs : s.Sound) (steps : List Step) :
    s.Leads (s.steps (Calls.within depth) steps).2 :=
  (conduct_all depth hs steps).leads hs

/-- Steps that are permitted take a course within the licence, however deep callbacks are nested, if
none of the callbacks that were handed over until then does more than the licence lets it. -/
theorem course_steps (hr : L.callbacks → ∀ s n, L.reset s n) (depth : Nat) (strong : Bool)
    (baseline : Level) (levels : List Level) {filters : List (String × NodeFilter)}
    {before after : List Step} (hf : ∀ f ∈ filters, L.Admits f.2.actions)
    (ha : ∀ step ∈ before ++ after, L.Admits step.actions) :
    let s := ((new strong baseline levels filters).steps (Calls.within depth) before).2
    s.Permits L (Calls.within depth) after →
      s.Course L (s.steps (Calls.within depth) after).2 := by
  intro s hp
  rw [List.forall_mem_append] at ha
  -- until then everything else is allowed
  let M : Licence := { Licence.all with callbacks := L.callbacks }
  have hnew : (new strong baseline levels filters).Ready M := ready_new strong baseline levels hf
  have hbefore := conduct_steps (callsMove (fun _ _ _ => trivial) depth) hnew ha.1
    (permits_of_mem trivial (fun _ _ => trivial) trivial (fun _ => trivial) _)
  have hs := hbefore.ready hnew
  exact (conduct_steps (callsMove hr depth) ⟨hs.toSound, hs.heeds.of_callbacks id⟩ ha.2 hp).course

/-- Callbacks that neither reset a node nor close the namespace are within any licence, so that only
the steps of the client have to be permitted. -/
theorem course_steps_of_isMild (hL : ¬ L.callbacks) (depth : Nat) (strong : Bool)
    (baseline : Level) (levels : List Level) (filters : List (String × NodeFilter))
    (before after : List Step) (hf : ∀ f ∈ filters, ∀ a ∈ f.2.actions, a.isMild)
    (ha : ∀ step ∈ before ++ after, ∀ a ∈ step.actions, a.isMild) :
    let s := ((new strong baseline levels filters).steps (Calls.within depth) before).2
    s.Permits L (Calls.within depth) after →
      s.Course L (s.steps (Calls.within depth) after).2 :=
  course_steps (fun h => absurd h hL) depth strong baseline levels
    (fun f hm a hfa => Or.inl (hf f hm a hfa)) fun step hm a hsa => Or.inl (ha step hm a hsa)

/-- After any steps, references lead somewhere, and all that exists is referred to. -/
theorem orderly_steps (depth : Nat) (strong : Bool) (baseline : Level) (levels : List Level)
    (filters : List (String × NodeFilter)) (steps : List Step) :
    ((new strong baseline levels filters).steps (Calls.within depth) steps).2.Grounded ∧
      ((new strong baseline levels filters).steps (Calls.within depth) steps).2.Settled := by
  have hs := sound_new strong baseline levels filters
  have hg := grounded_new strong baseline levels filters
  have h := conduct_all depth hs steps
  exact ⟨h.grounded hg, h.settled hg (settled_new strong baseline levels filters)⟩

/-- Whatever a client did, the session is sound. -/
theorem sound_steps (depth : Nat) (strong : Bool) (baseline : Level) (levels : List Level)
    (filters : List (String × NodeFilter)) (steps : List Step) :
    ((new strong baseline levels filters).steps (Calls.within depth) steps).2.Sound := by
  have hs := sound_new strong baseline levels filters
  exact (leads_steps depth hs steps).sound hs

end Session

end Logging
