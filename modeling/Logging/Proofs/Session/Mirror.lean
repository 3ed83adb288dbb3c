import Mathlib.Tactic.Common
import Logging.Proofs.Session.Echoes
import Logging.Proofs.Session.Steps

/-!
# Calls in two sessions

What a client does with handles comes out the same in two sessions that show the same, of which one
prunes nodes and the other does not. Between steps both sessions are settled (`Run.Rest`); within a
call it is enough that all handles are kept (`Run.Busy`).
-/

namespace Logging

open Session

/-! ### Changes beside the trees -/

namespace Session

variable {P : Pairing} {s u : Session} {n m : NodeId}

lemma Paired.withClient (h : Paired P s u) {c d : Client} (hcd : c.Alike d)
    (hn : c.nodes = s.client.nodes)
    (hk : ∀ id k, c.sinks.get? id = some k → s.sinks.get? k = u.sinks.get? k)
    (hq : ∀ id f, c.filters.get? id = some f → f.Quiet) :
    Paired P { s with client := c } { u with client := d } where
  toAlike :=
    { h.toAlike with
      client := hcd
      sinks := by
        rintro k (hk' | ⟨id, hk'⟩ | hk')
        · exact h.sinks k (Or.inl hk')
        · exact hk id k hk'
        · exact h.sinks k (Or.inr (Or.inr hk'))
      notices := h.toAlike.ends rfl (Nat.le_refl _) }
  left :=
    { h.left with
      held := hq
      sound := by
        have hl : s.Leads { s with client := c } := leads_beside rfl rfl hn fun hl => hl
        exact hl.sound h.left.sound }
  right :=
    { h.right with
      held := fun id f hf => hq id f (hcd.filters ▸ hf)
      sound := by
        have hn' : d.nodes = u.client.nodes := by
          rw [← hcd.nodes, hn, h.client.nodes]
        have hl : u.Leads { u with client := d } := leads_beside rfl rfl hn' fun hl => hl
        exact hl.sound h.right.sound }
  strong := h.strong

lemma Paired.withScope (h : Paired P s u) {f : Namespace → Namespace}
    (hl : ∀ ns, ns.levels.Named → (f ns).levels.Named)
    (hq : ∀ ns, s.scope? = some ns → ∀ id x, (f ns).filters.get? id = some x → x.Quiet)
    (hh : ∀ ns, s.scope? = some ns → ∀ k ∈ (f ns).hooks, k.actions.all Action.isQuiet) :
    Paired P { s with scope? := s.scope?.map f } { u with scope? := u.scope?.map f } := by
  have htame : ∀ {x : Session}, x.Tame → x.scope? = s.scope? →
      ({ x with scope? := x.scope?.map f } : Session).Tame := by
    intro x hx hxs
    have hleads : x.Leads { x with scope? := x.scope?.map f } := by
      refine leads_beside rfl rfl rfl fun hx ns' hns' => ?_
      obtain ⟨ns, hns, rfl⟩ := Option.map_eq_some_iff.1 hns'
      exact hl ns (hx ns hns)
    exact
      { hx with
        named := fun ns' id y hns' hy => by
          obtain ⟨ns, hns, rfl⟩ := Option.map_eq_some_iff.1 hns'
          exact hq ns (hxs ▸ hns) id y hy
        sound := hleads.sound hx.sound
        present := by
          show (x.scope?.map f).isSome
          rw [Option.isSome_map]
          exact hx.present
        hook := fun ns' hns' => by
          obtain ⟨ns, hns, rfl⟩ := Option.map_eq_some_iff.1 hns'
          exact hh ns (hxs ▸ hns) }
  exact
    { h.toAlike with
      scope := congrArg (Option.map f) h.scope
      notices := h.toAlike.ends rfl (Nat.le_refl _)
      left := htame h.left rfl
      right := htame h.right h.scope.symm
      strong := h.strong }

lemma Paired.pushSink (h : Paired P s u) {b : BoundSink} (hb : b.allActions.all Action.isQuiet) :
    Paired P { s with sinks := s.sinks.push b } { u with sinks := u.sinks.push b } := by
  have htame : ∀ {x : Session}, x.Tame → ({ x with sinks := x.sinks.push b } : Session).Tame := by
    intro x hx
    have hl : x.Leads { x with sinks := x.sinks.push b } := leads_beside rfl rfl rfl fun hl => hl
    refine { hx with
      sound := hl.sound hx.sound
      sink := fun k y hy => ?_ }
    have hy' : (x.sinks.push b).get? k = some y := hy
    rw [Store.get?_push] at hy'
    split_ifs at hy'
    · exact Option.some.inj hy' ▸ hb
    · exact hx.sink k y hy'
  refine
    { h.toAlike with
      nextSink := ?_
      sinks := fun k hk => ?_
      notices := h.toAlike.ends rfl (Nat.le_refl _)
      left := htame h.left
      right := htame h.right
      strong := h.strong }
  · show (s.sinks.push b).next = (u.sinks.push b).next
    simp [Store.next_push, h.nextSink]
  · show (s.sinks.push b).get? k = (u.sinks.push b).get? k
    rw [Store.get?_push, Store.get?_push, h.nextSink, h.sinks k hk]

/-- A new handle for paired nodes. -/
lemma Paired.pushHandle (h : Paired P s u) (hn : P.pair n m) :
    Paired P { s with handles := s.handles.push n } { u with handles := u.handles.push m } := by
  have htame : ∀ {x : Session} {n}, x.Tame → n < x.tree.nodes.next →
      ({ x with handles := x.handles.push n } : Session).Tame := fun hx hn =>
    { hx with sound := (leads_newHandle hn).sound hx.sound }
  refine
    { h.toAlike with
      handles := fun i => ?_
      nextHandle := ?_
      notices := h.toAlike.ends rfl ?_
      left := htame h.left (Tree.lt_next_of_contains (h.tree.left hn))
      right := htame h.right (Tree.lt_next_of_contains (h.tree.right hn))
      strong := h.strong }
  · show Option.Rel P.pair ((s.handles.push n).get? i) ((u.handles.push m).get? i)
    rw [Store.get?_push, Store.get?_push, h.nextHandle]
    split_ifs
    · exact .some hn
    · exact h.handles i
  · show (s.handles.push n).next = (u.handles.push m).next
    simp [Store.next_push, h.nextHandle]
  · show s.handles.next ≤ (s.handles.push n).next
    rw [Store.next_push]
    exact Nat.le_succ _

lemma Paired.withInUse (h : Paired P s u) {l l' : List Ref} (hl : l = l')
    (hk : ∀ k, .sink k ∈ l → s.sinks.get? k = u.sinks.get? k) :
    Paired P { s with inUse := l } { u with inUse := l' } where
  toAlike :=
    { h.toAlike with
      inUse := hl
      sinks := by
        rintro k (hk' | hk' | hk')
        · exact hk k hk'
        · exact h.sinks k (Or.inr (Or.inl hk'))
        · exact h.sinks k (Or.inr (Or.inr hk'))
      notices := h.toAlike.ends rfl (Nat.le_refl _) }
  left := h.left.of_eq rfl rfl rfl rfl rfl
  right := h.right.of_eq rfl rfl rfl rfl rfl
  strong := h.strong

/-- Sessions that were told and have counted the same since. -/
lemma Paired.withAccount (h : Paired P s u) (j : List Event) {x y : Metrics}
    (hxy : x.withoutPruned = y.withoutPruned) :
    Paired P { s with journal := j, metrics := x } { u with journal := j, metrics := y } where
  toAlike :=
    { h.toAlike with
      metrics := hxy
      journal := rfl
      notices := h.toAlike.ends rfl (Nat.le_refl _) }
  left := h.left.of_eq rfl rfl rfl rfl rfl
  right := h.right.of_eq rfl rfl rfl rfl rfl
  strong := h.strong

end Session

namespace Run

variable {α β γ : Type} {P : Pairing} {s u : Session} {n m : NodeId} {l : List Ref}
  {E F : Session → Session → Prop} {Q : β → γ → Session → Session → Prop}

/-! ### Both sessions at once -/

/-- The sessions show the same, and all handles are kept. The things in use are given. -/
def Busy (l : List Ref) (s u : Session) : Prop := ∃ P, Paired P s u ∧ s.inUse = l ∧ u.Tended

/-- The sessions show the same, and everything that there is has an owner. -/
def Rest (l : List Ref) (s u : Session) : Prop :=
  ∃ P, Paired P s u ∧ s.inUse = l ∧ s.Settled ∧ u.Settled

/-- The same with two nodes that belong together. -/
def RestAt (l : List Ref) (n m : NodeId) (s u : Session) : Prop :=
  ∃ P, Paired P s u ∧ s.inUse = l ∧ s.Settled ∧ u.Settled ∧ P.pair n m

lemma Rest.busy (h : Rest l s u) : Busy l s u := by
  obtain ⟨P, h, hl, -, hu⟩ := h
  exact ⟨P, h, hl, hu.tended⟩

lemma rest_settle (h : Paired P s u) (hl : s.inUse = l) : Rest l s.settle u.settle := by
  obtain ⟨P', h'⟩ := h.settle
  have hin : s.settle.inUse = s.inUse := (ends_settle s).keeps.inUse
  exact ⟨P', h', hin.trans hl, settled_settle s, settled_settle u⟩

lemma nodeOf_settle {id : String} {i : HandleId} (hi : s.client.handles.get? id = some i) :
    s.settle.nodeOf i = s.nodeOf i := by
  simp [Session.nodeOf, (ends_settle s).keeps.held (handle_mem_outerRefs hi)]

/-- A handle that the client has is for the same node after settling. -/
lemma restAt_settle (h : Paired P s u) (hl : s.inUse = l) {id : String} {i : HandleId}
    (hi : s.client.handles.get? id = some i) :
    RestAt l (s.nodeOf i) (u.nodeOf i) s.settle u.settle := by
  obtain ⟨P', h', hin, hs, hu⟩ := rest_settle h hl
  have hi' : u.client.handles.get? id = some i := h.client.handles ▸ hi
  refine ⟨P', h', hin, hs, hu, ?_⟩
  rw [← nodeOf_settle hi, ← nodeOf_settle hi']
  exact h'.pair_nodeOf i

lemma busy_reclaim (h : Busy l s u) :
    s.reclaim.1 = u.reclaim.1 ∧ Busy l s.reclaim.2 u.reclaim.2 := by
  obtain ⟨P, h, hl, hu⟩ := h
  obtain ⟨hcount, htended, P', h'⟩ := h.reclaim hu
  have hin : u.reclaim.2.inUse = u.inUse := (keeps_reclaim u).inUse
  refine ⟨hcount, P', h', ?_, htended⟩
  rw [h'.inUse, hin, ← h.inUse, hl]

lemma rest_reclaim (h : Rest l s u) :
    s.reclaim.1 = u.reclaim.1 ∧ Rest l s.reclaim.2 u.reclaim.2 := by
  obtain ⟨hcount, P', h', hl, -⟩ := busy_reclaim h.busy
  obtain ⟨P, -, -, hs, hu⟩ := h
  exact ⟨hcount, P', h', hl, hs.reclaim, hu.reclaim⟩

lemma agree_reclaim (h : Busy l s u) :
    Agree (Busy l) (Same (Busy l)) (reclaim.run s) (reclaim.run u) := .ok (busy_reclaim h)

lemma agree_reclaim_rest (h : Rest l s u) :
    Agree (Rest l) (Same (Rest l)) (reclaim.run s) (reclaim.run u) := .ok (rest_reclaim h)

/-! ### What the client holds -/

lemma agree_need_bind {d : Client → Dict String α} {f : α → Run β} {g : α → Run γ} (id : String)
    (hd : d s.client = d u.client) (hE : E s u)
    (hf : ∀ a, (d s.client).get? id = some a → Agree E Q ((f a).run s) ((g a).run u)) :
    Agree E Q ((need d id >>= f).run s) ((need d id >>= g).run u) := by
  rw [run_bind, run_bind, run_need, run_need, ← hd]
  cases ha : (d s.client).get? id with
  | none => exact .error hE
  | some a => exact hf a ha

/-- The nodes of a handle that the client holds are paired. -/
lemma agree_nodeAt_bind {f : NodeId → Run β} {g : NodeId → Run γ} (h : Paired P s u) (hE : E s u)
    (id : String)
    (hf : ∀ i, s.client.handles.get? id = some i →
      Agree E Q ((f (s.nodeOf i)).run s) ((g (u.nodeOf i)).run u)) :
    Agree E Q ((nodeAt id >>= f).run s) ((nodeAt id >>= g).run u) := by
  rw [nodeAt, bind_assoc, bind_assoc]
  exact agree_need_bind id h.client.handles hE hf

lemma agree_needAll_bind {f : List SinkId → Run β} {g : List SinkId → Run γ} (h : Paired P s u)
    (hE : E s u) (ids : List String)
    (hf : ∀ ks, (∀ k ∈ ks, ∃ id, s.client.sinks.get? id = some k) →
      Agree E Q ((f ks).run s) ((g ks).run u)) :
    Agree E Q ((ids.mapM (need Client.sinks) >>= f).run s)
      ((ids.mapM (need Client.sinks) >>= g).run u) := by
  induction ids generalizing f g with
  | nil =>
    rw [List.mapM_nil, pure_bind, pure_bind]
    exact hf [] fun k hk => nomatch hk
  | cons id ids ih =>
    rw [List.mapM_cons, bind_assoc, bind_assoc]
    apply agree_need_bind id h.client.sinks hE
    intro k hk
    rw [bind_assoc, bind_assoc]
    apply ih
    intro ks hks
    rw [pure_bind, pure_bind]
    exact hf (k :: ks) (List.forall_mem_cons.2 ⟨⟨id, hk⟩, hks⟩)

/-- In tame sessions the namespace is there. -/
lemma agree_theNamespace_bind {f : Namespace → Run β} {g : Namespace → Run γ} (h : Paired P s u)
    (hf : ∀ ns, s.scope? = some ns → Agree E Q ((f ns).run s) ((g ns).run u)) :
    Agree E Q ((theNamespace >>= f).run s) ((theNamespace >>= g).run u) := by
  obtain ⟨ns, hns⟩ := Option.isSome_iff_exists.1 h.left.present
  rw [run_bind, run_bind, run_theNamespace, run_theNamespace, ← h.scope, hns]
  exact hf ns hns

lemma agree_ofBuild_bind {f : α → Run β} {g : α → Run γ} (r : Except BuildError α) (hE : E s u)
    (hf : ∀ a, r = .ok a → Agree E Q ((f a).run s) ((g a).run u)) :
    Agree E Q ((ofBuild r >>= f).run s) ((ofBuild r >>= g).run u) := by
  rcases r with (e | id) | a
  · exact .error hE
  · exact .error hE
  · exact hf a rfl

lemma agree_ofExcept_bind {f : α → Run β} {g : α → Run γ} (r : Except Fault α) (hE : E s u)
    (hf : ∀ a, Agree E Q ((f a).run s) ((g a).run u)) :
    Agree E Q ((ofExcept r >>= f).run s) ((ofExcept r >>= g).run u) := by
  cases r with
  | error e => exact .error hE
  | ok a => exact hf a

/-- What the client holds changes, but for nodes, sinks and filters. -/
lemma rest_modifyClient (h : Paired P s u) (hl : s.inUse = l) {c d : Client} (hcd : c.Alike d)
    (hn : c.nodes = s.client.nodes) (hk : c.sinks = s.client.sinks)
    (hf : c.filters = s.client.filters) :
    Rest l ({ s with client := c } : Session).settle ({ u with client := d } : Session).settle := by
  have hc : Paired P { s with client := c } { u with client := d } := by
    refine h.withClient hcd hn (fun id k hid => ?_) fun id f hid => ?_
    · rw [hk] at hid
      exact h.sinks k (Or.inr (Or.inl ⟨id, hid⟩))
    · rw [hf] at hid
      exact h.left.held id f hid
  exact rest_settle hc hl

/-- To keep a handle is an answer to the same question in both sessions. -/
theorem agree_keepHandle (h : Paired P s u) (hl : s.inUse = l) (hF : F s u)
    (hrest : ∀ {s u}, Rest l s u → F s u) (as? : Option String) (i : HandleId) :
    Agree F (Same F) ((keepHandle as? i).run s) ((keepHandle as? i).run u) := by
  have hname : (s.node (s.nodeOf i)).fullName = (u.node (u.nodeOf i)).fullName :=
    (h.tree.alike (h.pair_nodeOf i)).fullName
  have htext := congrArg Answer.text hname
  cases as? with
  | none => exact .ok ⟨htext, hF⟩
  | some id =>
    have hcd : ({ s.client with handles := s.client.handles.insert id i } : Client).Alike
        { u.client with handles := u.client.handles.insert id i } :=
      { h.client with handles := congrArg (Dict.insert · id i) h.client.handles }
    exact .ok ⟨htext, hrest (rest_modifyClient h hl hcd rfl rfl rfl)⟩

/-! ### Handles -/

/-- The session with a new handle for a node in use. -/
def enlist (s : Session) (n : NodeId) : Session :=
  lend (s.enlist n) [.handle s.handles.next]

lemma busy_enlist (h : Paired P s u) (hl : s.inUse = l) (hu : u.Tended) (hn : P.pair n m) :
    Busy (.handle s.handles.next :: l) (enlist s n) (enlist u m) := by
  have ha := h.tree.alike hn
  have hnode : Paired P
      (s.modifyNode n fun a => { a with liveHandles := s.handles.next :: a.liveHandles })
      (u.modifyNode m fun a => { a with liveHandles := u.handles.next :: a.liveHandles }) := by
    refine h.configure hn (Node.setting_live (List.cons s.handles.next))
      (Node.setting_live (List.cons u.handles.next)) ?_ ?_ ?_ ?_
    · rw [h.nextHandle]
      exact { ha with live := congrArg (List.cons u.handles.next) ha.live }
    · intro i hi
      rcases List.mem_cons.1 hi with rfl | hi
      · exact Or.inr (Nat.le_refl _)
      · exact Or.inl hi
    · exact fun k hk => Or.inr (Or.inr ⟨n, m, hn, hk⟩)
    · exact fun x hx => h.left.node n x hx
  have hin : Paired P (enlist s n) (enlist u m) := by
    refine (hnode.pushHandle hn).withInUse ?_ fun k hk => ?_
    · show .handle s.handles.next :: s.inUse = .handle u.handles.next :: u.inUse
      simp [h.nextHandle, h.inUse]
    · rcases List.mem_cons.1 hk with hk | hk
      · cases hk
      · exact h.sinks k (Or.inl hk)
  refine ⟨P, hin, congrArg (List.cons _) hl, fun i hi => ?_⟩
  rw [hin.right.handle_mem_refs_iff]
  have hi' : (u.handles.push m).contains i := hi
  rw [Store.contains, Store.get?_push] at hi'
  split_ifs at hi' with hnew
  · rw [hnew]
    exact Or.inl List.mem_cons_self
  · rcases h.right.handle_mem_refs_iff.1 (hu i hi') with hi | hi
    · exact Or.inl (List.mem_cons_of_mem _ hi)
    · exact Or.inr hi

/-- A new handle for paired nodes, with what is done with it. When it is let go of, both sessions
settle. -/
theorem agree_withHandle (h : Paired P s u) (hl : s.inUse = l) (hu : u.Tended) (hn : P.pair n m)
    {use : HandleId → Run α}
    (huse : ∀ i s u, Busy (.handle i :: l) s u →
      Agree (Busy (.handle i :: l)) (Same (Busy (.handle i :: l))) ((use i).run s)
        ((use i).run u)) :
    Agree (Rest l) (Same (Rest l)) ((withHandle n use).run s) ((withHandle m use).run u) := by
  let call (i : HandleId) : Run α := do
    let _ ← reclaim
    use i
  have hcall : Agree (Busy (.handle s.handles.next :: l))
      (Same (Busy (.handle s.handles.next :: l)))
      ((call s.handles.next).run (enlist s n)) ((call u.handles.next).run (enlist u m)) := by
    rw [← h.nextHandle]
    apply (agree_reclaim (busy_enlist h hl hu hn)).bind_same
    intro _ s u h
    exact huse _ s u h
  have hout : ∀ {x y}, Busy (.handle s.handles.next :: l) x y →
      Rest l (regain x s.inUse).settle (regain y u.inUse).settle := by
    rintro x y ⟨P', h', hl', -⟩
    have hreg : Paired P' (regain x s.inUse) (regain y u.inUse) := by
      refine h'.withInUse h.inUse fun k hk => h'.sinks k (Or.inl ?_)
      rw [hl', ← hl]
      exact List.mem_cons_of_mem _ hk
    exact rest_settle hreg hl
  have hs : (withHandle n use).run s = (((call s.handles.next).run (enlist s n)).1,
      (regain ((call s.handles.next).run (enlist s n)).2 s.inUse).settle) := rfl
  have hu : (withHandle m use).run u = (((call u.handles.next).run (enlist u m)).1,
      (regain ((call u.handles.next).run (enlist u m)).2 u.inUse).settle) := rfl
  rw [hs, hu]
  generalize (call s.handles.next).run (enlist s n) = p,
    (call u.handles.next).run (enlist u m) = q at hcall
  cases hcall with
  | ok h => exact .ok ⟨h.1, hout h.2⟩
  | error h => exact .error (hout h)

/-- A handle for a node, kept by the client. -/
lemma agree_newHandle (h : Paired P s u) (hl : s.inUse = l) (hu : u.Tended) (hn : P.pair n m)
    (as? : Option String) :
    Agree (Rest l) (Same (Rest l)) ((withHandle n (keepHandle as?)).run s)
      ((withHandle m (keepHandle as?)).run u) := by
  apply agree_withHandle h hl hu hn
  intro i s u hb
  obtain ⟨P', h', hl', -⟩ := id hb
  exact agree_keepHandle h' hl' hb Rest.busy as? i

theorem agree_logger (h : Rest l s u) (name : String) (as? : Option String) :
    Agree (Rest l) (Same (Rest l)) ((logger name (keepHandle as?)).run s)
      ((logger name (keepHandle as?)).run u) := by
  obtain ⟨-, P₁, h₁, hl₁, -, hu₁⟩ := rest_reclaim h
  obtain ⟨P₂, h₂, hp⟩ := h₁.getOrCreate h₁.tree.root (Path.ofString name)
  have htended : ({ u.reclaim.2 with
      tree := (u.reclaim.2.tree.getOrCreate Tree.root (Path.ofString name)).2 } : Session).Tended :=
    h₁.right.tended_of_eq h₂.right rfl rfl rfl hu₁.tended
  exact agree_newHandle h₂ hl₁ htended hp as?

/-! ### Changes of a node -/

/-- A change of the flags and attachments of paired nodes. -/
lemma paired_adjust (h : Paired P s u) (hs : s.Settled) (hu : u.Settled) (hn : P.pair n m)
    {f : Node → Node} (hf : Node.Adjusts f) (ha : (f (s.node n)).Alike (f (u.node m))) :
    Paired P (s.modifyNode n f) (u.modifyNode m f) ∧ (s.modifyNode n f).Settled ∧
      (u.modifyNode m f).Settled := by
  have hrefs : ∀ a, refsOfNode (f a) = refsOfNode a := by
    intro a
    obtain ⟨pf, ps, att, hfa⟩ := hf a
    rw [hfa]
    rfl
  obtain ⟨pf, ps, att, hfn⟩ := hf (s.node n)
  refine ⟨h.configure hn hf.setting hf.setting ha ?_ ?_ ?_, hs.configure n hrefs,
    hu.configure m hrefs⟩
  · rw [hfn]
    exact fun i hi => Or.inl hi
  · rw [hfn]
    exact fun k hk => Or.inr (Or.inr ⟨n, m, hn, hk⟩)
  · rw [hfn]
    exact fun x hx => h.left.node n x hx

lemma rest_setLevel (h : Paired P s u) (hl : s.inUse = l) (hs : s.Settled) (hu : u.Settled)
    (hn : P.pair n m) (l? : Option Level) :
    Rest l { s with tree := s.tree.setLevel n l? } { u with tree := u.tree.setLevel m l? } :=
  ⟨P, h.setLevel hn l?, hl, hs.setLevel h.left.sound n l?, hu.setLevel h.right.sound m l?⟩

lemma rest_setFilter (h : Paired P s u) (hl : s.inUse = l) (hn : P.pair n m)
    {f? : Option NodeFilter} (hf : ∀ f, f? = some f → f.Quiet) :
    Rest l (s.modifyNode n fun a => { a with filter? := f? }).settle
      (u.modifyNode m fun a => { a with filter? := f? }).settle := by
  have ha := h.tree.alike hn
  have hset : Paired P (s.modifyNode n fun a => { a with filter? := f? })
      (u.modifyNode m fun a => { a with filter? := f? }) := by
    refine h.configure hn (Node.setting_filter f?) (Node.setting_filter f?) ?_ ?_ ?_ hf
    · exact { ha with filter := rfl }
    · exact fun i hi => Or.inl hi
    · exact fun k hk => Or.inr (Or.inr ⟨n, m, hn, hk⟩)
  exact rest_settle hset hl

/-- To give the same sinks to paired nodes, all of them shown already. -/
lemma paired_setSinks (h : Paired P s u) (hn : P.pair n m) {a b : NodeSinks}
    (hab : a.sinks = b.sinks) (hk : ∀ k ∈ a.sinks, s.Shown P k) :
    Paired P (s.modifyNode n fun x => { x with sinks := a })
      (u.modifyNode m fun x => { x with sinks := b }) := by
  have ha := h.tree.alike hn
  refine h.configure hn (Node.setting_sinks a) (Node.setting_sinks b) ?_ ?_ hk ?_
  · exact { ha with sinks := hab }
  · exact fun i hi => Or.inl hi
  · exact fun x hx => h.left.node n x hx

/-! ### The namespace -/

/-- A change of the levels of the namespace. -/
lemma rest_withLevels (h : Paired P s u) (hl : s.inUse = l) (hs : s.Settled) (hu : u.Settled)
    {f : LevelRegistry → LevelRegistry} (hf : ∀ r, r.Named → (f r).Named) :
    Rest l { s with scope? := s.scope?.map fun ns => { ns with levels := f ns.levels } }
      { u with scope? := u.scope?.map fun ns => { ns with levels := f ns.levels } } :=
  ⟨P, h.withScope (fun ns => hf ns.levels) (fun ns hns id x hx => h.left.named ns id x hns hx)
    (fun ns hns => h.left.hook ns hns), hl, hs.withScope fun _ _ _ hr => hr,
    hu.withScope fun _ _ _ hr => hr⟩

/-- A change of the filters of the namespace. -/
lemma rest_withFilters (h : Paired P s u) (hl : s.inUse = l)
    {f : Dict String NodeFilter → Dict String NodeFilter}
    (hf : ∀ d, (∀ id x, d.get? id = some x → x.Quiet) → ∀ id x, (f d).get? id = some x → x.Quiet) :
    Rest l
      ({ s with scope? := s.scope?.map fun ns => { ns with filters := f ns.filters } } :
        Session).settle
      ({ u with scope? := u.scope?.map fun ns => { ns with filters := f ns.filters } } :
        Session).settle := by
  refine rest_settle (h.withScope (fun ns hns => hns) (fun ns hns => ?_) fun ns hns => ?_) hl
  · exact hf ns.filters fun id x hx => h.left.named ns id x hns hx
  · exact h.left.hook ns hns

/-- A change of the hooks of the namespace. -/
lemma rest_withHooks (h : Paired P s u) (hl : s.inUse = l) (hs : s.Settled) (hu : u.Settled)
    {f : Namespace → Namespace}
    (hf : ∀ ns, (f ns).levels = ns.levels ∧ (f ns).filters = ns.filters)
    (hq : ∀ ns, s.scope? = some ns → ∀ k ∈ (f ns).hooks, k.actions.all Action.isQuiet) :
    Rest l { s with scope? := s.scope?.map f } { u with scope? := u.scope?.map f } := by
  have hrefs : ∀ ns, s.scope? = some ns → ∀ r ∈ refsOfNamespace ns, r ∈ refsOfNamespace (f ns) := by
    intro ns hns r hr
    rw [refsOfNamespace, refsOfHooks_of_quiet (h.left.hook ns hns)] at hr
    rw [refsOfNamespace, refsOfHooks_of_quiet (hq ns hns), (hf ns).2]
    exact hr
  refine ⟨P, h.withScope (fun ns hns => ?_) (fun ns hns => ?_) hq, hl, hs.withScope hrefs,
    hu.withScope fun ns hns => hrefs ns (h.scope.trans hns)⟩
  · rw [(hf ns).1]
    exact hns
  · rw [(hf ns).2]
    exact fun id x hx => h.left.named ns id x hns hx

/-! ### Records -/

lemma rest_of_aside {s₀ u₀ : Session} (h : Rest l s₀ u₀) (ha : Aside s₀ u₀ s u) : Rest l s u := by
  obtain ⟨P, h, hl, hs, hu⟩ := h
  obtain ⟨j, x, y, rfl, rfl, hxy⟩ := ha
  exact ⟨P, h.withAccount j hxy, hl, hs.of_eq rfl rfl rfl rfl rfl rfl,
    hu.of_eq rfl rfl rfl rfl rfl rfl⟩

/-- What echoes agrees between steps. -/
lemma Echoes.agree {x y : Run α} (h : Rest l s u) (hxy : Echoes s u x y) :
    Agree (Rest l) (Same (Rest l)) (x.run s) (y.run u) := by
  obtain ⟨P, hp, -⟩ := id h
  exact (hxy s u (aside_refl hp.toAlike)).mono (rest_of_aside h) fun hab =>
    ⟨hab.1, rest_of_aside h hab.2⟩

end Run

end Logging
