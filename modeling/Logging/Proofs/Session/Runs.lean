import Mathlib.Tactic.Common
import Logging.Proofs.Session.Conduct
import Logging.Session.Delivery

/-!
# Calls take courses

Whatever a call does, it leaves the session as it may, also when it stops before it has an answer
(`Run.Moves`). Some calls do so only from sessions in which something holds, such as that a node is
known, and what they answer has a property for the calls that follow (`Run.Behaves`). What
predicates, sinks and hooks do is a parameter of the calls that run them; those move if these do, as
far as their licence goes.
-/

namespace Logging

open Session

namespace Run

variable {α β : Type} {L : Licence} {n : NodeId} {P P' : Session → Prop} {Q : α → Session → Prop}
  {R : β → Session → Prop}

/-! ### Runs of compound calls -/

theorem run_bind (x : Run α) (f : α → Run β) (s : Session) :
    (x >>= f).run s =
      match x.run s with
      | (.ok a, s') => (f a).run s'
      | (.error e, s') => (.error e, s') := by
  show ExceptT.bindCont f (x.run s).1 (x.run s).2 = _
  rcases x.run s with ⟨_ | a, s'⟩ <;> rfl

/-- From any session that is ready and in which `P` holds, the call leaves the session as it may,
and of what it answers `Q` holds in the session that it leaves. -/
def Behaves (L : Licence) (P : Session → Prop) (x : Run α) (Q : α → Session → Prop) : Prop :=
  ∀ s : Session, s.Ready L → P s →
    s.Conduct L (x.run s).2 ∧ ∀ a, (x.run s).1 = .ok a → Q a (x.run s).2

/-- The call leaves any session that is ready as it may. -/
def Moves (L : Licence) (x : Run α) : Prop := ∀ s : Session, s.Ready L → s.Conduct L (x.run s).2

/-- The call leaves any session that is ready and in which `P` holds as it may. -/
def MovesIf (L : Licence) (P : Session → Prop) (x : Run α) : Prop :=
  ∀ s : Session, s.Ready L → P s → s.Conduct L (x.run s).2

/-- The call changes nothing. -/
def Reads (x : Run α) : Prop := ∀ s : Session, (x.run s).2 = s

lemma Reads.moves {x : Run α} (h : Reads x) : Moves L x := fun s _ => by
  rw [h s]
  exact .refl s

lemma Moves.if {x : Run α} (h : Moves L x) : MovesIf L P x := fun s hs _ => h s hs

lemma MovesIf.mono {x : Run α} (h : MovesIf L P x) (hp : ∀ s, P' s → P s) : MovesIf L P' x :=
  fun s hs hP => h s hs (hp s hP)

/-- What a call that changes nothing answers can be answered again. -/
lemma Reads.behaves {x : Run α} (h : Reads x) :
    Behaves L P x fun a s => (x.run s).1 = .ok a ∧ P s := by
  intro s hs hP
  refine ⟨h.moves s hs, fun a ha => ?_⟩
  rw [h s]
  exact ⟨ha, hP⟩

lemma Behaves.bind {x : Run α} {f : α → Run β} (hx : Behaves L P x Q)
    (hf : ∀ a, Behaves L (Q a) (f a) R) : Behaves L P (x >>= f) R := by
  intro s hs hP
  obtain ⟨h, ha⟩ := hx s hs hP
  rw [run_bind]
  rcases hr : x.run s with ⟨e | a, s'⟩
  · rw [hr] at h
    exact ⟨h, fun _ he => nomatch he⟩
  · rw [hr] at h ha
    obtain ⟨h', hb⟩ := hf a s' (h.ready hs) (ha a rfl)
    exact ⟨h.trans h', hb⟩

lemma Behaves.bind_moves {x : Run α} {f : α → Run β} (hx : Behaves L P x Q)
    (hf : ∀ a, MovesIf L (Q a) (f a)) : MovesIf L P (x >>= f) := by
  have hf' : ∀ a, Behaves L (Q a) (f a) fun _ _ => True := fun a s hs hQ =>
    ⟨hf a s hs hQ, fun _ _ => trivial⟩
  exact fun s hs hP => (hx.bind hf' s hs hP).1

lemma MovesIf.bind {x : Run α} {f : α → Run β} (hx : MovesIf L P x) (hf : ∀ a, Moves L (f a)) :
    MovesIf L P (x >>= f) := by
  have hx' : Behaves L P x fun _ _ => True := fun s hs hP => ⟨hx s hs hP, fun _ _ => trivial⟩
  exact hx'.bind_moves fun a => (hf a).if

lemma Moves.bind {x : Run α} {f : α → Run β} (hx : Moves L x) (hf : ∀ a, Moves L (f a)) :
    Moves L (x >>= f) :=
  fun s hs => (hx.if (P := fun _ => True)).bind hf s hs trivial

/-- What holds of a session holds when it was only read. -/
lemma Reads.bind_if {x : Run α} {f : α → Run β} (hx : Reads x) (hf : ∀ a, MovesIf L P (f a)) :
    MovesIf L P (x >>= f) :=
  hx.behaves.bind_moves fun a => (hf a).mono fun _ h => h.2

lemma Reads.bind {x : Run α} {f : α → Run β} (hx : Reads x) (hf : ∀ a, Reads (f a)) :
    Reads (x >>= f) := by
  intro s
  have h := hx s
  rw [run_bind]
  rcases hr : x.run s with ⟨e | a, s'⟩
  · rwa [hr] at h
  · rw [hr] at h
    exact (hf a s').trans h

lemma reads_pure (a : α) : Reads (pure a : Run α) := fun _ => rfl

lemma reads_stop (e : Stop) : Reads (stop e : Run α) := fun _ => rfl

lemma reads_get : Reads (get : Run Session) := fun _ => rfl

lemma moves_pure (a : α) : Moves L (pure a : Run α) := (reads_pure a).moves

lemma moves_stop (e : Stop) : Moves L (stop e : Run α) := (reads_stop e).moves

lemma moves_get : Moves L (get : Run Session) := reads_get.moves

lemma moves_modify {f : Session → Session} (hf : ∀ s : Session, s.Sound → s.Conduct L (f s)) :
    Moves L (modify f : Run Unit) := fun s hs => hf s hs.toSound

lemma reads_ofExcept (r : Except Fault α) : Reads (ofExcept r) := by
  cases r with
  | ok a => exact reads_pure a
  | error f => exact reads_stop _

lemma moves_forM {f : α → Run Unit} (hf : ∀ a, Moves L (f a)) (l : List α) :
    Moves L (l.forM f) := by
  induction l with
  | nil => exact moves_pure _
  | cons a l ih => exact (hf a).bind fun _ => ih

lemma reads_mapM {f : α → Run β} (hf : ∀ a, Reads (f a)) (l : List α) : Reads (l.mapM f) := by
  induction l with
  | nil =>
    rw [List.mapM_nil]
    exact reads_pure _
  | cons a l ih =>
    rw [List.mapM_cons]
    exact (hf a).bind fun _ => ih.bind fun _ => reads_pure _

lemma Moves.ite {p : Prop} [Decidable p] {x y : Run α} (hx : Moves L x) (hy : Moves L y) :
    Moves L (if p then x else y) := by
  split_ifs
  · exact hx
  · exact hy

/-! ### Calls on the session -/

lemma moves_emit (e : Event) : Moves L (emit e) :=
  moves_modify fun _ _ => .of_eq (Or.inr rfl) rfl rfl rfl rfl rfl rfl rfl

/-- Calls count everything but the ends of handles. -/
lemma moves_bump {c : Counter} (hc : c ≠ .handlesReclaimed) : Moves L (bump c) :=
  moves_modify fun s _ => by
    refine .of_eq (Or.inr ?_) rfl rfl rfl rfl rfl rfl rfl
    cases c with
    | handlesReclaimed => exact absurd rfl hc
    | _ => rfl

lemma reads_node (n : NodeId) : Reads (node n) := fun _ => rfl

/-- What is done with a node depends on the session in which it is read. -/
lemma moves_node_bind {f : Node → Run α}
    (hf : ∀ s : Session, s.Ready L → s.Conduct L ((f (s.node n)).run s).2) :
    Moves L (node n >>= f) := hf

lemma reads_nodeOf (h : HandleId) : Reads (nodeOf h) := fun _ => rfl

lemma moves_reclaim : Moves L reclaim := fun _ hs => conduct_reclaim hs.toSound

/-- The session with some more things in use. -/
def lend (s : Session) (refs : List Ref) : Session := { s with inUse := refs ++ s.inUse }

/-- The session with the things in use that are given, and no others. -/
def regain (s : Session) (refs : List Ref) : Session := { s with inUse := refs }

lemma run_borrowing (refs : List Ref) (call : Run α) (s : Session) :
    (borrowing refs call).run s =
      ((call.run (lend s refs)).1, (regain (call.run (lend s refs)).2 s.inUse).settle) := rfl

/-- A session that lends no nodes has as many nodes referred to as before. -/
lemma node_mem_outerRefs_lend {s : Session} {refs : List Ref} (hr : ∀ n, .node n ∉ refs)
    (h : .node n ∈ (lend s refs).outerRefs) : .node n ∈ s.outerRefs := by
  simp only [outerRefs, lend, List.mem_append] at h ⊢
  simpa [hr n] using h

lemma conduct_lend {s : Session} {refs : List Ref} (hr : ∀ n, .node n ∉ refs) :
    s.Course L (lend s refs) ∧ (s.Grounded → (lend s refs).Grounded) := by
  have hb : s.Beside L (lend s refs) :=
    ⟨rfl, rfl, rfl, Or.inr rfl, fun h => Or.inl (node_mem_outerRefs_lend hr h), Or.inl, id⟩
  refine ⟨hb.course, fun hg => hg.of_beside rfl rfl (fun h => ?_) hg.held⟩
  exact hg.outer (node_mem_outerRefs_lend hr h)

lemma conduct_regain {s : Session} {refs : List Ref} (hr : refs ⊆ s.inUse) :
    s.Course L (regain s refs) ∧ (s.Grounded → (regain s refs).Grounded) := by
  have hsub : ∀ {r}, r ∈ (regain s refs).outerRefs → r ∈ s.outerRefs := by
    intro r h
    simp only [outerRefs, regain, List.mem_append, or_assoc] at h ⊢
    exact h.imp_left fun h => hr h
  have hb : s.Beside L (regain s refs) :=
    ⟨rfl, rfl, rfl, Or.inr rfl, fun h => Or.inl (hsub h), Or.inl, id⟩
  exact ⟨hb.course, fun hg => hg.of_beside rfl rfl (fun h => hg.outer (hsub h)) hg.held⟩

/-- A call may hold on to handles and sinks. -/
lemma MovesIf.borrowing {call : Run α} (h : MovesIf L P' call) {refs : List Ref}
    (hr : ∀ n, .node n ∉ refs) (hp : ∀ s, P s → P' (lend s refs)) :
    MovesIf L P (borrowing refs call) := by
  intro s hs hP
  obtain ⟨hin, hgin⟩ := conduct_lend (L := L) (s := s) hr
  have hlend : (lend s refs).Ready L :=
    ⟨(hin.leads hs.toSound).sound hs.toSound, hs.heeds.of_eq rfl rfl rfl rfl⟩
  have hcall := h _ hlend (hp s hP)
  have hsub : s.inUse ⊆ (call.run (lend s refs)).2.inUse := by
    rw [hcall.inUse]
    exact List.subset_append_right _ _
  obtain ⟨hout, hgout⟩ := conduct_regain (L := L) hsub
  rw [run_borrowing]
  exact .of_settle hs.toSound (hin.trans (hcall.course.trans hout)) rfl
    (fun hg => hgout (hcall.grounded (hgin hg)))
    fun _ => (hcall.heeds hlend.heeds).of_eq rfl rfl rfl rfl

lemma Moves.borrowing {call : Run α} (h : Moves L call) {refs : List Ref}
    (hr : ∀ n, .node n ∉ refs) : Moves L (borrowing refs call) :=
  fun s hs => (h.if (P := fun _ => True)).borrowing hr (fun _ h => h) s hs trivial

/-! ### Handles -/

lemma run_getOrCreate (n : NodeId) (name : String) (s : Session) :
    (getOrCreate n name).run s =
      (.ok (s.tree.getOrCreate n (Path.ofString name)).1,
        { s with tree := (s.tree.getOrCreate n (Path.ofString name)).2 }) := rfl

lemma run_grant (name : String) (use : HandleId → Run α) (s : Session) :
    (getOrCreate n name >>= fun c => withHandle c use).run s =
      (borrowing [.handle s.handles.next] (reclaim >>= fun _ => use s.handles.next)).run
        (s.grant n name) := rfl

/-- A new handle is there, and stays while others end. -/
lemma contains_enlist (s : Session) (n : NodeId) :
    (s.enlist n).handles.contains s.handles.next := by
  show ((s.handles.push n).get? s.handles.next).isSome
  rw [Store.get?_push, if_pos rfl]
  rfl

/-- A handle for a node of a name, made where it is missing. What uses the handle may rely on it. -/
lemma movesIf_grant (name : String) {use : HandleId → Run α}
    (hu : ∀ i, MovesIf L (fun s => s.handles.contains i) (use i)) :
    MovesIf L (fun s => s.Known n) (getOrCreate n name >>= fun c => withHandle c use) := by
  intro s hs hn
  have hgrant := (Deed.grant (L := L) name hn.made).course
  have hstay : MovesIf L (fun s' => s'.handles.contains s.handles.next ∧
      .handle s.handles.next ∈ s'.outerRefs) (reclaim >>= fun _ => use s.handles.next) := by
    refine Behaves.bind_moves (Q := fun _ s' => s'.handles.contains s.handles.next) ?_ fun _ => hu _
    rintro s' hs' ⟨hc, ho⟩
    refine ⟨moves_reclaim s' hs', fun _ _ => ?_⟩
    show (s'.reclaim.2.handles.get? s.handles.next).isSome
    rwa [(keeps_reclaim s').held ho]
  have huse : MovesIf L (fun s' => s'.handles.contains s.handles.next)
      (borrowing [.handle s.handles.next] (reclaim >>= fun _ => use s.handles.next)) :=
    hstay.borrowing (by simp) fun s' hs' => ⟨hs', by simp [outerRefs, lend]⟩
  rw [run_grant]
  have hready : (s.grant n name).Ready L :=
    ⟨(hgrant.leads hs.toSound).sound hs.toSound, hs.heeds.grant n name⟩
  have h := huse _ hready (contains_enlist _ _)
  exact
    { course := hgrant.trans h.course
      inUse := h.inUse
      grounded := fun hg => h.grounded (hg.grant hs.toSound hn name)
      settled := fun _ _ => settled_settle _
      heeds := fun _ => h.heeds hready.heeds }

lemma grant_empty (s : Session) (n : NodeId) : s.grant n "" = s.enlist n := by
  have h : Path.ofString "" = [] := by
    rw [Path.ofString, Path.segments]
    rfl
  rw [Session.grant, h]
  rfl

lemma movesIf_withHandle {use : HandleId → Run α}
    (hu : ∀ i, MovesIf L (fun s => s.handles.contains i) (use i)) :
    MovesIf L (fun s => s.Known n) (withHandle n use) := by
  intro s hs hn
  have h := movesIf_grant "" hu s hs hn
  rw [run_grant, grant_empty] at h
  exact h

/-- The namespace holds on to the root. -/
lemma known_root {s : Session} (hs : s.Sound) (hn : s.scope?.isSome) : s.Known Tree.root :=
  ⟨hs.made, fun hg => contains_root hg hn⟩

lemma behaves_reclaim :
    Behaves L (fun s => s.scope?.isSome) reclaim fun _ s => s.scope?.isSome := by
  intro s hs hn
  refine ⟨moves_reclaim s hs, fun _ _ => ?_⟩
  show s.reclaim.2.scope?.isSome
  rwa [(keeps_reclaim s).scope]

lemma movesIf_logger (name : String) {use : HandleId → Run α}
    (hu : ∀ i, MovesIf L (fun s => s.handles.contains i) (use i)) :
    MovesIf L (fun s => s.scope?.isSome) (logger name use) :=
  behaves_reclaim.bind_moves fun _ s hs hn => movesIf_grant name hu s hs (known_root hs.toSound hn)

/-! ### Changes to a node -/

lemma movesIf_setLevel (n : NodeId) (l? : Option Level) :
    MovesIf L (fun s => s.Open L n) (setLevel n l?) := fun _ hs hn =>
  { course := (Deed.setLevel l? hn).course
    inUse := rfl
    grounded := fun hg => hg.setLevel n l?
    settled := fun _ h => h.setLevel hs.toSound n l?
    heeds := fun h => h.withTree (h.node.setLevel (Node.ofContents_filter _) n l?) }

lemma movesIf_reset (n : NodeId) : MovesIf L (fun s => s.Open L n ∧ L.reset s n) (reset n) :=
  fun _ hs hn =>
    have hc := (Deed.reset hn.1 hn.2).course
    { course := hc
      inUse := (ends_settle _).keeps.inUse
      grounded := fun hg =>
        (ends_settle _).grounded ((leads_reset _ n).sound hs.toSound) (hg.reset hs.toSound n)
      settled := fun _ _ => settled_settle _
      heeds := fun h => (h.withTree (h.node.reset (Node.ofContents_filter _) n)).settle }

/-- To set something on a node, and to let go of what was set before. -/
lemma conduct_configure {s : Session} (hs : s.Sound) (hn : s.Open L n) {f : Node → Node}
    (hf : Node.Configures f) (ha : (f (s.node n)).attachments = (s.node n).attachments)
    (hq : ∀ g ∈ (f (s.node n)).filter?, (s.node n).filter? = some g ∨ L.Admits g.actions) :
    s.Conduct L (s.modifyNode n f).settle :=
  .of_settle hs (Deed.configure hf hn fun h => ha ▸ h).course rfl
    (fun hg => hg.configure n hf.toSetting) fun h => h.configure n hq

lemma movesIf_setFilter (n : NodeId) (f? : Option NodeFilter)
    (hf : ∀ f ∈ f?, L.Admits f.actions) : MovesIf L (fun s => s.Open L n) (setFilter n f?) :=
  fun _ hs hn => conduct_configure hs.toSound hn (Node.configures_filter f?) rfl
    fun f h => Or.inr (hf f h)

lemma movesIf_changeSinks (n : NodeId) (f : NodeSinks → α × NodeSinks) :
    MovesIf L (fun s => s.Open L n) (changeSinks n f) := fun s hs hn =>
  conduct_configure hs.toSound hn (Node.configures_sinks (f (s.node n).sinks).2) rfl
    fun _ => Or.inl

/-- Flags and attachments refer to nothing. -/
lemma conduct_adjust {s : Session} (hn : s.Open L n) {f : Node → Node} (hf : Node.Adjusts f)
    (ha : (s.node n).attachments.Distinct → (f (s.node n)).attachments.Distinct) :
    s.Conduct L (s.modifyNode n f) where
  course := (Deed.configure hf.configures hn ha).course
  inUse := rfl
  grounded hg := hg.configure n hf.setting
  settled _ h := h.configure n fun a => by
    obtain ⟨pf, ps, attachments, ha⟩ := hf a
    rw [ha]
    rfl
  heeds h := h.configure n fun g hg => by
    obtain ⟨pf, ps, attachments, ha⟩ := hf (s.node n)
    rw [ha] at hg
    exact Or.inl hg

lemma movesIf_adjust (n : NodeId) {f : Node → Node} (hf : Node.Adjusts f)
    (ha : ∀ a, (f a).attachments = a.attachments) :
    MovesIf L (fun s => s.Open L n) (modifyNode n f) := fun s _ hn =>
  conduct_adjust hn hf fun h => (ha (s.node n)).symm ▸ h

/-! ### The namespace -/

/-- A change of the namespace leaves it the root. -/
lemma conduct_withScope {s : Session} {f : Namespace → Namespace}
    (hf : ∀ ns, ns.levels.Named → (f ns).levels.Named) :
    s.Course L { s with scope? := s.scope?.map f } ∧
      (s.Grounded → ({ s with scope? := s.scope?.map f } : Session).Grounded) := by
  have ho : ∀ {n}, .node n ∈ ({ s with scope? := s.scope?.map f } : Session).outerRefs →
      .node n ∈ s.outerRefs := by
    intro n h
    simp only [outerRefs, List.mem_append, List.mem_flatMap, Option.mem_toList,
      node_mem_refsOfNamespace_iff, Option.map_eq_some_iff] at h ⊢
    rcases h with h | ⟨_, ⟨ns, hns, -⟩, rfl⟩
    · exact Or.inl h
    · exact Or.inr ⟨ns, hns, rfl⟩
  have hb : s.Beside L { s with scope? := s.scope?.map f } := by
    refine ⟨rfl, rfl, rfl, Or.inr rfl, fun h => Or.inl (ho h), Or.inl, fun hs ns hns => ?_⟩
    obtain ⟨ns, h, rfl⟩ := Option.map_eq_some_iff.1 hns
    exact hf ns (hs ns h)
  exact ⟨hb.course, fun hg => hg.of_beside rfl rfl (fun h => hg.outer (ho h)) hg.held⟩

/-- A change of the namespace that lets nothing go. Filters may be given other names. -/
lemma moves_modifyNamespace {f : Namespace → Namespace}
    (hf : ∀ ns, ns.levels.Named → (f ns).levels.Named)
    (hr : ∀ ns, ∀ r ∈ refsOfNamespace ns, r ∈ refsOfNamespace (f ns))
    (hh : ∀ ns, (f ns).filters = ns.filters ∧
      ∀ h ∈ (f ns).hooks, h ∈ ns.hooks ∨ L.Admits h.actions) :
    Moves L (modifyNamespace f) := fun s _ =>
  have h := conduct_withScope (L := L) (s := s) hf
  { course := h.1
    inUse := rfl
    grounded := h.2
    settled := fun _ hs => hs.withScope fun ns _ => hr ns
    heeds := fun hs => hs.withScope
      (fun ns name _ hg => Or.inl ⟨name, (hh ns).1 ▸ hg⟩) fun ns => (hh ns).2 }

/-- Any change of the named filters, if the session settles then. -/
lemma moves_changeFilters_settle {f : Dict String NodeFilter → Dict String NodeFilter}
    (hf : ∀ d name g, (f d).get? name = some g → d.get? name = some g ∨ L.Admits g.actions)
    {x : Run α} (hx : Moves L x) :
    Moves L (modifyNamespace (fun ns => { ns with filters := f ns.filters }) >>= fun _ =>
      settle >>= fun _ => x) := by
  have h : Moves L (modifyNamespace (fun ns => { ns with filters := f ns.filters }) >>= fun _ =>
      settle) := fun s hs =>
    have h := conduct_withScope (L := L) (s := s)
      (f := fun ns => { ns with filters := f ns.filters }) fun _ => id
    .of_settle hs.toSound h.1 rfl h.2 fun hs => hs.withScope
      (fun ns name g hg => (hf ns.filters name g hg).imp_left fun hg => ⟨name, hg⟩)
      fun _ _ => Or.inl
  exact h.bind fun _ => hx

lemma moves_addHook {actions : List BoundAction} (ha : L.Admits actions) :
    Moves L (addHook actions) := by
  apply moves_get.bind
  intro s
  cases s.scope? with
  | none => exact moves_stop _
  | some ns =>
    have hkeeps : ∀ ns : Namespace, ∀ r ∈ refsOfNamespace ns, r ∈ refsOfNamespace { ns with
        hooks := ns.hooks ++ [⟨ns.nextHook, actions⟩], nextHook := ns.nextHook + 1 } := by
      intro ns r hr
      simp only [refsOfNamespace, refsOfHooks, List.flatMap_append, List.mem_append] at hr ⊢
      exact hr.imp_right Or.inl
    have hhooks : ∀ ns : Namespace, ∀ h ∈ ns.hooks ++ [⟨ns.nextHook, actions⟩],
        h ∈ ns.hooks ∨ L.Admits h.actions := by
      intro ns h hh
      refine (List.mem_append.1 hh).imp_right fun hh => ?_
      obtain rfl := List.mem_singleton.1 hh
      exact ha
    have hadd := (moves_modifyNamespace (L := L) (f := fun ns => { ns with
      hooks := ns.hooks ++ [⟨ns.nextHook, actions⟩], nextHook := ns.nextHook + 1 })
        (fun _ => id) hkeeps fun ns => ⟨rfl, hhooks ns⟩).bind fun _ =>
      moves_emit (.hookAccepted ns.nextHook)
    exact Moves.ite ((moves_stop _).bind fun _ => hadd) hadd

/-! ### Filters -/

/-- What a program gave to the tree leaves a session as it may, too. -/
structure CallsMove (L : Licence) (calls : Calls) : Prop where
  predicate : ∀ {p} r, L.Admits p.actions → Moves L (calls.predicate p r)
  publish : ∀ k r, Moves L (calls.publish k r)
  flush : ∀ k, Moves L (calls.flush k)
  hook : ∀ {h}, L.Admits h.actions → Moves L (calls.hook h)

variable {call : BoundPredicate → Record → Run Filter.Outcome}

mutual

lemma moves_evaluate (f : NodeFilter) (hcall : ∀ p ∈ f.predicates, ∀ r, Moves L (call p r))
    (r : Record) : Moves L (f.evaluate call r) := by
  cases f with
  | not f => exact (moves_evaluate f hcall r).bind fun _ => moves_pure _
  | all fs => exact moves_evaluateAll fs hcall r
  | any fs => exact moves_evaluateAny fs hcall r
  | named name p => exact hcall p List.mem_cons_self r
  | reference name f => exact moves_evaluate f hcall r
  | accept | deny | levels | levelRange | levelChange | «match» | substitute =>
    exact moves_pure _

lemma moves_evaluateAll (fs : List NodeFilter)
    (hcall : ∀ p ∈ Filter.predicatesList fs, ∀ r, Moves L (call p r)) (r : Record) :
    Moves L (Filter.evaluateAll call fs r) := by
  cases fs with
  | nil => exact moves_pure _
  | cons f fs =>
    exact (moves_evaluate f (fun p hp => hcall p (List.mem_append_left _ hp)) r).bind fun o =>
      Moves.ite (moves_evaluateAll fs (fun p hp => hcall p (List.mem_append_right _ hp)) o.2)
        (moves_pure _)

lemma moves_evaluateAny (fs : List NodeFilter)
    (hcall : ∀ p ∈ Filter.predicatesList fs, ∀ r, Moves L (call p r)) (r : Record) :
    Moves L (Filter.evaluateAny call fs r) := by
  cases fs with
  | nil => exact moves_pure _
  | cons f fs =>
    exact (moves_evaluate f (fun p hp => hcall p (List.mem_append_left _ hp)) r).bind fun o =>
      Moves.ite (moves_pure _)
        (moves_evaluateAny fs (fun p hp => hcall p (List.mem_append_right _ hp)) o.2)

end

variable {calls : Calls} (hcalls : CallsMove L calls)

include hcalls

/-- A filter whose predicates are within the licence is evaluated. -/
lemma moves_evaluate_of_admits {f : NodeFilter} (hf : L.Admits f.actions) (r : Record) :
    Moves L (f.evaluate calls.predicate r) :=
  moves_evaluate f (fun _ hp r => hcalls.predicate r (hf.of_mem hp)) r

lemma moves_ownFilter (n : NodeId) (r : Record) : Moves L (ownFilter calls n r) := by
  refine moves_node_bind fun s hs => ?_
  cases hf : (s.node n).filter? with
  | none => exact .refl s
  | some f =>
    have heval := moves_evaluate_of_admits hcalls (hs.heeds.node n f hf) r
    exact heval.borrowing (fun _ => node_not_mem_refsOfFilter f) s hs

lemma moves_filterChain (path : List NodeId) (r : Record) :
    Moves L (filterChain calls path r) := by
  induction path generalizing r with
  | nil => exact moves_pure _
  | cons n path ih =>
    refine (moves_ownFilter hcalls n r).bind fun o => Moves.ite (moves_pure _) ?_
    exact (reads_node n).moves.bind fun _ => Moves.ite (ih _) (moves_pure _)

lemma moves_isLoggable (n : NodeId) (r : Record) : Moves L (isLoggable calls n r) := by
  refine (reads_node n).moves.bind fun _ => Moves.ite ?_ (moves_ownFilter hcalls n r)
  exact moves_get.bind fun _ => moves_filterChain hcalls _ r

omit hcalls

/-! ### Delivery of records -/

lemma moves_serveAlong {visit : SinkId → Run Unit} (hv : ∀ k, Moves L (visit k))
    (path : List NodeId) : Moves L (serveAlong visit path) := by
  induction path with
  | nil => exact moves_pure _
  | cons n path ih =>
    have hserve : Moves L (serve visit n) := (reads_node n).moves.bind fun a =>
      (moves_forM hv a.sinks.sinks).borrowing fun _ => node_not_mem_refsOfSinks a.sinks
    exact hserve.bind fun _ => (reads_node n).moves.bind fun _ => Moves.ite ih (moves_pure _)

lemma moves_report (k : SinkId) (o : SinkOperation) (name : String) (message? : Option String)
    (f : Fault) : Moves L (report k o name message? f) := by
  have hbump : Moves L (bump .sinkFailures) := moves_bump nofun
  exact moves_get.bind fun _ => Moves.ite ((moves_emit _).bind fun _ => hbump) hbump

include hcalls

lemma moves_deliver (r : Record) (k : SinkId) : Moves L (deliver calls r k) := by
  apply (hcalls.publish k r).bind
  intro f?
  cases f? with
  | none => exact moves_pure _
  | some f => exact (moves_emit _).bind fun _ => moves_report _ _ _ _ _

lemma moves_publish (n : NodeId) (r : Record) : Moves L (publish calls n r) :=
  moves_get.bind fun _ => moves_serveAlong (moves_deliver hcalls r) _

lemma moves_flushSink (name : String) (k : SinkId) : Moves L (flushSink calls name k) := by
  apply (hcalls.flush k).bind
  intro f?
  cases f? with
  | none => exact moves_pure _
  | some f => exact (moves_emit _).bind fun _ => moves_report _ _ _ _ _

lemma moves_flush (n : NodeId) : Moves L (flush calls n) :=
  (reads_node n).moves.bind fun _ => moves_get.bind fun _ =>
    moves_serveAlong (moves_flushSink hcalls _) _

lemma moves_offer (n : NodeId) (r : Record) : Moves L (offer calls n r) := by
  refine (reads_node n).moves.bind fun a => Moves.ite (moves_bump nofun) ?_
  refine (moves_isLoggable hcalls n _).bind fun o => Moves.ite ?_ (moves_bump nofun)
  exact (moves_publish hcalls n o.2).bind fun _ => moves_bump nofun

lemma moves_logRecord (h : HandleId) (r : Record) : Moves L (logRecord calls h r) :=
  (reads_nodeOf h).moves.bind fun _ => (moves_offer hcalls _ r).bind fun _ => moves_emit _

lemma moves_log (h : HandleId) (l : Level) (message : String) :
    Moves L (log calls h l message) := by
  refine (reads_nodeOf h).moves.bind fun n => (reads_node n).moves.bind fun _ => Moves.ite ?_ ?_
  · exact (moves_offer hcalls n _).bind fun _ => moves_emit _
  · have hbelow : Moves L (bump .belowLevel) := moves_bump nofun
    exact hbelow.bind fun _ => moves_emit _

lemma moves_logLazily (h : HandleId) (l : Level) (message : Unit → String) :
    Moves L (logLazily calls h l message) := by
  refine (reads_nodeOf h).moves.bind fun n => (reads_node n).moves.bind fun _ =>
    Moves.ite ?_ (moves_pure _)
  exact (moves_log hcalls h l _).bind fun _ => moves_pure _

/-! ### Closing -/

lemma moves_runHooks {hooks : List BoundHook} (hh : ∀ h ∈ hooks, L.Admits h.actions) :
    Moves L (runHooks calls hooks) := by
  induction hooks with
  | nil => exact moves_pure _
  | cons h hooks ih =>
    rw [List.forall_mem_cons] at hh
    have hrun : Moves L (do emit (.hookStarted h.number); calls.hook h) :=
      (moves_emit _).bind fun _ => hcalls.hook hh.1
    have hfirst := hrun.borrowing fun _ => node_not_mem_refsOfHooks [h]
    exact (hfirst.bind fun _ => ih hh.2).borrowing fun _ => node_not_mem_refsOfHooks hooks

omit hcalls

/-- To run a hook settles the session, even if it stops. -/
lemma settled_runHooks {hooks : List BoundHook} (hh : hooks ≠ []) (s : Session) :
    ((runHooks calls hooks).run s).2.Settled := by
  cases hooks with
  | nil => exact absurd rfl hh
  | cons h hooks => exact settled_settle _

include hcalls

/-- The hooks are taken off the namespace and run; those that are left go in the end. -/
lemma conduct_takeHooks {s : Session} (hs : s.Ready L) {ns : Namespace}
    (hns : s.scope? = some ns) :
    s.Conduct L ((runHooks calls ns.hooks).run
      { s with scope? := s.scope?.map fun ns => { ns with closed := true, hooks := [] } }).2 := by
  obtain ⟨hc, hg⟩ := conduct_withScope (L := L) (s := s)
    (f := fun ns => { ns with closed := true, hooks := [] }) fun _ => id
  have htaken := hs.heeds.withScope (g := fun ns => { ns with closed := true, hooks := [] })
    (fun _ name _ hf => Or.inl ⟨name, hf⟩) nofun
  have h := moves_runHooks hcalls (fun h hh => hs.heeds.hook hns hh) _
    ⟨(hc.leads hs.toSound).sound hs.toSound, htaken⟩
  refine ⟨hc.trans h.course, h.inUse, fun hg' => h.grounded (hg hg'), fun hg' hset => ?_,
    fun _ => h.heeds htaken⟩
  by_cases hh : ns.hooks = []
  · refine h.settled (hg hg') (hset.withScope fun ns' hns' r hr => ?_)
    obtain rfl : ns = ns' := Option.some.inj (hns.symm.trans hns')
    simpa [refsOfNamespace, refsOfHooks, hh] using hr
  · exact settled_runHooks hh _

omit hcalls

lemma run_modifyNamespace (f : Namespace → Namespace) (s : Session) :
    (modifyNamespace f).run s = (.ok (), { s with scope? := s.scope?.map f }) := rfl

lemma run_close (s : Session) :
    (close calls).run s =
      match s.scope? with
      | none => (.error (.unknown "namespace"), s)
      | some ns => (runHooks calls ns.hooks >>= fun _ => reset Tree.root >>= fun _ =>
          reclaim >>= fun _ => pure ()).run
        { s with scope? := some { ns with closed := true, hooks := [] } } := by
  rw [close, run_bind]
  change (match s.scope? with | none => _ | some ns => _ : Run Unit).run s = _
  cases hns : s.scope? with
  | none => rfl
  | some ns =>
    rw [run_bind, run_modifyNamespace, hns]
    rfl

include hcalls

lemma moves_close (hr : ∀ s, L.reset s Tree.root) : Moves L (close calls) := by
  have hreset : Moves L (reset Tree.root) := fun s hs =>
    movesIf_reset Tree.root s hs ⟨Or.inr (Or.inl rfl), hr s⟩
  have hrest : Moves L (reset Tree.root >>= fun _ => reclaim >>= fun _ => pure ()) :=
    hreset.bind fun _ => moves_reclaim.bind fun _ => moves_pure _
  intro s hs
  rw [run_close]
  cases hns : s.scope? with
  | none => exact .refl s
  | some ns =>
    have h := conduct_takeHooks hcalls hs hns
    rw [hns, Option.map_some] at h
    show s.Conduct L ((runHooks calls ns.hooks >>= fun _ => _).run _).2
    rw [run_bind]
    rcases hrun : (runHooks calls ns.hooks).run _ with ⟨e | a, s'⟩
    · rwa [hrun] at h
    · rw [hrun] at h
      exact h.trans (hrest s' (h.ready hs))

end Run

end Logging
