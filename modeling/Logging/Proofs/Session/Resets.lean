import Logging.Proofs.Session.Steps
import Logging.Proofs.Tree.Lookups

/-!
# Resets

A reset clears a node and all nodes below it and takes their entries away, and then things end that
nothing refers to any more. `Session.Resets` says what this leaves of everything in a session: of
the node, of those below it, of all other nodes, of entries, handles, sinks and notices, and of the
rest.

The nodes that were below stay out of the tree for good, so whatever is found or made below the node
later on has a number that was not given at the time of the reset (`Session.resets_steps`).
-/

namespace Logging

/-! ### Cleared nodes -/

/-- What a reset leaves of a node: nothing is set on it, it has no children and a given effective
level. Its place and its handles are as before. -/
structure Node.Cleared (a b : Node) (severity : Int) : Prop where
  unset : b.isConfigured = false
  children : ∀ k, b.children.get? k = none
  effective : b.effective = severity
  parent : b.parent? = a.parent?
  name : b.name = a.name
  fullName : b.fullName = a.fullName
  liveHandles : b.liveHandles = a.liveHandles

lemma Node.cleared_blank (a : Node) (severity : Int) : a.Cleared (a.blank severity) severity :=
  ⟨rfl, fun _ => rfl, rfl, rfl, rfl, rfl, rfl⟩

namespace Session

variable {s s' s'' u : Session} {r x : Ref} {n m p c : NodeId} {k : String}

/-! ### What settling leaves -/

/-- With fewer handles, sinks and nodes there are fewer references. -/
lemma mem_refs_of_fewer (h : r ∈ s'.refs) (hi : s'.inUse = s.inUse) (hc : s'.client = s.client)
    (hn : s'.scope? = s.scope?)
    (hh : ∀ {i m}, s'.handles.get? i = some m → s.handles.get? i = some m)
    (hk : ∀ {k b}, s'.sinks.get? k = some b → s.sinks.get? k = some b)
    (ht : ∀ {m}, s'.tree.contains m → s.tree.contains m ∧ s'.tree.node m = s.tree.node m) :
    r ∈ s.refs := by
  rw [mem_refs_iff, hi, hc, hn] at h
  rcases h with h | h | ⟨ns, hns, h⟩ | ⟨i, m, h, rfl⟩ | ⟨k, b, hb, h⟩ | ⟨m, hm, h⟩
  · exact mem_refs_of_inUse h
  · exact mem_refs_of_client h
  · exact mem_refs_of_scope hns h
  · exact mem_refs_of_handle (hh h)
  · exact mem_refs_iff.2 (Or.inr (Or.inr (Or.inr (Or.inr (Or.inl ⟨k, b, hk hb, h⟩)))))
  · rw [(ht hm).2] at h
    exact mem_refs_of_node (ht hm).1 h

lemma get?_of_get?_erase {α : Type} {t : Store α} {i j : Nat} {a : α}
    (h : (t.erase i).get? j = some a) : t.get? j = some a := by
  rw [Store.get?_erase] at h
  split_ifs at h
  exact h

/-- What ends refers to nothing any more, and all other references are as before. -/
lemma mem_refs_of_destroy (h : r ∈ (s.destroy x).refs) : r ∈ s.refs := by
  cases x with
  | node y =>
    refine mem_refs_of_fewer h rfl rfl rfl id id fun hm => ?_
    have hm' := Tree.contains_drop.1 hm
    exact ⟨hm'.2, Tree.node_drop_of_ne hm'.1⟩
  | sink y => exact mem_refs_of_fewer h rfl rfl rfl id get?_of_get?_erase fun hm => ⟨hm, rfl⟩
  | handle y => exact mem_refs_of_fewer h rfl rfl rfl get?_of_get?_erase id fun hm => ⟨hm, rfl⟩

/-- What is left of a session after some things ended to which nothing referred. What is left is as
it was, and what still has a reference is left. Each handle that ended has left a notice. -/
structure Sheds (s s' : Session) : Prop where
  rest : s' = { s with
    tree := s'.tree, handles := s'.handles, sinks := s'.sinks, notices := s'.notices }
  baseline : s'.tree.baseline = s.tree.baseline
  strong : s'.tree.strong = s.tree.strong
  next : s'.tree.nodes.next = s.tree.nodes.next
  node : ∀ m, s'.tree.contains m → s'.node m = s.node m
  handle : ∀ i, s'.handles.contains i → s'.handles.get? i = s.handles.get? i
  sink : ∀ k, s'.sinks.contains k → s'.sinks.get? k = s.sinks.get? k
  entry : ∀ p k c, s.tree.child? p k = some c → s'.tree.child? p k = some c
  has : ∀ r, s'.Has r → s.Has r
  refs : ∀ r, r ∈ s'.refs → r ∈ s.refs
  kept : ∀ r, s.Has r → r ∈ s'.refs → s'.Has r
  notices : ∃ ended : List Notice, s'.notices = s.notices ++ ended ∧
    ∀ a, a ∈ ended ↔ s.handles.get? a.handle = some a.node ∧ ¬ s'.handles.contains a.handle

lemma Sheds.refl (s : Session) : s.Sheds s where
  rest := rfl
  baseline := rfl
  strong := rfl
  next := rfl
  node _ _ := rfl
  handle _ _ := rfl
  sink _ _ := rfl
  entry _ _ _ := id
  has _ := id
  refs _ := id
  kept _ h _ := h
  notices := by
    refine ⟨[], (List.append_nil _).symm, fun a => ?_⟩
    simp only [List.not_mem_nil, Store.contains, false_iff, not_and, not_not]
    exact fun h => h ▸ rfl

lemma Sheds.trans (h : s.Sheds s') (h' : s'.Sheds s'') : s.Sheds s'' where
  rest := by rw [h'.rest, h.rest]
  baseline := h'.baseline.trans h.baseline
  strong := h'.strong.trans h.strong
  next := h'.next.trans h.next
  node m hm := (h'.node m hm).trans (h.node m (h'.has (.node m) hm))
  handle i hi := (h'.handle i hi).trans (h.handle i (h'.has (.handle i) hi))
  sink k hk := (h'.sink k hk).trans (h.sink k (h'.has (.sink k) hk))
  entry p k c hk := h'.entry p k c (h.entry p k c hk)
  has r hr := h.has r (h'.has r hr)
  refs r hr := h.refs r (h'.refs r hr)
  kept r hr hr' := h'.kept r (h.kept r hr (h'.refs r hr')) hr'
  notices := by
    obtain ⟨es, he, hes⟩ := h.notices
    obtain ⟨fs, hf, hfs⟩ := h'.notices
    refine ⟨es ++ fs, by rw [hf, he, List.append_assoc], fun a => ?_⟩
    rw [List.mem_append, hes, hfs]
    have hhas := h'.has (.handle a.handle)
    by_cases hc : s'.handles.contains a.handle
    · simp [hc, h.handle a.handle hc]
    · have hc' : ¬ s''.handles.contains a.handle := fun h => hc (hhas h)
      have hnone : s'.handles.get? a.handle = none := by simpa [Store.contains] using hc
      simp [hc, hc', hnone]

/-- A thing ends to which nothing refers. -/
lemma sheds_destroy (hs : s.tree.WellShaped) (hr : r ∉ s.refs) : s.Sheds (s.destroy r) where
  rest := by cases r <;> rfl
  baseline := by cases r <;> rfl
  strong := by cases r <;> rfl
  next := by
    cases r with
    | node x => exact Store.next_erase _ _
    | handle | sink => rfl
  node m hm := by
    cases r with
    | node x => exact Tree.node_drop_of_ne (Tree.contains_drop.1 hm).1
    | handle | sink => rfl
  handle i hi := by
    cases r with
    | handle x =>
      show (s.handles.erase x).get? i = _
      rw [Store.get?_erase, if_neg ((Store.contains_erase _ _ _).1 hi).1.symm]
    | node | sink => rfl
  sink k hk := by
    cases r with
    | sink x =>
      show (s.sinks.erase x).get? k = _
      rw [Store.get?_erase, if_neg ((Store.contains_erase _ _ _).1 hk).1.symm]
    | node | handle => rfl
  entry _ _ _ := child?_destroy_of_some hs hr
  has r' hr' := (has_destroy_iff.1 hr').2
  refs r' := mem_refs_of_destroy
  kept r' hr' hmem := by
    refine has_destroy_iff.2 ⟨?_, hr'⟩
    rintro rfl
    exact hr (mem_refs_of_destroy hmem)
  notices := by
    cases r with
    | handle x =>
      refine ⟨_, rfl, fun a => ?_⟩
      have hnot : ∀ i, ¬ (s.handles.erase x).contains i ↔ (s.handles.contains i → i = x) := by
        intro i
        rw [Store.contains_erase, not_and, not_imp_comm, Decidable.not_not]
      rw [destroy, hnot, List.mem_map]
      constructor
      · rintro ⟨m, hm, rfl⟩
        exact ⟨Option.mem_toList.1 hm, fun _ => rfl⟩
      · rintro ⟨ha, hx⟩
        have hax : a.handle = x := hx (by rw [Store.contains, ha]; rfl)
        exact ⟨a.node, Option.mem_toList.2 (hax ▸ ha), by rw [← hax]⟩
    | node | sink => exact (Sheds.refl s).notices

lemma sheds_settle (hs : s.Sound) : s.Sheds s.settle := by
  have h : s.settle.Sound ∧ s.Sheds s.settle := by
    refine settleWithin_induction (motive := fun u => u.Sound ∧ s.Sheds u) ?_ _ ⟨hs, .refl s⟩
    rintro u r ⟨hu, h⟩ hr -
    exact ⟨(leads_destroy hr).sound hu, h.trans (sheds_destroy hu.tree.toWellShaped hr)⟩
  exact h.2

/-! ### What a reset leaves -/

/-- A session after a reset of one of its nodes. -/
structure Resets (s : Session) (n : NodeId) (s' : Session) : Prop where
  /-- The node is cleared, and inherits what its parent has, or the baseline. -/
  self : s'.tree.contains n → (s.node n).Cleared (s'.node n) (s'.tree.inherited n)
  /-- The nodes below it are cleared as far as they are left, and have the baseline. -/
  below : ∀ m, s.tree.Below n m → s'.tree.contains m →
    (s.node m).Cleared (s'.node m) s'.tree.baseline
  /-- They are entered nowhere. -/
  cut : ∀ m, s.tree.Below n m → ∀ p k, s'.tree.child? p k ≠ some m
  /-- All other nodes are as they were, as far as they are left. -/
  outside : ∀ m, m ≠ n → ¬ s.tree.Below n m → s'.tree.contains m → s'.node m = s.node m
  /-- All other entries are as they were, that of the node itself among them. -/
  entries : ∀ p k c, s'.tree.child? p k = some c ↔
    s.tree.child? p k = some c ∧ p ≠ n ∧ ¬ s.tree.Below n p
  place : ∀ p k, s'.tree.child? p k = some n ↔ s.tree.child? p k = some n
  /-- The node is left if it is entered, or if it or a handle for it is held on to. -/
  stays : ((∃ p k, s.tree.child? p k = some n) ∨ .node n ∈ s.outerRefs ∨
    ∃ i, s.handles.get? i = some n ∧ .handle i ∈ s.outerRefs) → s'.tree.contains n
  /-- Only what nothing refers to any more has ended. -/
  left : ∀ r, s'.Has r ↔ s.Has r ∧ r ∈ s'.refs
  /-- What is left of handles and sinks is as it was. -/
  handle : ∀ i, s'.handles.contains i → s'.handles.get? i = s.handles.get? i
  sink : ∀ k, s'.sinks.contains k → s'.sinks.get? k = s.sinks.get? k
  /-- Each handle that has ended has left a notice. It was held by a sink that has ended too, or by
  the filter of a node that was cleared or has ended. -/
  notices : ∃ ended : List Notice, s'.notices = s.notices ++ ended ∧
    (∀ a, a ∈ ended ↔ s.handles.get? a.handle = some a.node ∧ ¬ s'.handles.contains a.handle) ∧
    ∀ a ∈ ended,
      (∃ k b, s.sinks.get? k = some b ∧ ¬ s'.sinks.contains k ∧
        .handle a.handle ∈ refsOfActions b.allActions) ∨
      ∃ m f, (s.node m).filter? = some f ∧
        (m = n ∨ s.tree.Below n m ∨ ¬ s'.tree.contains m) ∧ .handle a.handle ∈ refsOfFilter f
  /-- The baseline and the kind of tree are as they were, and no numbers were given. -/
  baseline : s'.tree.baseline = s.tree.baseline
  strong : s'.tree.strong = s.tree.strong
  next : s'.tree.nodes.next = s.tree.nodes.next
  /-- The namespace with its levels, filters and hooks, the metrics, the client, the journal and
  what running calls hold on to are as they were. -/
  rest : s' = { s with
    tree := s'.tree, handles := s'.handles, sinks := s'.sinks, notices := s'.notices }

/-- The session once a node was reset, before anything has ended. -/
def wiped (s : Session) (n : NodeId) : Session := { s with tree := s.tree.reset n }

lemma has_wiped : (s.wiped n).Has r ↔ s.Has r := by
  cases r with
  | node m => exact Bool.coe_iff_coe.2 Tree.contains_reset
  | handle | sink => rfl

lemma Sheds.contains_wiped (h : (s.wiped n).Sheds s') (hm : s'.tree.contains m) :
    s.tree.contains m :=
  has_wiped.1 (h.has (.node m) hm)

lemma Sheds.baseline_wiped (h : (s.wiped n).Sheds s') : s'.tree.baseline = s.tree.baseline :=
  h.baseline.trans Tree.baseline_reset

lemma Sheds.outside (h : (s.wiped n).Sheds s') (ht : s.tree.WellShaped) (hne : m ≠ n)
    (hb : ¬ s.tree.Below n m) (hm : s'.tree.contains m) : s'.node m = s.node m :=
  (h.node m hm).trans (Tree.node_reset_other ht hne hb)

lemma Sheds.child?_iff (h : (s.wiped n).Sheds s') (ht : s.tree.WellShaped) :
    s'.tree.child? p k = some c ↔ s.tree.child? p k = some c ∧ p ≠ n ∧ ¬ s.tree.Below n p := by
  rw [← Tree.child?_reset ht]
  refine ⟨fun hk => ?_, h.entry p k c⟩
  have hp := h.node p (Tree.contains_of_child hk)
  rwa [Tree.child?, show s'.tree.node p = (s.tree.reset n).node p from hp] at hk

/-- The node is older than those below it, so its own entry is not among theirs. -/
lemma Sheds.child?_self_iff (h : (s.wiped n).Sheds s') (ht : s.tree.WellShaped) :
    s'.tree.child? p k = some n ↔ s.tree.child? p k = some n := by
  rw [h.child?_iff ht, and_iff_left_iff_imp]
  intro hk
  have hlt := ht.older hk
  exact ⟨Nat.ne_of_lt hlt, fun hb => Nat.lt_asymm hlt (hb.lt ht)⟩

lemma Sheds.node_self (h : (s.wiped n).Sheds s') (ht : s.tree.WellShaped)
    (hn : s'.tree.contains n) : s'.tree.node n = (s.node n).blank (s.tree.inherited n) :=
  (h.node n hn).trans (Tree.node_reset_self ht (h.contains_wiped hn))

/-- The parent of the node is none of those that were reset. -/
lemma Sheds.inherited_self (h : (s.wiped n).Sheds s') (ht : s.tree.WellShaped) (hg' : s'.Grounded)
    (hn : s'.tree.contains n) : s'.tree.inherited n = s.tree.inherited n := by
  have hparent : (s'.tree.node n).parent? = (s.tree.node n).parent? := by
    rw [h.node_self ht hn]
    rfl
  rw [Tree.inherited, Tree.inherited, hparent, h.baseline_wiped]
  cases hp : (s.tree.node n).parent? with
  | none => rfl
  | some p =>
    have hlt := ht.parent_older hp
    have hnode : s'.node p = s.node p :=
      h.outside ht (Nat.ne_of_lt hlt) (fun hb => Nat.lt_asymm hlt (hb.lt ht))
        (hg'.parent (hparent.trans hp))
    exact congrArg Node.effective hnode

lemma handle_mem_refsOfNode_iff {a : Node} {i : HandleId} :
    .handle i ∈ refsOfNode a ↔ ∃ f, a.filter? = some f ∧ .handle i ∈ refsOfFilter f := by
  simp [mem_refsOfNode_iff]

/-- A handle that has ended was held by something that is gone, and only sinks and filters hold
handles and may go. -/
lemma Sheds.holder (h : (s.wiped n).Sheds s') (hs : s.Settled) {i : HandleId}
    (hi : s.handles.contains i) (hgone : ¬ s'.handles.contains i) :
    (∃ k b, s.sinks.get? k = some b ∧ ¬ s'.sinks.contains k ∧
        .handle i ∈ refsOfActions b.allActions) ∨
      ∃ m f, (s.node m).filter? = some f ∧
        (s'.tree.contains m → s'.node m ≠ s.node m) ∧ .handle i ∈ refsOfFilter f := by
  have hnot : .handle i ∉ s'.refs := fun hr => hgone (h.kept (.handle i) hi hr)
  have hrest := h.rest
  rcases mem_refs_iff.1 (hs (.handle i) hi) with hr | hr | ⟨ns, hns, hr⟩ | ⟨j, m, -, hr⟩ |
    ⟨k, b, hb, hr⟩ | ⟨m, hm, hr⟩
  · refine absurd (mem_refs_of_inUse ?_) hnot
    rwa [hrest]
  · refine absurd (mem_refs_of_client ?_) hnot
    rwa [hrest]
  · have hns' : s'.scope? = some ns := by rwa [hrest]
    exact absurd (mem_refs_of_scope hns' hr) hnot
  · cases hr
  · refine Or.inl ⟨k, b, hb, fun hk => hnot ?_, hr⟩
    have hb' : s'.sinks.get? k = some b := (h.sink k hk).trans hb
    exact mem_refs_iff.2 (Or.inr (Or.inr (Or.inr (Or.inr (Or.inl ⟨k, b, hb', hr⟩)))))
  · obtain ⟨f, hf, hr'⟩ := handle_mem_refsOfNode_iff.1 hr
    refine Or.inr ⟨m, f, hf, fun hc heq => hnot (mem_refs_of_node hc ?_), hr'⟩
    rwa [show s'.tree.node m = s.tree.node m from heq]

lemma sound_wiped (hs : s.Sound) (n : NodeId) : (s.wiped n).Sound := (leads_reset s n).sound hs

lemma sound_reset (hs : s.Sound) (n : NodeId) : ((Run.reset n).run s).2.Sound :=
  (leads_settle (s.wiped n)).sound (sound_wiped hs n)

lemma grounded_reset (hs : s.Sound) (hg : s.Grounded) (n : NodeId) :
    ((Run.reset n).run s).2.Grounded :=
  (ends_settle (s.wiped n)).grounded (sound_wiped hs n) (hg.reset hs n)

/-- What a reset of a node leaves of a settled session. -/
theorem resets_reset (hs : s.Sound) (hg : s.Grounded) (hsettled : s.Settled) (n : NodeId) :
    s.Resets n ((Run.reset n).run s).2 := by
  have ht := hs.tree.toWellShaped
  have ht' := (sound_reset hs n).tree.toWellShaped
  have hg' := grounded_reset hs hg n
  have hkeeps : (s.wiped n).Keeps ((Run.reset n).run s).2 := (ends_settle (s.wiped n)).keeps
  have hsettled' : ((Run.reset n).run s).2.Settled := settled_settle (s.wiped n)
  have h : (s.wiped n).Sheds ((Run.reset n).run s).2 := sheds_settle (sound_wiped hs n)
  generalize ((Run.reset n).run s).2 = s' at *
  constructor
  case self =>
    intro hn
    have hnode : s'.node n = _ := h.node_self ht hn
    rw [hnode, h.inherited_self ht hg' hn]
    exact Node.cleared_blank _ _
  case below =>
    intro m hb hm
    have hnode : s'.node m = _ := (h.node m hm).trans (Tree.node_reset_below ht hb)
    rw [hnode, h.baseline_wiped]
    exact Node.cleared_blank _ _
  case cut =>
    intro m hb p k hk
    obtain ⟨hk, hp, hpb⟩ := (h.child?_iff ht).1 hk
    exact (hb.of_child ht hk).elim hp hpb
  case outside => exact fun m => h.outside ht
  case entries => exact fun p k c => h.child?_iff ht
  case place => exact fun p k => h.child?_self_iff ht
  case stays =>
    rintro (⟨p, k, hk⟩ | hn | ⟨i, hi, hheld⟩)
    · exact ht'.present ((h.child?_self_iff ht).2 hk)
    · exact hg'.outer (hkeeps.outerRefs ▸ hn)
    · exact hg'.bound ((hkeeps.held hheld).trans hi)
  case left =>
    intro r
    rw [← has_wiped (s := s) (n := n)]
    exact ⟨fun hr => ⟨h.has r hr, hsettled' r hr⟩, fun hr => h.kept r hr.1 hr.2⟩
  case handle => exact h.handle
  case sink => exact h.sink
  case notices =>
    obtain ⟨ended, he, hended⟩ := h.notices
    refine ⟨ended, he, hended, fun a ha => ?_⟩
    obtain ⟨hi, hgone⟩ := (hended a).1 ha
    have hi' : s.handles.contains a.handle := Option.isSome_of_eq_some hi
    refine (h.holder hsettled hi' hgone).imp_right ?_
    rintro ⟨m, f, hf, hm, hr⟩
    refine ⟨m, f, hf, ?_, hr⟩
    by_contra hnot
    rw [not_or, not_or, not_not] at hnot
    exact hm hnot.2.2 (h.outside ht hnot.1 hnot.2.1 hnot.2.2)
  case baseline => exact h.baseline_wiped
  case strong => exact h.strong.trans (Tree.Change.reset n).strong
  case next => exact h.next.trans Tree.next_reset
  case rest => exact h.rest

/-! ### After a reset -/

/-- In a later session the nodes that were below a node are entered nowhere, and what is found or
made below it has a number that had not been given. -/
structure Renews (s : Session) (n : NodeId) (u : Session) : Prop where
  cut : ∀ m, s.tree.Below n m → ∀ p k, u.tree.child? p k ≠ some m
  found : ∀ path c, path ≠ [] → u.tree.find? n path = some c → s.tree.nodes.next ≤ c
  made : u.tree.contains n → ∀ path, path ≠ [] →
    s.tree.nodes.next ≤ (u.tree.getOrCreate n path).1

/-- After a reset only new nodes come to be below the node. -/
lemma Resets.next_le_of_below (h : s.Resets n s') (hs' : s'.Sound) (hu : s'.Leads u)
    (hb : u.tree.Below n c) : s.tree.nodes.next ≤ c := by
  obtain ⟨k, d, hk, -, hd⟩ := Tree.down_iff_head.1 hb
  have hdc : d ≤ c := by
    rcases hd with rfl | hd
    · exact Nat.le_refl c
    · exact Nat.le_of_lt (hd.lt (hu.sound hs').tree.toWellShaped)
  rcases hu.child? hs' hk with hk | hnew
  · exact absurd rfl ((h.entries n k d).1 hk).2.1
  · rw [h.next] at hnew
    exact Nat.le_trans hnew hdc

lemma Resets.renews (h : s.Resets n s') (hs : s.Sound) (hs' : s'.Sound) (hu : s'.Leads u) :
    s.Renews n u where
  cut m hb p k hk := by
    rcases hu.child? hs' hk with hk | hnew
    · exact h.cut m hb p k hk
    · have hlt := Tree.lt_next_of_contains (hb.contains hs.tree.toWellShaped)
      rw [h.next] at hnew
      exact Nat.lt_irrefl m (Nat.lt_of_lt_of_le hlt hnew)
  found path c hp hc := h.next_le_of_below hs' hu (Tree.below_of_find? hp hc)
  made hn path hp := by
    have hsound := hu.sound hs'
    have hmake := (leads_getOrCreate hsound (Tree.lt_next_of_contains hn) path).1
    have hway := Tree.follows_getOrCreate hsound.tree.toWellShaped hn path
    exact h.next_le_of_below hs' (hu.trans hmake)
      (Tree.below_of_find? hp (Tree.find?_eq_some_iff.2 hway))

/-- After any steps, a reset of a node clears it and all nodes below it and takes their entries
away. Whatever else is left in the session is as it was, and only that has ended to which nothing
refers any more. Whatever steps follow, nothing that was ever made before is found below the node
again. -/
theorem resets_steps [Pattern.Engine] (depth : Nat) (strong : Bool) (baseline : Level)
    (levels : List Level) (filters : List (String × NodeFilter)) (before : List Step)
    (n : NodeId) :
    let s := ((new strong baseline levels filters).steps (Calls.within depth) before).2
    let out := (Run.reset n).run s
    out.1 = .ok () ∧ s.Resets n out.2 ∧
      ∀ after : List Step, s.Renews n (out.2.steps (Calls.within depth) after).2 := by
  intro s out
  have hs : s.Sound := sound_steps depth strong baseline levels filters before
  obtain ⟨hg, hsettled⟩ := orderly_steps depth strong baseline levels filters before
  have hresets : s.Resets n out.2 := resets_reset hs hg hsettled n
  have hs' : out.2.Sound := sound_reset hs n
  refine ⟨rfl, hresets, fun after => ?_⟩
  exact hresets.renews hs hs' (leads_steps depth hs' after)

end Session

end Logging
