import Mathlib.Data.List.Nodup
import Mathlib.Tactic.Common
import Logging.Tree.Reset

/-!
# The shape of logger trees

A child is entered at its parent under its own name, knows that parent, and is younger than it.
So every walk down a tree ends, and the bound on depth that `Tree.below` and `Tree.setLevel` carry
cuts nothing off: they reach exactly the nodes at the end of a way down.
-/

namespace Logging

/-- Two nodes that stand in the same place. -/
structure Node.SamePlace (a b : Node) : Prop where
  parent : a.parent? = b.parent?
  name : a.name = b.name
  fullName : a.fullName = b.fullName
  children : a.children = b.children

lemma Node.SamePlace.trans {a b c : Node} (h : a.SamePlace b) (h' : b.SamePlace c) :
    a.SamePlace c :=
  ⟨h.parent.trans h'.parent, h.name.trans h'.name, h.fullName.trans h'.fullName,
    h.children.trans h'.children⟩

/-- A node that has kept its name, its parent and its levels. -/
structure Node.Kept (a b : Node) : Prop where
  parent : a.parent? = b.parent?
  name : a.name = b.name
  fullName : a.fullName = b.fullName
  level : a.level? = b.level?
  effective : a.effective = b.effective

lemma Node.Kept.trans {a b c : Node} (h : a.Kept b) (h' : b.Kept c) : a.Kept c :=
  ⟨h.parent.trans h'.parent, h.name.trans h'.name, h.fullName.trans h'.fullName,
    h.level.trans h'.level, h.effective.trans h'.effective⟩

/-- A change of a node that leaves it in its place, with its name and its levels. -/
structure Node.Setting (f : Node → Node) : Prop where
  place : ∀ a, (f a).SamePlace a
  kept : ∀ a, (f a).Kept a

lemma Node.setting_filter (filter? : Option NodeFilter) :
    Setting fun a => { a with filter? } where
  place _ := ⟨rfl, rfl, rfl, rfl⟩
  kept _ := ⟨rfl, rfl, rfl, rfl, rfl⟩

lemma Node.setting_sinks (sinks : SinkArray SinkId) : Setting fun a => { a with sinks } where
  place _ := ⟨rfl, rfl, rfl, rfl⟩
  kept _ := ⟨rfl, rfl, rfl, rfl, rfl⟩

lemma Node.setting_live (f : List HandleId → List HandleId) :
    Setting fun a => { a with liveHandles := f a.liveHandles } where
  place _ := ⟨rfl, rfl, rfl, rfl⟩
  kept _ := ⟨rfl, rfl, rfl, rfl, rfl⟩

/-- A change of flags and attachments alone. -/
def Node.Adjusts (f : Node → Node) : Prop := ∀ a, ∃ pf ps attachments,
  f a = { a with useParentFilters := pf, useParentSinks := ps, attachments }

lemma Node.Adjusts.setting {f : Node → Node} (h : Adjusts f) : Setting f := by
  constructor
  case place =>
    intro a
    obtain ⟨pf, ps, attachments, hf⟩ := h a
    rw [hf]
    exact ⟨rfl, rfl, rfl, rfl⟩
  case kept =>
    intro a
    obtain ⟨pf, ps, attachments, hf⟩ := h a
    rw [hf]
    exact ⟨rfl, rfl, rfl, rfl, rfl⟩

lemma Node.adjusts_parentFilters (value : Bool) :
    Adjusts fun a => { a with useParentFilters := value } :=
  fun a => ⟨value, a.useParentSinks, a.attachments, rfl⟩

lemma Node.adjusts_parentSinks (value : Bool) :
    Adjusts fun a => { a with useParentSinks := value } :=
  fun a => ⟨a.useParentFilters, value, a.attachments, rfl⟩

lemma Node.adjusts_attachments (attachments : Attachments) :
    Adjusts fun a => { a with attachments } :=
  fun a => ⟨a.useParentFilters, a.useParentSinks, attachments, rfl⟩

namespace Tree

variable {t t' : Tree} {n m p q c : NodeId} {j k : String}

/-! ### Nodes and children -/

lemma node_of_not_contains (h : ¬ t.contains n) : t.node n = default := by
  simp only [contains, Store.contains, Bool.not_eq_true, Option.isSome_eq_false_iff,
    Option.isNone_iff_eq_none] at h
  simp [node, h]

lemma contains_of_parent? (h : (t.node n).parent? = some p) : t.contains n := by
  by_contra hn
  rw [node_of_not_contains hn] at h
  cases h

lemma lt_next_of_contains (h : t.contains n) : n < t.nodes.next := by
  obtain ⟨a, ha⟩ := Option.isSome_iff_exists.1 h
  exact Store.lt_next_of_get? ha

lemma child?_of_not_contains (h : ¬ t.contains n) (k : String) : t.child? n k = none := by
  rw [child?, node_of_not_contains h]
  rfl

lemma contains_of_child (h : t.child? p k = some c) : t.contains p := by
  by_contra hp
  rw [child?_of_not_contains hp] at h
  cases h

lemma mem_children_iff : c ∈ t.children n ↔ ∃ k, t.child? n k = some c := by
  simp only [children, Dict.values, List.mem_map, Prod.exists, exists_eq_right, child?,
    Dict.mem_entries_iff]

/-- Each of several nodes is changed once. -/
lemma node_modifyAll_of_nodup (t : Tree) {ns : List NodeId} (hns : ns.Nodup) (m : NodeId)
    (f : Node → Node) :
    (t.modifyAll ns f).node m = if m ∈ ns ∧ t.contains m then f (t.node m) else t.node m := by
  induction ns generalizing t with
  | nil => simp [modifyAll]
  | cons n ns ih =>
    obtain ⟨hn, hns⟩ := List.nodup_cons.1 hns
    have h := ih (t.modify n f) hns
    rw [contains_modify, node_modify] at h
    refine h.trans ?_
    by_cases hm : n = m
    · subst hm
      simp [hn]
    · simp [hm, Ne.symm hm]

/-- What holds of the entries and the parents in every tree that a session builds. -/
structure WellShaped (t : Tree) : Prop where
  present : ∀ {p k c}, t.child? p k = some c → t.contains c
  parent_eq : ∀ {p k c}, t.child? p k = some c → (t.node c).parent? = some p
  name_eq : ∀ {p k c}, t.child? p k = some c → (t.node c).name = k
  fullName_eq : ∀ {p k c}, t.child? p k = some c → (t.node c).fullName = (t.node p).childName k
  parent_older : ∀ {n p}, (t.node n).parent? = some p → p < n

lemma WellShaped.older (ht : t.WellShaped) (h : t.child? p k = some c) : p < c :=
  ht.parent_older (ht.parent_eq h)

lemma WellShaped.root_parent (ht : t.WellShaped) : (t.node root).parent? = none :=
  Option.eq_none_iff_forall_ne_some.2 fun _ h => Nat.not_lt_zero _ (ht.parent_older h)

/-- A node is entered in one place at most. -/
lemma WellShaped.entry_unique (ht : t.WellShaped) (h : t.child? p k = some c)
    (h' : t.child? q j = some c) : p = q ∧ k = j :=
  ⟨Option.some.inj ((ht.parent_eq h).symm.trans (ht.parent_eq h')),
    (ht.name_eq h).symm.trans (ht.name_eq h')⟩

lemma WellShaped.ne_root (ht : t.WellShaped) (h : t.child? p k = some c) : c ≠ root :=
  Nat.ne_zero_of_lt (ht.older h)

lemma WellShaped.ne_parent (ht : t.WellShaped) (h : t.child? p k = some c) : c ≠ p :=
  Nat.ne_of_gt (ht.older h)

/-! ### Trees of one shape -/

/-- The same nodes in the same places. -/
structure SameShape (t t' : Tree) : Prop where
  contains_eq : ∀ n, t'.contains n = t.contains n
  place : ∀ n, (t'.node n).SamePlace (t.node n)

lemma SameShape.trans {t'' : Tree} (h : t.SameShape t') (h' : t'.SameShape t'') :
    t.SameShape t'' where
  contains_eq n := (h'.contains_eq n).trans (h.contains_eq n)
  place n := (h'.place n).trans (h.place n)

lemma SameShape.child? (h : t.SameShape t') (n : NodeId) (k : String) :
    t'.child? n k = t.child? n k := by
  simp [Tree.child?, (h.place n).children]

lemma SameShape.childName (h : t.SameShape t') (n : NodeId) (k : String) :
    (t'.node n).childName k = (t.node n).childName k := by
  unfold Node.childName Node.isRoot
  simp [(h.place n).parent, (h.place n).fullName]

lemma WellShaped.of_sameShape (ht : t.WellShaped) (h : t.SameShape t') : t'.WellShaped where
  present hc := by
    rw [h.child?] at hc
    rw [h.contains_eq]
    exact ht.present hc
  parent_eq hc := by
    rw [h.child?] at hc
    rw [(h.place _).parent]
    exact ht.parent_eq hc
  name_eq hc := by
    rw [h.child?] at hc
    rw [(h.place _).name]
    exact ht.name_eq hc
  fullName_eq hc := by
    rw [h.child?] at hc
    rw [(h.place _).fullName, h.childName]
    exact ht.fullName_eq hc
  parent_older hp := by
    rw [(h.place _).parent] at hp
    exact ht.parent_older hp

/-- A change of nodes that leaves each in its place. -/
lemma sameShape_modifyAll (t : Tree) (ns : List NodeId) {f : Node → Node}
    (hf : ∀ a, (f a).SamePlace a) : t.SameShape (t.modifyAll ns f) := by
  induction ns generalizing t with
  | nil => exact ⟨fun _ => rfl, fun _ => ⟨rfl, rfl, rfl, rfl⟩⟩
  | cons n ns ih =>
    have h := ih (t.modify n f)
    refine ⟨fun m => ?_, fun m => ?_⟩
    · exact (h.contains_eq m).trans (contains_modify t n m f)
    · have hm : ((t.modify n f).node m).SamePlace (t.node m) := by
        rw [node_modify]
        split_ifs
        · exact hf _
        · exact ⟨rfl, rfl, rfl, rfl⟩
      exact (h.place m).trans hm

lemma sameShape_modify (t : Tree) (n : NodeId) {f : Node → Node} (hf : ∀ a, (f a).SamePlace a) :
    t.SameShape (t.modify n f) :=
  sameShape_modifyAll t [n] hf

lemma kept_modifyAll (t : Tree) (ns : List NodeId) {f : Node → Node} (hf : ∀ a, (f a).Kept a)
    (m : NodeId) : ((t.modifyAll ns f).node m).Kept (t.node m) := by
  induction ns generalizing t with
  | nil => exact ⟨rfl, rfl, rfl, rfl, rfl⟩
  | cons n ns ih =>
    have hm : ((t.modify n f).node m).Kept (t.node m) := by
      rw [node_modify]
      split_ifs
      · exact hf _
      · exact ⟨rfl, rfl, rfl, rfl, rfl⟩
    exact (ih (t.modify n f)).trans hm

@[simp] lemma baseline_modifyAll (t : Tree) (ns : List NodeId) (f : Node → Node) :
    (t.modifyAll ns f).baseline = t.baseline := by
  induction ns generalizing t with
  | nil => rfl
  | cons n ns ih => exact ih (t.modify n f)

@[simp] lemma baseline_modify (t : Tree) (n : NodeId) (f : Node → Node) :
    (t.modify n f).baseline = t.baseline := rfl

/-! ### Ways down -/

/-- There is a way from a node down to another one, on which all nodes after the first pass a
test. -/
inductive Down (t : Tree) (ok : NodeId → Prop) (n : NodeId) : NodeId → Prop
  | child {k : String} {c : NodeId} (h : t.child? n k = some c) (hc : ok c) : Down t ok n c
  | step {k : String} {p c : NodeId} (hp : Down t ok n p) (h : t.child? p k = some c)
      (hc : ok c) : Down t ok n c

/-- The nodes below a node. -/
def Below (t : Tree) : NodeId → NodeId → Prop := t.Down fun _ => True

variable {ok : NodeId → Prop}

lemma Down.head (h : t.child? n k = some c) (hc : ok c) (hm : t.Down ok c m) : t.Down ok n m := by
  induction hm with
  | child h' hc' => exact .step (.child h hc) h' hc'
  | step _ h' hc' ih => exact .step ih h' hc'

/-- A way down begins with a child. -/
lemma down_iff_head :
    t.Down ok n m ↔ ∃ k c, t.child? n k = some c ∧ ok c ∧ (m = c ∨ t.Down ok c m) := by
  constructor
  · intro h
    induction h with
    | child h hc => exact ⟨_, _, h, hc, Or.inl rfl⟩
    | step _ h' hc' ih =>
      obtain ⟨k, p, h, hp, rfl | hd⟩ := ih
      · exact ⟨k, _, h, hp, Or.inr (.child h' hc')⟩
      · exact ⟨k, p, h, hp, Or.inr (.step hd h' hc')⟩
  · rintro ⟨k, c, h, hc, rfl | hd⟩
    · exact .child h hc
    · exact .head h hc hd

/-- A way down ends with an entry. -/
lemma Down.last (h : t.Down ok n m) :
    ok m ∧ ∃ p k, t.child? p k = some m ∧ (p = n ∨ t.Down ok n p) := by
  cases h with
  | child h hc => exact ⟨hc, n, _, h, Or.inl rfl⟩
  | step hp h hc => exact ⟨hc, _, _, h, Or.inr hp⟩

lemma Down.lt (ht : t.WellShaped) (h : t.Down ok n m) : n < m := by
  induction h with
  | child h => exact ht.older h
  | step _ h _ ih => exact Nat.lt_trans ih (ht.older h)

lemma Down.contains (ht : t.WellShaped) (h : t.Down ok n m) : t.contains m := by
  obtain ⟨-, p, k, hk, -⟩ := h.last
  exact ht.present hk

/-- The parent of a node at the end of a way is the start, or on the way. -/
lemma Down.of_child (ht : t.WellShaped) (h : t.Down ok n c) (hk : t.child? p k = some c) :
    p = n ∨ t.Down ok n p := by
  obtain ⟨-, q, j, hj, hq⟩ := h.last
  rwa [(ht.entry_unique hk hj).1]

lemma mem_belowWithin (d : Nat) (h : m ∈ t.belowWithin d n) : t.Below n m := by
  induction d generalizing n with
  | zero => cases h
  | succ d ih =>
    simp only [belowWithin, List.mem_flatMap, List.mem_cons, mem_children_iff] at h
    obtain ⟨c, ⟨k, hk⟩, rfl | hm⟩ := h
    · exact .child hk trivial
    · exact .head hk trivial (ih hm)

/-- Nodes get younger on the way down, so the number of nodes is depth enough. -/
lemma mem_belowWithin_of_below (ht : t.WellShaped) (d : Nat) (hd : t.nodes.next ≤ n + d)
    (h : t.Below n m) : m ∈ t.belowWithin d n := by
  induction d generalizing n with
  | zero =>
    have hm := lt_next_of_contains (h.contains ht)
    exact absurd (Nat.lt_trans (h.lt ht) hm) (Nat.not_lt.2 hd)
  | succ d ih =>
    obtain ⟨k, c, hk, -, hm⟩ := down_iff_head.1 h
    have hc : n < c := ht.older hk
    simp only [belowWithin, List.mem_flatMap, List.mem_cons, mem_children_iff]
    refine ⟨c, ⟨k, hk⟩, hm.imp_right fun hm => ih ?_ hm⟩
    have : n + (d + 1) ≤ c + d := by
      rw [← Nat.succ_add_eq_add_succ]
      exact Nat.add_le_add_right hc d
    exact Nat.le_trans hd this

theorem mem_below_iff (ht : t.WellShaped) : m ∈ t.below n ↔ t.Below n m :=
  ⟨mem_belowWithin _, mem_belowWithin_of_below ht _ (Nat.le_add_left _ _)⟩

/-- No child of a node is below another one. -/
lemma not_below_sibling (ht : t.WellShaped) (hp : t.child? n j = some p)
    (hq : t.child? n k = some q) : ¬ t.Below q p := by
  intro h
  rcases h.of_child ht hp with rfl | hn
  · exact Nat.lt_irrefl n (ht.older hq)
  · exact Nat.lt_asymm (hn.lt ht) (ht.older hq)

/-- Ways down from two children of a node never meet. -/
lemma sibling_unique (ht : t.WellShaped) (hp : t.child? n j = some p)
    (hq : t.child? n k = some q) (hm : m = p ∨ t.Below p m) (hm' : m = q ∨ t.Below q m) :
    p = q := by
  rcases hm with rfl | hm
  · exact hm'.resolve_right (not_below_sibling ht hp hq)
  · induction hm with
    | child hc =>
      rcases hm' with rfl | hm'
      · exact absurd (.child hc trivial) (not_below_sibling ht hq hp)
      · exact (hm'.of_child ht hc).resolve_right (not_below_sibling ht hp hq)
    | step hr hc _ ih =>
      rcases hm' with rfl | hm'
      · exact absurd (.step hr hc trivial) (not_below_sibling ht hq hp)
      · exact ih (hm'.of_child ht hc)

lemma children_nodup (ht : t.WellShaped) (n : NodeId) : (t.children n).Nodup := by
  have hk : (t.children n).map (fun c => (t.node c).name) =
      (t.node n).children.entries.map Prod.fst := by
    simp only [children, Dict.values, List.map_map]
    apply List.map_congr_left
    intro e he
    exact ht.name_eq (p := n) (Dict.mem_entries_iff.1 he)
  exact .of_map _ (hk ▸ (t.node n).children.nodup)

lemma belowWithin_nodup (ht : t.WellShaped) (d : Nat) (n : NodeId) :
    (t.belowWithin d n).Nodup := by
  induction d generalizing n with
  | zero => exact List.nodup_nil
  | succ d ih =>
    rw [belowWithin, List.nodup_flatMap]
    refine ⟨fun c hc => ?_, ?_⟩
    · refine List.nodup_cons.2 ⟨fun h => ?_, ih c⟩
      exact Nat.lt_irrefl c ((mem_belowWithin d h).lt ht)
    · refine (children_nodup ht n).imp_of_mem fun {p q} hp hq hpq m hm hm' => hpq ?_
      obtain ⟨j, hp⟩ := mem_children_iff.1 hp
      obtain ⟨k, hq⟩ := mem_children_iff.1 hq
      exact sibling_unique ht hp hq ((List.mem_cons.1 hm).imp_right (mem_belowWithin d))
        ((List.mem_cons.1 hm').imp_right (mem_belowWithin d))

/-- A node and the nodes below it, each once. -/
theorem cons_below_nodup (ht : t.WellShaped) (n : NodeId) : (n :: t.below n).Nodup :=
  List.nodup_cons.2 ⟨fun h => Nat.lt_irrefl n (((mem_below_iff ht).1 h).lt ht),
    belowWithin_nodup ht _ n⟩

/-! ### Paths -/

/-- The node at the end of a path that is not empty is below the start. -/
lemma below_of_find? {path : List String} (hp : path ≠ []) (h : t.find? n path = some m) :
    t.Below n m := by
  induction path generalizing n with
  | nil => exact absurd rfl hp
  | cons s path ih =>
    obtain ⟨c, hc, hm⟩ := Option.bind_eq_some_iff.1 h
    cases path with
    | nil =>
      cases hm
      exact .child hc trivial
    | cons s' path => exact .head hc trivial (ih (by simp) hm)

end Tree

end Logging
