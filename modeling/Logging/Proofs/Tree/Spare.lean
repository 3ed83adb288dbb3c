import Logging.Proofs.Tree.Entries

/-!
# Spare nodes

A node below the root that is like new is spare: nothing was set on it, no handle is for it and it
has no children. Making the nodes of a path leaves one spare node at most, the one at the end. Where
every node with a parent in the tree is entered there (`Entered`), the only thing that leads to a
spare node is its entry.
-/

namespace Logging

namespace Node

/-- Whether something was set on the node. -/
def isConfigured (a : Node) : Bool :=
  a.level?.isSome || a.filter?.isSome || !a.sinks.isEmpty || a.useParentFilters ||
    !a.useParentSinks || !a.attachments.isEmpty

lemma isDefault_iff {a : Node} :
    a.isDefault ↔ a.isConfigured = false ∧ a.children.isEmpty ∧ a.hasLiveHandles = false := by
  simp only [isDefault, isConfigured, Bool.and_eq_true, Bool.or_eq_false_iff, Bool.not_eq_true',
    Bool.not_eq_false', Option.isNone_iff_eq_none, Option.isSome_eq_false_iff]
  tauto

lemma liveHandles_of_isDefault {a : Node} (h : a.isDefault) : a.liveHandles = [] := by
  have hl := (isDefault_iff.1 h).2.2
  rwa [hasLiveHandles, Bool.not_eq_false', List.isEmpty_iff] at hl

end Node

namespace Tree

variable {t t' : Tree} {n m p c : NodeId} {k : String} {path : List String}

/-! ### Fewer ways -/

lemma Below.of_entries (hb : t'.Below n m)
    (h : ∀ {p k c}, t'.child? p k = some c → t.child? p k = some c) : t.Below n m := by
  induction hb with
  | child hk _ => exact .child (h hk) trivial
  | step _ hk _ ih => exact .step ih (h hk) trivial

lemma SameShape.below (h : t.SameShape t') (hb : t'.Below n m) : t.Below n m :=
  hb.of_entries fun hk => by rwa [h.child?] at hk

/-- A new child is all that a new entry leads to. -/
lemma below_of_newChild (hn : n < t.nodes.next) (hb : (t.newChild n k).Below m p)
    (hp : p ≠ t.nodes.next) : t.Below m p := by
  induction hb with
  | child hk _ =>
    rcases child?_newChild_cases hn hk with ⟨-, -, rfl⟩ | hk
    · exact absurd rfl hp
    · exact .child hk trivial
  | step _ hk _ ih =>
    rcases child?_newChild_cases hn hk with ⟨-, -, rfl⟩ | hk
    · exact absurd rfl hp
    · exact .step (ih (Nat.ne_of_lt (lt_next_of_contains (contains_of_child hk)))) hk trivial

/-- After a reset nothing is below the node, nor are those that were below it in the tree. -/
lemma not_below_of_reset (ht : t.WellShaped) (hp : ¬ t.Below n m) (hb : (t.reset n).Below m p) :
    m ≠ n ∧ ¬ t.Below n p := by
  refine ⟨?_, fun hnp => ?_⟩
  · rintro rfl
    obtain ⟨k, c, hk, -⟩ := down_iff_head.1 hb
    exact ((child?_reset ht).1 hk).2.1 rfl
  · obtain ⟨-, q, j, hj, -⟩ := hb.last
    obtain ⟨hj, hq, hnq⟩ := (child?_reset ht).1 hj
    exact (hnp.of_child ht hj).elim hq hnq

/-! ### Entered nodes -/

/-- A node whose parent is in the tree is entered there. -/
def Entered (t : Tree) : Prop :=
  ∀ c p, (t.node c).parent? = some p → t.Below root p → ∃ k, t.child? p k = some c

/-- What is left of a tree keeps the entries between nodes that are left. -/
lemma Entered.of_entries (he : t.Entered)
    (hparent : ∀ {c}, t'.contains c → (t'.node c).parent? = (t.node c).parent?)
    (hentry : ∀ {p k c}, t'.child? p k = some c → t.child? p k = some c)
    (hkept : ∀ {p k c}, t.child? p k = some c → t'.contains c → t'.Below root p →
      t'.child? p k = some c) : t'.Entered := by
  intro c p hp hb
  have hc := contains_of_parent? hp
  rw [hparent hc] at hp
  obtain ⟨k, hk⟩ := he c p hp (hb.of_entries hentry)
  exact ⟨k, hkept hk hc hb⟩

lemma Entered.of_sameShape (he : t.Entered) (h : t.SameShape t') : t'.Entered :=
  he.of_entries (fun _ => (h.place _).parent) (fun hk => by rwa [h.child?] at hk)
    fun hk _ _ => by rwa [h.child?]

lemma Entered.newChild (he : t.Entered) (ht : t.WellShaped) (hn : n < t.nodes.next)
    (hk : t.child? n k = none) : (t.newChild n k).Entered := by
  intro c p hp hb
  by_cases hc : c = t.nodes.next
  · subst hc
    rw [node_newChild_new hn] at hp
    obtain rfl : n = p := Option.some.inj hp
    have hpc := contains_newChild.1 (hb.contains (ht.newChild hn k))
    refine ⟨k, ?_⟩
    rw [child?_newChild hn, if_pos ⟨rfl, hpc.resolve_left (Nat.ne_of_lt hn), rfl⟩]
  · rw [(kept_newChild hc).parent] at hp
    have hlt := Nat.lt_trans (ht.parent_older hp) (lt_next_of_contains (contains_of_parent? hp))
    obtain ⟨j, hj⟩ := he c p hp (below_of_newChild hn hb (Nat.ne_of_lt hlt))
    exact ⟨j, child?_newChild_of_some hn hk hj⟩

lemma Entered.getOrCreate (he : t.Entered) (ht : t.WellShaped) (hn : n < t.nodes.next)
    (path : List String) : (t.getOrCreate n path).2.Entered :=
  getOrCreate_induction ht hn he fun _ _ _ _ ht hn hk he => he.newChild ht hn hk

/-! ### Spare nodes -/

/-- A node of the tree that is like new. -/
def Spare (t : Tree) (n : NodeId) : Prop := t.Below root n ∧ (t.node n).isDefault

lemma Spare.ne_root (h : t.Spare n) (ht : t.WellShaped) : n ≠ root := by
  rintro rfl
  exact Nat.lt_irrefl root (h.1.lt ht)

lemma Spare.child? (h : t.Spare n) (k : String) : t.child? n k = none :=
  Node.children_of_isDefault h.2 k

/-- The entry of a spare node is under its name, at its parent. -/
lemma Spare.entry (h : t.Spare n) (ht : t.WellShaped) :
    ∃ p, (t.node n).parent? = some p ∧ t.child? p (t.node n).name = some n := by
  obtain ⟨-, p, k, hk, -⟩ := h.1.last
  exact ⟨p, ht.parent_eq hk, (ht.name_eq hk).symm ▸ hk⟩

lemma Spare.of_entries (h : t'.Spare n)
    (hentry : ∀ {p k c}, t'.child? p k = some c → t.child? p k = some c)
    (hnode : t'.node n = t.node n) : t.Spare n :=
  ⟨h.1.of_entries hentry, hnode ▸ h.2⟩

/-- A change of one node makes no other one spare. -/
lemma Spare.of_modify {f : Node → Node} (hf : ∀ a, (f a).SamePlace a) (h : (t.modify m f).Spare n)
    (hn : n ≠ m) : t.Spare n := by
  refine h.of_entries (fun hk => by rwa [(sameShape_modify t m hf).child?] at hk) ?_
  rw [node_modify, if_neg fun h' => hn h'.1.symm]

lemma Spare.of_setLevel {l? : Option Level} (ht : t.LevelsSound) (h : (t.setLevel m l?).Spare n)
    (hn : n ≠ m) : t.Spare n := by
  refine ⟨(sameShape_setLevel t m l?).below h.1, ?_⟩
  have hd := h.2
  by_cases hh : t.Heir m n
  · rwa [node_setLevel_heir ht hh] at hd
  · rwa [node_setLevel_other hn hh] at hd

lemma Spare.of_reset (ht : t.WellShaped) (h : (t.reset m).Spare n) (hn : n ≠ m) : t.Spare n := by
  have hroot : ¬ t.Below m root := fun hb => Nat.not_lt_zero m (hb.lt ht)
  have hb := not_below_of_reset ht hroot h.1
  exact h.of_entries (fun hk => ((child?_reset ht).1 hk).1) (node_reset_other ht hn hb.2)

lemma Spare.of_newChild (ht : t.WellShaped) (hm : m < t.nodes.next) (h : (t.newChild m k).Spare n)
    (hn : n ≠ t.nodes.next) : t.Spare n ∧ n ≠ m := by
  have hb := below_of_newChild hm h.1 hn
  have hnm : n ≠ m := by
    rintro rfl
    have hk : (t.newChild n k).child? n k = some t.nodes.next := by
      rw [child?_newChild hm, if_pos ⟨rfl, hb.contains ht, rfl⟩]
    rw [h.child?] at hk
    cases hk
  refine ⟨⟨hb, ?_⟩, hnm⟩
  have hd := h.2
  rwa [node_newChild_old hn, if_neg fun h' => hnm h'.1.symm] at hd

/-- Where no node was spare but the start of a path, none is but the end once its nodes are made. -/
theorem Spare.of_getOrCreate (ht : t.WellShaped) (hm : m < t.nodes.next)
    (hstart : ∀ n, t.Spare n → n = m) (h : (t.getOrCreate m path).2.Spare n) :
    n = (t.getOrCreate m path).1 := by
  induction path generalizing t m with
  | nil => exact hstart n h
  | cons k path ih =>
    rw [getOrCreate] at h ⊢
    cases hk : t.child? m k with
    | some c =>
      rw [hk] at h
      refine ih ht (lt_next_of_contains (ht.present hk)) (fun x hx => ?_) h
      obtain rfl := hstart x hx
      rw [hx.child?] at hk
      cases hk
    | none =>
      rw [hk] at h
      have hc : t.nodes.next < (t.newChild m k).nodes.next :=
        lt_next_of_contains (contains_newChild.2 (Or.inl rfl))
      refine ih (ht.newChild hm k) hc (fun x hx => ?_) h
      by_contra hne
      obtain ⟨hx, hxm⟩ := hx.of_newChild ht hm hne
      exact hxm (hstart x hx)

/-! ### Ways up -/

lemma head?_lineage (t : Tree) (n : NodeId) : (t.lineage n).head? = some n := by
  rw [lineage]
  split
  · rfl
  · split_ifs <;> rfl

/-- The way up from a node goes on with that of its parent. -/
lemma lineage_of_parent? (ht : t.WellShaped) (hp : (t.node n).parent? = some p) :
    t.lineage n = n :: t.lineage p := by
  rw [lineage, hp]
  simp only [if_pos (ht.parent_older hp)]

lemma exists_lineage_eq_cons (ht : t.WellShaped) (hp : (t.node n).parent? = some p) :
    ∃ l, t.lineage n = n :: p :: l := by
  obtain ⟨l, hl⟩ := List.head?_eq_some_iff.1 (head?_lineage t p)
  exact ⟨l, by rw [lineage_of_parent? ht hp, hl]⟩

lemma lineage_cons_cons (ht : t.WellShaped) {l : List NodeId} (h : t.lineage m = n :: p :: l) :
    n = m ∧ (t.node n).parent? = some p ∧ t.lineage p = p :: l := by
  cases hp : (t.node m).parent? with
  | none =>
    rw [lineage, hp] at h
    cases h
  | some q =>
    rw [lineage_of_parent? ht hp] at h
    obtain ⟨rfl, hl⟩ := List.cons.inj h
    have hhead := head?_lineage t q
    rw [hl] at hhead
    obtain rfl : p = q := Option.some.inj hhead
    exact ⟨rfl, hp, hl⟩

end Tree

end Logging
