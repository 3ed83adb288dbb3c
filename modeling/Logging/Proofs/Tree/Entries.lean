import Logging.Proofs.Tree.Changes

/-!
# Entries that stay

A node is found under a path as long as the entries on its way down from the root stay, whatever
happens elsewhere (`Upholds.find?_eq`). Making the nodes of a path only adds entries, and adds none
if the node at its end is there.
-/

namespace Logging.Tree

variable {t t' : Tree} {n m p c : NodeId} {j k : String} {path : List String}

/-! ### Ways to a node -/

lemma Below.trans (h : t.Below n m) (h' : t.Below m c) : t.Below n c := by
  induction h' with
  | child hk hc => exact .step h hk hc
  | step _ hk hc ih => exact .step ih hk hc

lemma below_of_child (hk : t.child? p k = some c) (hc : c = n ∨ t.Below c n) : t.Below p n := by
  rcases hc with rfl | hc
  · exact .child hk trivial
  · exact .head hk trivial hc

/-- The entries on all ways to a node are kept. -/
structure Upholds (t t' : Tree) (n : NodeId) : Prop where
  entry : ∀ {p k c}, t.child? p k = some c → c = n ∨ t.Below c n → t'.child? p k = some c

lemma Upholds.refl (t : Tree) (n : NodeId) : t.Upholds t n := ⟨fun hk _ => hk⟩

lemma upholds_of_child? (h : ∀ {p k c}, t.child? p k = some c → t'.child? p k = some c) :
    t.Upholds t' n := ⟨fun hk _ => h hk⟩

lemma Upholds.below (h : t.Upholds t' n) (hm : t.Below m n) : t'.Below m n := by
  have hway : ∀ {c}, t.Below m c → c = n ∨ t.Below c n → t'.Below m c := by
    intro c hc
    induction hc with
    | child hk => exact fun hn => .child (h.entry hk hn) trivial
    | step hp hk _ ih =>
      exact fun hn => .step (ih (Or.inr (below_of_child hk hn))) (h.entry hk hn) trivial
  exact hway hm (Or.inl rfl)

lemma Upholds.trans {t'' : Tree} (h : t.Upholds t' n) (h' : t'.Upholds t'' n) : t.Upholds t'' n :=
  ⟨fun hk hc => h'.entry (h.entry hk hc) (hc.imp_right h.below)⟩

/-- Where the entries on its ways are kept, a node is found as before, and so are those on the
way. -/
theorem Upholds.find?_eq (h : t.Upholds t' n) (hn : t.find? m path = some n) {q : List String}
    (hq : q <+: path) : t'.find? m q = t.find? m q := by
  induction path generalizing m q with
  | nil =>
    obtain rfl := List.prefix_nil.1 hq
    rfl
  | cons k path ih =>
    cases q with
    | nil => rfl
    | cons j q =>
      obtain ⟨rfl, hrest⟩ := List.cons_prefix_cons.1 hq
      obtain ⟨c, hk, hn⟩ := Option.bind_eq_some_iff.1 hn
      have hc : c = n ∨ t.Below c n := by
        cases path with
        | nil => exact Or.inl (Option.some.inj hn)
        | cons j path => exact Or.inr (below_of_find? (List.cons_ne_nil j path) hn)
      rw [find?, find?, hk, h.entry hk hc]
      exact ih hn hrest

/-! ### Making the nodes of a path -/

/-- What holds on when a child is made holds when all nodes of a path are. -/
theorem getOrCreate_induction {motive : Tree → Prop} (ht : t.WellShaped) (hn : n < t.nodes.next)
    (start : motive t)
    (step : ∀ t n k, k ∈ path → t.WellShaped → n < t.nodes.next → t.child? n k = none →
      motive t → motive (t.newChild n k)) :
    motive (t.getOrCreate n path).2 := by
  induction path generalizing t n with
  | nil => exact start
  | cons k path ih =>
    have hmore : ∀ t n j, j ∈ path → t.WellShaped → n < t.nodes.next → t.child? n j = none →
        motive t → motive (t.newChild n j) := fun t n j hj =>
      step t n j (List.mem_cons_of_mem k hj)
    rw [getOrCreate]
    cases hk : t.child? n k with
    | some c => exact ih ht (lt_next_of_contains (ht.present hk)) start hmore
    | none =>
      have hc : t.nodes.next < (t.newChild n k).nodes.next :=
        lt_next_of_contains (contains_newChild.2 (Or.inl rfl))
      exact ih (ht.newChild hn k) hc (step t n k List.mem_cons_self ht hn hk start) hmore

/-- A new child takes no entry away. -/
lemma child?_newChild_of_some (hn : n < t.nodes.next) (hj : t.child? n j = none)
    (hk : t.child? p k = some c) : (t.newChild n j).child? p k = some c := by
  rw [child?_newChild hn, if_neg]
  · exact hk
  · rintro ⟨rfl, -, rfl⟩
    rw [hj] at hk
    cases hk

lemma child?_getOrCreate_of_some (ht : t.WellShaped) (hn : n < t.nodes.next)
    (hk : t.child? p k = some c) : (t.getOrCreate n path).2.child? p k = some c :=
  getOrCreate_induction (motive := fun t => t.child? p k = some c) ht hn hk
    fun _ _ _ _ _ hn hj => child?_newChild_of_some hn hj

/-- A path whose nodes are all there needs none to be made. -/
lemma getOrCreate_of_find? (h : t.find? n path = some m) : t.getOrCreate n path = (m, t) := by
  induction path generalizing n with
  | nil =>
    cases h
    rfl
  | cons k path ih =>
    obtain ⟨c, hk, hm⟩ := Option.bind_eq_some_iff.1 h
    rw [getOrCreate, hk]
    exact ih hm

end Logging.Tree
