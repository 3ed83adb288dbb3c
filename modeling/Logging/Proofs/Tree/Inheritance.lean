import Logging.Proofs.Tree.Shape

/-!
# Inheritance of levels

In a sound tree a node with a level of its own has that level's severity in effect, and a child
without one has what its parent has. Passing on a severity may then stop where it is met already:
all that inherit from there have it as well (`Heir.effective_eq`), so after `Tree.setLevel` the new
severity holds at exactly the heirs of the node, however early the walk turned back.
-/

namespace Logging

/-- The node with an explicit level, or none, and the severity that goes with it. -/
def Node.withLevel (a : Node) (l? : Option Level) (severity : Int) : Node :=
  { a with level? := l?, effective := severity }

namespace Tree

variable {t : Tree} {n m p c : NodeId} {k : String} {v : Int}

/-- The nodes below a node that inherit its level, with no explicit level in between. -/
def Heir (t : Tree) : NodeId → NodeId → Prop := t.Down fun c => (t.node c).level? = none

/-- Effective levels are what explicit levels make them. -/
structure LevelsSound (t : Tree) : Prop extends t.WellShaped where
  own : ∀ {n l}, (t.node n).level? = some l → t.effective n = l.severity
  inherit : ∀ {p k c}, t.child? p k = some c → (t.node c).level? = none →
    t.effective c = t.effective p
  base : t.contains root → (t.node root).level? = none → t.effective root = t.baseline

lemma Heir.effective_eq (ht : t.LevelsSound) (h : t.Heir n m) :
    t.effective m = t.effective n := by
  induction h with
  | child h hc => exact ht.inherit h hc
  | step _ h hc ih => exact (ht.inherit h hc).trans ih

lemma Heir.level?_eq_none (h : t.Heir n m) : (t.node m).level? = none := (Down.last h).1

/-! ### New trees -/

/-- The node that a new tree has. -/
def freshRoot (baseline : Int) : Node where
  parent? := none
  name := ""
  fullName := ""
  sinks := { owner := root }
  effective := baseline

lemma node_new (baseline : Int) (strong : Bool) (n : NodeId) :
    (new baseline strong).node n = if n = root then freshRoot baseline else default := by
  have h : (new baseline strong).nodes.get? n =
      if n = root then some (freshRoot baseline) else none := by
    exact Store.get?_push Store.empty (freshRoot baseline) n
  rw [node, h]
  split_ifs <;> rfl

/-- What a new root has in common with nodes that are not there. -/
lemma field_new {α : Type} (field : Node → α) (baseline : Int) (strong : Bool) (n : NodeId)
    (h : field (freshRoot baseline) = field default) :
    field ((new baseline strong).node n) = field default := by
  rw [node_new]
  split_ifs
  · exact h
  · rfl

lemma child?_new (baseline : Int) (strong : Bool) : (new baseline strong).child? p k = none :=
  field_new (fun a => a.children.get? k) baseline strong p rfl

lemma parent?_new (baseline : Int) (strong : Bool) (n : NodeId) :
    ((new baseline strong).node n).parent? = none :=
  field_new Node.parent? baseline strong n rfl

lemma levelsSound_new (baseline : Int) (strong : Bool) : (new baseline strong).LevelsSound := by
  constructor
  case toWellShaped =>
    constructor
    case parent_older =>
      intro n p hp
      rw [parent?_new] at hp
      cases hp
    all_goals
      intro p k c hk
      rw [child?_new] at hk
      cases hk
  case own =>
    intro n l h
    cases (field_new Node.level? baseline strong n rfl).symm.trans h
  case inherit =>
    intro p k c hk
    rw [child?_new] at hk
    cases hk
  case base =>
    intro _ _
    rw [effective, node_new, if_pos rfl]
    rfl
/-! ### The nearest explicit level -/

/-- The nodes along a path, its start first, as far as they are there. -/
def nodesAlong (t : Tree) (n : NodeId) : List String → List NodeId
  | [] => [n]
  | k :: path => n :: ((t.child? n k).map fun c => t.nodesAlong c path).getD []

/-- The explicit level that is nearest to the end of a path from the root, the end included. -/
def nearestLevel? (t : Tree) (path : List String) : Option Level :=
  (t.nodesAlong root path).reverse.findSome? fun m => (t.node m).level?

/-- The severity of a node's own level, or else one that is given. -/
def ownSeverity (t : Tree) (n : NodeId) (severity : Int) : Int :=
  ((t.node n).level?.map Level.severity).getD severity

lemma LevelsSound.effective_child (ht : t.LevelsSound) (hk : t.child? p k = some c) :
    t.effective c = t.ownSeverity c (t.effective p) := by
  rw [ownSeverity]
  cases hl : (t.node c).level? with
  | none => exact ht.inherit hk hl
  | some l => exact ht.own hl

lemma LevelsSound.effective_root (ht : t.LevelsSound) (hr : t.contains root) :
    t.effective root = t.ownSeverity root t.baseline := by
  rw [ownSeverity]
  cases hl : (t.node root).level? with
  | none => exact ht.base hr hl
  | some l => exact ht.own hl

/-- The nearest level on a list of nodes to which one is added at the far end. -/
lemma findSome?_reverse_cons (t : Tree) (n : NodeId) (ns : List NodeId) (severity : Int) :
    (((n :: ns).reverse.findSome? fun m => (t.node m).level?).map Level.severity).getD severity =
      ((ns.reverse.findSome? fun m => (t.node m).level?).map Level.severity).getD
        (t.ownSeverity n severity) := by
  rw [List.reverse_cons, List.findSome?_append]
  cases hl : ns.reverse.findSome? fun m => (t.node m).level? with
  | none => simp [ownSeverity]
  | some l => simp

/-- A node further down a path has the nearest level on the way, or what the start has. -/
lemma LevelsSound.effective_of_find? (ht : t.LevelsSound) {path : List String}
    (h : t.find? n path = some m) (hn : t.effective n = t.ownSeverity n v) :
    t.effective m =
      (((t.nodesAlong n path).reverse.findSome? fun m => (t.node m).level?).map
        Level.severity).getD v := by
  induction path generalizing n v with
  | nil =>
    cases h
    rw [nodesAlong, findSome?_reverse_cons, hn]
    rfl
  | cons k path ih =>
    obtain ⟨c, hk, hm⟩ := Option.bind_eq_some_iff.1 h
    rw [nodesAlong, hk, findSome?_reverse_cons, ← hn]
    exact ih hm (ht.effective_child hk)

theorem LevelsSound.effective_eq_nearest (ht : t.LevelsSound) {path : List String}
    (hr : t.contains root) (h : t.find? root path = some n) :
    t.effective n = ((t.nearestLevel? path).map Level.severity).getD t.baseline :=
  ht.effective_of_find? h (ht.effective_root hr)

/-! ### The nodes a severity is passed on to -/

lemma heir_of_mem_heirsWithin (d : Nat) (h : m ∈ t.heirsWithin v d n) : t.Heir n m := by
  induction d generalizing n with
  | zero => cases h
  | succ d ih =>
    simp only [heirsWithin, List.mem_flatMap, mem_children_iff] at h
    obtain ⟨c, ⟨k, hk⟩, hm⟩ := h
    split_ifs at hm with hc
    · cases hm
    · simp only [Bool.or_eq_true, not_or, Bool.not_eq_true, Option.isSome_eq_false_iff,
        Option.isNone_iff_eq_none] at hc
      rcases List.mem_cons.1 hm with rfl | hm
      · exact .child hk hc.1
      · exact .head hk hc.1 (ih hm)

/-- An heir is passed the severity, unless it has it already. -/
lemma mem_heirsWithin_of_heir (ht : t.LevelsSound) (d : Nat) (hd : t.nodes.next ≤ n + d)
    (h : t.Heir n m) : m ∈ t.heirsWithin v d n ∨ t.effective m = v := by
  induction d generalizing n with
  | zero =>
    have hm := lt_next_of_contains (h.contains ht.toWellShaped)
    exact absurd (Nat.lt_trans (h.lt ht.toWellShaped) hm) (Nat.not_lt.2 hd)
  | succ d ih =>
    obtain ⟨k, c, hk, hc, hm⟩ := down_iff_head.1 h
    by_cases hv : t.effective c = v
    · -- the walk turns back here, where everything below has the severity
      right
      rcases hm with rfl | hm
      · exact hv
      · exact (Heir.effective_eq ht hm).trans hv
    have hstep : t.nodes.next ≤ c + d := by
      have hnc : n + 1 + d ≤ c + d := Nat.add_le_add_right (ht.older hk) d
      rw [Nat.succ_add_eq_add_succ] at hnc
      exact Nat.le_trans hd hnc
    have hmem : m ∈ c :: t.heirsWithin v d c ∨ t.effective m = v := by
      rcases hm with rfl | hm
      · exact Or.inl List.mem_cons_self
      · exact (ih hstep hm).imp_left (List.mem_cons_of_mem c)
    apply hmem.imp_left
    intro hmem
    simp only [heirsWithin, List.mem_flatMap, mem_children_iff]
    refine ⟨c, ⟨k, hk⟩, ?_⟩
    rw [if_neg]
    · exact hmem
    · simp [hc, hv]

/-! ### Setting a level -/

variable {l? : Option Level}

/-- The severity in effect at a node once its level is set. -/
def settled (t : Tree) (n : NodeId) (l? : Option Level) : Int :=
  (l?.map Level.severity).getD (t.inherited n)

/-- Setting a level as two changes: of the node, and of heirs that have another severity. -/
lemma setLevel_eq (t : Tree) (n : NodeId) (l? : Option Level) :
    t.setLevel n l? =
      (t.modify n fun a => a.withLevel l? (t.settled n l?)).modifyAll
        (if t.effective n = t.settled n l? then []
          else t.heirsWithin (t.settled n l?) t.nodes.next n)
        (setEffective (t.settled n l?)) := rfl

lemma sameShape_setLevel (t : Tree) (n : NodeId) (l? : Option Level) :
    t.SameShape (t.setLevel n l?) := by
  have h := sameShape_modify t n
    (f := fun a => a.withLevel l? (t.settled n l?))
    fun _ => ⟨rfl, rfl, rfl, rfl⟩
  rw [setLevel_eq]
  exact h.trans (sameShape_modifyAll _ _ fun _ => ⟨rfl, rfl, rfl, rfl⟩)

lemma setEffective_self {a : Node} (h : a.effective = v) : setEffective v a = a := by
  subst h
  rfl

lemma setEffective_idem (v : Int) (a : Node) :
    setEffective v (setEffective v a) = setEffective v a := rfl

@[simp] lemma baseline_setLevel (t : Tree) (n : NodeId) (l? : Option Level) :
    (t.setLevel n l?).baseline = t.baseline := by
  simp [setLevel_eq, baseline_modifyAll, baseline_modify]

lemma node_setLevel_self (ht : t.LevelsSound) (hn : t.contains n) :
    (t.setLevel n l?).node n = (t.node n).withLevel l? (t.settled n l?) := by
  rw [setLevel_eq, node_modifyAll _ _ _ (setEffective_idem _), if_neg, node_modify,
    if_pos ⟨rfl, hn⟩]
  rintro ⟨hm, -⟩
  split_ifs at hm
  · cases hm
  · exact Nat.lt_irrefl n ((heir_of_mem_heirsWithin _ hm).lt ht.toWellShaped)

lemma node_setLevel_heir (ht : t.LevelsSound) (hm : t.Heir n m) :
    (t.setLevel n l?).node m = setEffective (t.settled n l?) (t.node m) := by
  have hne : n ≠ m := Nat.ne_of_lt (hm.lt ht.toWellShaped)
  have hc : t.contains m := hm.contains ht.toWellShaped
  rw [setLevel_eq, node_modifyAll _ _ _ (setEffective_idem _), contains_modify, node_modify,
    if_neg fun h : n = m ∧ _ => hne h.1]
  split_ifs with hv h h
  · rfl
  · rw [setEffective_self]
    exact (hm.effective_eq ht).trans hv
  · rfl
  · -- not listed, so the walk met the severity above this node
    rw [setEffective_self]
    have := (mem_heirsWithin_of_heir ht t.nodes.next (Nat.le_add_left _ _) hm).resolve_left
      fun hl => h ⟨hl, hc⟩
    exact this

lemma node_setLevel_other (hne : m ≠ n) (hm : ¬ t.Heir n m) :
    (t.setLevel n l?).node m = t.node m := by
  rw [setLevel_eq, node_modifyAll _ _ _ (setEffective_idem _), if_neg, node_modify,
    if_neg fun h : n = m ∧ _ => hne h.1.symm]
  rintro ⟨hl, -⟩
  split_ifs at hl
  · cases hl
  · exact hm (heir_of_mem_heirsWithin _ hl)

lemma level?_setLevel_of_ne (ht : t.LevelsSound) (hne : m ≠ n) :
    ((t.setLevel n l?).node m).level? = (t.node m).level? := by
  by_cases hm : t.Heir n m
  · simp [node_setLevel_heir ht hm, setEffective]
  · simp [node_setLevel_other hne hm]

theorem LevelsSound.setLevel (ht : t.LevelsSound) (n : NodeId) (l? : Option Level) :
    (t.setLevel n l?).LevelsSound where
  toWellShaped := ht.of_sameShape (sameShape_setLevel t n l?)
  own {m l} hl := by
    by_cases hm : m = n
    · subst hm
      by_cases hc : t.contains m
      · rw [node_setLevel_self ht hc] at hl
        obtain rfl : l? = some l := hl
        rw [effective, node_setLevel_self ht hc, settled, Option.map_some, Option.getD_some]
        rfl
      · rw [← (sameShape_setLevel t m l?).contains_eq m] at hc
        rw [node_of_not_contains hc] at hl
        cases hl
    · have hl' := hl
      rw [level?_setLevel_of_ne ht hm] at hl'
      have hh : ¬ t.Heir n m := fun hh => by
        rw [hh.level?_eq_none] at hl'
        cases hl'
      rw [effective, node_setLevel_other hm hh]
      exact ht.own hl'
  inherit {p k c} hk hl := by
    rw [(sameShape_setLevel t n l?).child?] at hk
    have hne : p ≠ c := (ht.ne_parent hk).symm
    by_cases hc : c = n
    · -- the node itself: its level was taken away, and it looks at its parent
      subst hc
      have hcc := ht.present hk
      have hp : ¬ t.Heir c p := fun hp =>
        Nat.lt_asymm (hp.lt ht.toWellShaped) (ht.older hk)
      rw [node_setLevel_self ht hcc] at hl
      obtain rfl : l? = none := hl
      rw [effective, effective, node_setLevel_self ht hcc, node_setLevel_other hne hp]
      show t.inherited c = t.effective p
      simp [inherited, ht.parent_eq hk]
    · rw [level?_setLevel_of_ne ht hc] at hl
      by_cases hp : p = n
      · subst hp
        rw [effective, effective, node_setLevel_self ht (contains_of_child hk),
          node_setLevel_heir ht (.child hk hl)]
        rfl
      by_cases hp' : t.Heir n p
      · rw [effective, effective, node_setLevel_heir ht hp',
          node_setLevel_heir ht (.step hp' hk hl), setEffective, setEffective]
      · have hc' : ¬ t.Heir n c := fun h => (h.of_child ht.toWellShaped hk).elim hp hp'
        rw [effective, effective, node_setLevel_other hp hp', node_setLevel_other hc hc']
        exact ht.inherit hk hl
  base hr hl := by
    rw [(sameShape_setLevel t n l?).contains_eq] at hr
    by_cases hn : root = n
    · subst hn
      rw [node_setLevel_self ht hr] at hl
      obtain rfl : l? = none := hl
      rw [effective, node_setLevel_self ht hr, baseline_setLevel]
      show t.inherited root = t.baseline
      simp [inherited, ht.root_parent]
    · have hh : ¬ t.Heir n root := fun h => Nat.not_lt_zero n (h.lt ht.toWellShaped)
      rw [node_setLevel_other hn hh] at hl
      rw [effective, node_setLevel_other hn hh, baseline_setLevel]
      exact ht.base hr hl

end Tree

end Logging
