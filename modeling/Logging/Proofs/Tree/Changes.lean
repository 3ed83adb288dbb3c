import Logging.Proofs.Tree.Inheritance

/-!
# Changes of logger trees

`Tree.Change` lists all that a session ever does to its tree: it configures a node, sets a level,
makes a child, resets a node, takes the tree down, and lets nodes go. Every change keeps the tree
sound (`Change.levelsSound`).
-/

namespace Logging

/-- The node with a child entered under a segment. -/
def Node.enter (a : Node) (k : String) (c : NodeId) : Node :=
  { a with children := a.children.insert k c }

/-- The node without the entry for a segment. -/
def Node.strike (a : Node) (k : String) : Node := { a with children := a.children.erase k }

/-- A node that is like new has no children. -/
lemma Node.children_of_isDefault {a : Node} (ha : a.isDefault) (k : String) :
    a.children.get? k = none := by
  simp only [isDefault, Bool.and_eq_true, Dict.isEmpty, List.isEmpty_iff] at ha
  obtain ⟨⟨⟨-, hc⟩, -⟩, -⟩ := ha
  simp [Dict.get?, hc]

namespace Tree

variable {t t' : Tree} {n m p c : NodeId} {j k : String}

/-! ### New children -/

/-- The node that is made for a segment below a node. -/
def freshChild (t : Tree) (n : NodeId) (k : String) : Node where
  parent? := some n
  name := k
  fullName := (t.node n).childName k
  sinks := { owner := t.nodes.next }
  effective := t.effective n

/-- The tree with one more node, which is not entered anywhere. -/
def push (t : Tree) (a : Node) : Tree := { t with nodes := t.nodes.push a }

lemma newChild_eq (t : Tree) (n : NodeId) (k : String) :
    t.newChild n k =
      (t.push (t.freshChild n k)).modify n fun a => a.enter k t.nodes.next := rfl

lemma contains_push (a : Node) : (t.push a).contains m ↔ m = t.nodes.next ∨ t.contains m := by
  simp only [contains, push, Store.contains, Store.get?_push]
  split_ifs with h <;> simp [h]

lemma node_push_self (a : Node) : (t.push a).node t.nodes.next = a := by
  simp [node, push, Store.get?_push]

lemma node_push_of_ne (a : Node) (h : m ≠ t.nodes.next) : (t.push a).node m = t.node m := by
  simp [node, push, Store.get?_push, h]

lemma contains_newChild :
    (t.newChild n k).contains m ↔ m = t.nodes.next ∨ t.contains m := by
  simp [newChild_eq, contains_modify, contains_push]

lemma node_newChild_new (hn : n < t.nodes.next) :
    (t.newChild n k).node t.nodes.next = t.freshChild n k := by
  rw [newChild_eq, node_modify, if_neg fun h => Nat.ne_of_lt hn h.1, node_push_self]

/-- The old nodes are as before, but for the new entry. -/
lemma node_newChild_old (hm : m ≠ t.nodes.next) :
    (t.newChild n k).node m =
      if n = m ∧ t.contains m then (t.node m).enter k t.nodes.next else t.node m := by
  rw [newChild_eq, node_modify, node_push_of_ne _ hm]
  simp only [contains_push, hm, false_or]

lemma kept_newChild (hm : m ≠ t.nodes.next) : ((t.newChild n k).node m).Kept (t.node m) := by
  rw [node_newChild_old hm]
  split_ifs <;> exact ⟨rfl, rfl, rfl, rfl, rfl⟩

lemma child?_newChild (hn : n < t.nodes.next) :
    (t.newChild n k).child? p j =
      if n = p ∧ t.contains p ∧ k = j then some t.nodes.next else t.child? p j := by
  by_cases hp : p = t.nodes.next
  · subst hp
    have hc : ¬ t.contains t.nodes.next := fun h => Nat.lt_irrefl _ (lt_next_of_contains h)
    rw [if_neg fun h => hc h.2.1, child?, child?, node_newChild_new hn, node_of_not_contains hc]
    rfl
  · rw [child?, node_newChild_old hp]
    by_cases h : n = p ∧ t.contains p
    · simp [h, Node.enter, Dict.get?_insert, child?]
    · rw [if_neg h, if_neg fun h' => h ⟨h'.1, h'.2.1⟩, child?]

/-! ### Reset -/

lemma blank_effective (a : Node) (v w : Int) : setEffective w (a.blank v) = a.blank w := rfl

lemma reset_eq (t : Tree) (n : NodeId) :
    t.reset n =
      (t.modifyAll (n :: t.below n) (Node.blank · t.baseline)).modify n (setEffective
        ((t.modifyAll (n :: t.below n) (Node.blank · t.baseline)).inherited n)) := rfl

lemma contains_reset : (t.reset n).contains m = t.contains m := by
  simp [reset_eq, contains_modify, contains_modifyAll]

@[simp] lemma baseline_reset : (t.reset n).baseline = t.baseline := by
  simp [reset_eq, baseline_modify, baseline_modifyAll]

/-- The nodes above a node are not among those that are reset with it. -/
lemma inherited_blanked (ht : t.WellShaped) (n : NodeId) :
    (t.modifyAll (n :: t.below n) (Node.blank · t.baseline)).inherited n = t.inherited n := by
  have hnode := node_modifyAll_of_nodup t (cons_below_nodup ht n)
  have hparent : ((t.modifyAll (n :: t.below n) (Node.blank · t.baseline)).node n).parent? =
      (t.node n).parent? := by
    rw [hnode]
    split_ifs <;> rfl
  rw [inherited, inherited, hparent, baseline_modifyAll]
  cases hp : (t.node n).parent? with
  | none => rfl
  | some p =>
    have hlt : p < n := ht.parent_older hp
    have hnot : ¬ (p ∈ n :: t.below n ∧ t.contains p) := by
      rintro ⟨hm, -⟩
      rcases List.mem_cons.1 hm with rfl | hm
      · exact Nat.lt_irrefl p hlt
      · exact Nat.lt_asymm (((mem_below_iff ht).1 hm).lt ht) hlt
    simp only [effective]
    rw [hnode, if_neg hnot]

lemma node_reset_self (ht : t.WellShaped) (hn : t.contains n) :
    (t.reset n).node n = (t.node n).blank (t.inherited n) := by
  rw [reset_eq, node_modify, contains_modifyAll, if_pos ⟨rfl, hn⟩, inherited_blanked ht,
    node_modifyAll_of_nodup t (cons_below_nodup ht n), if_pos ⟨List.mem_cons_self, hn⟩,
    blank_effective]

lemma node_reset_below (ht : t.WellShaped) (hm : t.Below n m) :
    (t.reset n).node m = (t.node m).blank t.baseline := by
  have hne : n ≠ m := Nat.ne_of_lt (hm.lt ht)
  have hmem : m ∈ n :: t.below n := List.mem_cons_of_mem n ((mem_below_iff ht).2 hm)
  rw [reset_eq, node_modify, if_neg fun h => hne h.1,
    node_modifyAll_of_nodup t (cons_below_nodup ht n), if_pos ⟨hmem, hm.contains ht⟩]

lemma node_reset_other (ht : t.WellShaped) (hne : m ≠ n) (hm : ¬ t.Below n m) :
    (t.reset n).node m = t.node m := by
  have hmem : m ∉ n :: t.below n := fun h =>
    (List.mem_cons.1 h).elim hne fun h => hm ((mem_below_iff ht).1 h)
  rw [reset_eq, node_modify, if_neg fun h => hne h.1.symm,
    node_modifyAll_of_nodup t (cons_below_nodup ht n), if_neg fun h => hmem h.1]

/-- After a reset no entries are left at the node and below it, and all others are as before. -/
lemma child?_reset (ht : t.WellShaped) :
    (t.reset n).child? p k = some c ↔
      t.child? p k = some c ∧ p ≠ n ∧ ¬ t.Below n p := by
  by_cases hp : p = n
  · subst hp
    by_cases hc : t.contains p
    · simp [child?, node_reset_self ht hc, Node.blank]
    · have hc' : ¬ (t.reset p).contains p := by rwa [contains_reset]
      simp [child?_of_not_contains hc, child?_of_not_contains hc']
  by_cases hb : t.Below n p
  · simp [child?, node_reset_below ht hb, Node.blank, hb]
  · simp [child?, node_reset_other ht hp hb, hp, hb]

/-! ### Nodes that go -/

/-- The tree without a node. -/
def drop (t : Tree) (n : NodeId) : Tree := { t with nodes := t.nodes.erase n }

lemma contains_drop : (t.drop n).contains m ↔ n ≠ m ∧ t.contains m := by
  simp only [contains, drop, Store.contains, Store.get?_erase]
  split_ifs with h <;> simp [h]

lemma node_drop_of_ne (h : n ≠ m) : (t.drop n).node m = t.node m := by
  simp [node, drop, Store.get?_erase, h]

lemma child?_drop : (t.drop n).child? p k = if n = p then none else t.child? p k := by
  split_ifs with h
  · subst h
    exact child?_of_not_contains (by simp [contains_drop]) k
  · simp [child?, node_drop_of_ne h]

/-! ### Parts of a tree -/

/-- A tree with some of the nodes and entries of another one, none of which has moved or has
another level. -/
structure PartOf (t' t : Tree) : Prop where
  contains : ∀ {m}, t'.contains m → t.contains m
  entry : ∀ {p k c}, t'.child? p k = some c → t.child? p k = some c
  present : ∀ {p k c}, t'.child? p k = some c → t'.contains c
  kept : ∀ {m}, t'.contains m → (t'.node m).Kept (t.node m)
  baseline : t'.baseline = t.baseline

lemma WellShaped.of_partOf (ht : t.WellShaped) (h : t'.PartOf t) : t'.WellShaped where
  present := h.present
  parent_eq hk := by
    rw [(h.kept (h.present hk)).parent]
    exact ht.parent_eq (h.entry hk)
  name_eq hk := by
    rw [(h.kept (h.present hk)).name]
    exact ht.name_eq (h.entry hk)
  fullName_eq {p k c} hk := by
    have hp := h.kept (contains_of_child hk)
    have hname : (t'.node p).childName k = (t.node p).childName k := by
      unfold Node.childName Node.isRoot
      simp [hp.parent, hp.fullName]
    rw [(h.kept (h.present hk)).fullName, hname]
    exact ht.fullName_eq (h.entry hk)
  parent_older {n p} hp := by
    by_cases hn : t'.contains n
    · rw [(h.kept hn).parent] at hp
      exact ht.parent_older hp
    · rw [node_of_not_contains hn] at hp
      cases hp

lemma LevelsSound.of_partOf (ht : t.LevelsSound) (h : t'.PartOf t) : t'.LevelsSound where
  toWellShaped := ht.toWellShaped.of_partOf h
  own {n l} hl := by
    by_cases hn : t'.contains n
    · rw [(h.kept hn).level] at hl
      rw [effective, (h.kept hn).effective]
      exact ht.own hl
    · rw [node_of_not_contains hn] at hl
      cases hl
  inherit {p k c} hk hl := by
    have hc := h.kept (h.present hk)
    rw [hc.level] at hl
    rw [effective, effective, hc.effective, (h.kept (contains_of_child hk)).effective]
    exact ht.inherit (h.entry hk) hl
  base hr hl := by
    rw [(h.kept hr).level] at hl
    rw [effective, (h.kept hr).effective, h.baseline]
    exact ht.base (h.contains hr) hl

/-- A change that takes entries away at most. -/
lemma partOf_modifyAll (ht : t.WellShaped) (ns : List NodeId) {f : Node → Node}
    (hf : ∀ a, (f a).Kept a)
    (hc : ∀ {p k c}, (t.modifyAll ns f).child? p k = some c → t.child? p k = some c) :
    (t.modifyAll ns f).PartOf t where
  contains hm := by rwa [contains_modifyAll] at hm
  entry := hc
  present hk := by
    rw [contains_modifyAll]
    exact ht.present (hc hk)
  kept _ := kept_modifyAll t ns hf _
  baseline := baseline_modifyAll t ns f

lemma partOf_configure (ht : t.WellShaped) (n : NodeId) {f : Node → Node}
    (hf : ∀ a, (f a).SamePlace a) (hk : ∀ a, (f a).Kept a) : (t.modify n f).PartOf t :=
  partOf_modifyAll ht [n] hk fun {p k c} h => by
    rwa [(sameShape_modifyAll t [n] hf).child?] at h

lemma child?_takeDown (ht : t.WellShaped) :
    (t.takeDown n).child? p k = some c ↔
      t.child? p k = some c ∧ p ≠ n ∧ ¬ t.Below n p := by
  rw [child?, takeDown, node_modifyAll_of_nodup t (cons_below_nodup ht n)]
  split_ifs with h
  · have h' := List.mem_cons.1 h.1
    rw [mem_below_iff ht] at h'
    rw [← not_or]
    simp [h']
  · constructor
    · intro hk
      have hp := contains_of_child hk
      have h' : p ∉ n :: t.below n := fun hm => h ⟨hm, hp⟩
      rw [List.mem_cons, mem_below_iff ht, not_or] at h'
      exact ⟨hk, h'⟩
    · exact And.left

lemma contains_takeDown : (t.takeDown n).contains m = t.contains m := by
  rw [takeDown, contains_modifyAll]

lemma takeDown_node_cases (t : Tree) (n m : NodeId) :
    (t.takeDown n).node m = { t.node m with children := ∅ } ∨ (t.takeDown n).node m = t.node m := by
  rw [takeDown, node_modifyAll t _ m (f := fun node => { node with children := ∅ }) fun _ => rfl]
  split_ifs
  · exact Or.inl rfl
  · exact Or.inr rfl

lemma partOf_takeDown (ht : t.WellShaped) (n : NodeId) : (t.takeDown n).PartOf t :=
  partOf_modifyAll ht _ (fun _ => ⟨rfl, rfl, rfl, rfl, rfl⟩)
    fun hk => ((child?_takeDown ht).1 hk).1

lemma partOf_drop (ht : t.WellShaped) (hn : ∀ p k, t.child? p k ≠ some n) :
    (t.drop n).PartOf t where
  contains hm := (contains_drop.1 hm).2
  entry hk := by
    rw [child?_drop] at hk
    split_ifs at hk
    exact hk
  present {p k c} hk := by
    rw [child?_drop] at hk
    split_ifs at hk
    refine contains_drop.2 ⟨?_, ht.present hk⟩
    rintro rfl
    exact hn p k hk
  kept hm := by
    rw [node_drop_of_ne (contains_drop.1 hm).1]
    exact ⟨rfl, rfl, rfl, rfl, rfl⟩
  baseline := rfl

/-- The tree without an entry. -/
def strike (t : Tree) (p : NodeId) (k : String) : Tree := t.modify p fun a => a.strike k

lemma child?_strike :
    (t.strike p k).child? q j = if p = q ∧ k = j then none else t.child? q j := by
  rw [child?, strike, node_modify]
  by_cases h : p = q ∧ t.contains q
  · simp [h, Node.strike, Dict.get?_erase, child?]
  · rw [if_neg h, ← child?]
    split_ifs with h'
    · exact child?_of_not_contains (fun hq => h ⟨h'.1, hq⟩) j
    · rfl

lemma partOf_strike (ht : t.WellShaped) (p : NodeId) (k : String) : (t.strike p k).PartOf t :=
  partOf_modifyAll ht [p] (fun _ => ⟨rfl, rfl, rfl, rfl, rfl⟩) fun hk => by
    have hk' := child?_strike.symm.trans hk
    split_ifs at hk'
    exact hk'

/-- The tree without a child and its entry. -/
def removeChild (t : Tree) (p : NodeId) (k : String) (c : NodeId) : Tree :=
  (t.strike p k).drop c

lemma PartOf.refl (ht : t.WellShaped) : t.PartOf t :=
  ⟨id, id, ht.present, fun _ => ⟨rfl, rfl, rfl, rfl, rfl⟩, rfl⟩

lemma PartOf.trans {t'' : Tree} (h' : t''.PartOf t') (h : t'.PartOf t) : t''.PartOf t where
  contains hm := h.contains (h'.contains hm)
  entry hk := h.entry (h'.entry hk)
  present := h'.present
  kept hm := (h'.kept hm).trans (h.kept (h'.contains hm))
  baseline := h'.baseline.trans h.baseline

lemma partOf_removeChild (ht : t.WellShaped) (hk : t.child? p k = some c) :
    (t.removeChild p k c).PartOf t := by
  have h := partOf_strike ht p k
  refine (partOf_drop (ht.of_partOf h) fun q j hj => ?_).trans h
  -- the entry that was struck is the only one
  obtain ⟨rfl, rfl⟩ := ht.entry_unique hk (h.entry hj)
  rw [child?_strike, if_pos ⟨rfl, rfl⟩] at hj
  cases hj

/-! ### The changes -/

/-- One change of the tree of a session. -/
inductive Change (t : Tree) : Tree → Prop
  | configure (n : NodeId) {f : Node → Node} (hf : ∀ a, (f a).SamePlace a)
      (hk : ∀ a, (f a).Kept a) : Change t (t.modify n f)
  | setLevel (n : NodeId) (l? : Option Level) : Change t (t.setLevel n l?)
  | newChild {n : NodeId} {k : String} (hn : n < t.nodes.next) (hk : t.child? n k = none) :
      Change t (t.newChild n k)
  | reset (n : NodeId) : Change t (t.reset n)
  | takeDown (n : NodeId) : Change t (t.takeDown n)
  | drop {n : NodeId} (hn : ∀ p k, t.child? p k ≠ some n) : Change t (t.drop n)
  | removeChild {p c : NodeId} {k : String} (hk : t.child? p k = some c) :
      Change t (t.removeChild p k c)

/-- An entry after a child was made is the one of that child or was there before. -/
lemma child?_newChild_cases (hn : n < t.nodes.next) (h : (t.newChild n k).child? p j = some c) :
    (p = n ∧ j = k ∧ c = t.nodes.next) ∨ t.child? p j = some c := by
  rw [child?_newChild hn] at h
  split_ifs at h with hp
  · exact Or.inl ⟨hp.1.symm, hp.2.2.symm, (Option.some.inj h).symm⟩
  · exact Or.inr h

lemma WellShaped.newChild (ht : t.WellShaped) (hn : n < t.nodes.next) (k : String) :
    (t.newChild n k).WellShaped := by
  have hne : n ≠ t.nodes.next := Nat.ne_of_lt hn
  have old : ∀ {m}, t.contains m → m ≠ t.nodes.next := fun hm =>
    Nat.ne_of_lt (lt_next_of_contains hm)
  have hname : ∀ {p} j, p ≠ t.nodes.next →
      ((t.newChild n k).node p).childName j = (t.node p).childName j := fun j hp => by
    have h := kept_newChild (k := k) (n := n) hp
    unfold Node.childName Node.isRoot
    simp [h.parent, h.fullName]
  constructor
  case present =>
    intro p j c hc
    rcases child?_newChild_cases hn hc with ⟨-, -, rfl⟩ | hc
    · exact contains_newChild.2 (Or.inl rfl)
    · exact contains_newChild.2 (Or.inr (ht.present hc))
  case parent_eq =>
    intro p j c hc
    rcases child?_newChild_cases hn hc with ⟨rfl, -, rfl⟩ | hc
    · simp [node_newChild_new hn, freshChild]
    · rw [(kept_newChild (old (ht.present hc))).parent]
      exact ht.parent_eq hc
  case name_eq =>
    intro p j c hc
    rcases child?_newChild_cases hn hc with ⟨-, rfl, rfl⟩ | hc
    · simp [node_newChild_new hn, freshChild]
    · rw [(kept_newChild (old (ht.present hc))).name]
      exact ht.name_eq hc
  case fullName_eq =>
    intro p j c hc
    rcases child?_newChild_cases hn hc with ⟨rfl, rfl, rfl⟩ | hc
    · simp [hname _ hne, node_newChild_new hn, freshChild]
    · rw [hname _ (old (contains_of_child hc)), (kept_newChild (old (ht.present hc))).fullName]
      exact ht.fullName_eq hc
  case parent_older =>
    intro m p hp
    by_cases hm : m = t.nodes.next
    · subst hm
      rw [node_newChild_new hn] at hp
      cases hp
      exact hn
    · rw [(kept_newChild hm).parent] at hp
      exact ht.parent_older hp

/-- A new child inherits what its parent has. -/
lemma LevelsSound.newChild (ht : t.LevelsSound) (hn : n < t.nodes.next) (k : String) :
    (t.newChild n k).LevelsSound where
  toWellShaped := ht.toWellShaped.newChild hn k
  own {m l} hl := by
    by_cases hm : m = t.nodes.next
    · subst hm
      rw [node_newChild_new hn] at hl
      cases hl
    · rw [(kept_newChild hm).level] at hl
      rw [effective, (kept_newChild hm).effective]
      exact ht.own hl
  inherit {p j c} hc hl := by
    rcases child?_newChild_cases hn hc with ⟨rfl, -, rfl⟩ | hc
    · rw [effective, effective, node_newChild_new hn, (kept_newChild (Nat.ne_of_lt hn)).effective]
      rfl
    · have hm := Nat.ne_of_lt (lt_next_of_contains (ht.present hc))
      have hp := Nat.ne_of_lt (lt_next_of_contains (contains_of_child hc))
      rw [(kept_newChild hm).level] at hl
      rw [effective, effective, (kept_newChild hm).effective, (kept_newChild hp).effective]
      exact ht.inherit hc hl
  base hr hl := by
    have hm : root ≠ t.nodes.next := Nat.ne_of_lt (Nat.zero_lt_of_lt hn)
    rw [(kept_newChild hm).level] at hl
    rw [effective, (kept_newChild hm).effective]
    exact ht.base ((contains_newChild.1 hr).resolve_left hm) hl

/-- What a reset leaves of a node: its place, without children. -/
lemma reset_node_cases (ht : t.WellShaped) (n m : NodeId) :
    (∃ v, (t.reset n).node m = (t.node m).blank v) ∨ (t.reset n).node m = t.node m := by
  by_cases hc : t.contains m
  · by_cases hm : m = n
    · subst hm
      exact Or.inl ⟨_, node_reset_self ht hc⟩
    · by_cases hb : t.Below n m
      · exact Or.inl ⟨_, node_reset_below ht hb⟩
      · exact Or.inr (node_reset_other ht hm hb)
  · have hc' : ¬ (t.reset n).contains m := by rwa [contains_reset]
    exact Or.inr (by rw [node_of_not_contains hc, node_of_not_contains hc'])

lemma WellShaped.reset (ht : t.WellShaped) (n : NodeId) : (t.reset n).WellShaped := by
  have place : ∀ m, ((t.reset n).node m).parent? = (t.node m).parent? ∧
      ((t.reset n).node m).name = (t.node m).name ∧
      ((t.reset n).node m).fullName = (t.node m).fullName := fun m => by
    rcases reset_node_cases ht n m with ⟨v, h⟩ | h
    · rw [h]
      exact ⟨rfl, rfl, rfl⟩
    · rw [h]
      exact ⟨rfl, rfl, rfl⟩
  constructor
  case present =>
    intro p k c hk
    rw [contains_reset]
    exact ht.present ((child?_reset ht).1 hk).1
  case parent_eq =>
    intro p k c hk
    rw [(place c).1]
    exact ht.parent_eq ((child?_reset ht).1 hk).1
  case name_eq =>
    intro p k c hk
    rw [(place c).2.1]
    exact ht.name_eq ((child?_reset ht).1 hk).1
  case fullName_eq =>
    intro p k c hk
    have hname : ((t.reset n).node p).childName k = (t.node p).childName k := by
      unfold Node.childName Node.isRoot
      simp [(place p).1, (place p).2.2]
    rw [(place c).2.2, hname]
    exact ht.fullName_eq ((child?_reset ht).1 hk).1
  case parent_older =>
    intro m p hp
    rw [(place m).1] at hp
    exact ht.parent_older hp

/-- A reset leaves entries only where it leaves the node as it was, and such a node may have the
one that was reset as its child. -/
lemma LevelsSound.reset (ht : t.LevelsSound) (n : NodeId) : (t.reset n).LevelsSound where
  toWellShaped := ht.toWellShaped.reset n
  own {m l} hl := by
    rcases reset_node_cases ht.toWellShaped n m with ⟨v, h⟩ | h
    · rw [h] at hl
      cases hl
    · rw [h] at hl
      rw [effective, h]
      exact ht.own hl
  inherit {p k c} hr hl := by
    obtain ⟨hk, hp, hb⟩ := (child?_reset ht.toWellShaped).1 hr
    have hpe : (t.reset n).effective p = t.effective p := by
      simp [effective, node_reset_other ht.toWellShaped hp hb]
    rw [hpe]
    by_cases hc : c = n
    · subst hc
      rw [effective, node_reset_self ht.toWellShaped (ht.present hk)]
      show t.inherited c = t.effective p
      simp [inherited, ht.parent_eq hk]
    · have hcb : ¬ t.Below n c := fun h => (h.of_child ht.toWellShaped hk).elim hp hb
      rw [node_reset_other ht.toWellShaped hc hcb] at hl
      rw [effective, node_reset_other ht.toWellShaped hc hcb]
      exact ht.inherit hk hl
  base hr hl := by
    rw [contains_reset] at hr
    rw [baseline_reset]
    by_cases hn : root = n
    · subst hn
      rw [effective, node_reset_self ht.toWellShaped hr]
      show t.inherited root = t.baseline
      simp [inherited, ht.root_parent]
    · have hb : ¬ t.Below n root := fun h => Nat.not_lt_zero n (h.lt ht.toWellShaped)
      rw [node_reset_other ht.toWellShaped hn hb] at hl
      rw [effective, node_reset_other ht.toWellShaped hn hb]
      exact ht.base hr hl

theorem Change.levelsSound (h : t.Change t') (ht : t.LevelsSound) : t'.LevelsSound := by
  cases h with
  | configure n hf hk => exact ht.of_partOf (partOf_configure ht.toWellShaped n hf hk)
  | setLevel n l? => exact ht.setLevel n l?
  | newChild hn _ => exact ht.newChild hn _
  | reset n => exact ht.reset n
  | takeDown n => exact ht.of_partOf (partOf_takeDown ht.toWellShaped n)
  | drop hn => exact ht.of_partOf (partOf_drop ht.toWellShaped hn)
  | removeChild hk => exact ht.of_partOf (partOf_removeChild ht.toWellShaped hk)

lemma next_modifyAll (ns : List NodeId) (f : Node → Node) :
    (t.modifyAll ns f).nodes.next = t.nodes.next := by
  induction ns generalizing t with
  | nil => rfl
  | cons n ns ih => exact ih.trans (by simp [modify, Store.modify, Store.next])

lemma next_modify (n : NodeId) (f : Node → Node) :
    (t.modify n f).nodes.next = t.nodes.next := next_modifyAll [n] f

lemma next_drop (n : NodeId) : (t.drop n).nodes.next = t.nodes.next := by
  simp [drop, Store.erase, Store.next]

lemma next_reset : (t.reset n).nodes.next = t.nodes.next := by
  rw [reset_eq, next_modify, next_modifyAll]

/-- Numbers of nodes are never given back. -/
lemma Change.next_le (h : t.Change t') : t.nodes.next ≤ t'.nodes.next := by
  cases h with
  | configure n => exact Nat.le_of_eq (next_modify n _).symm
  | setLevel n l? => exact Nat.le_of_eq (by rw [setLevel_eq, next_modifyAll, next_modify])
  | @newChild n k =>
    rw [newChild_eq, next_modify]
    simp [push, Store.push, Store.next]
  | reset n => exact Nat.le_of_eq next_reset.symm
  | takeDown n => exact Nat.le_of_eq (by rw [Tree.takeDown, next_modifyAll])
  | drop => exact Nat.le_of_eq (next_drop _).symm
  | removeChild => exact Nat.le_of_eq (by rw [Tree.removeChild, next_drop, strike, next_modify])

/-- Numbers of nodes are not given twice: a node that was made and is there was there before. -/
lemma Change.contains (h : t.Change t') (hm : m < t.nodes.next) (hc : t'.contains m) :
    t.contains m := by
  cases h with
  | configure n => rwa [contains_modify] at hc
  | setLevel n l? => rwa [(sameShape_setLevel t n l?).contains_eq] at hc
  | newChild => exact (contains_newChild.1 hc).resolve_left (Nat.ne_of_lt hm)
  | reset n => rwa [contains_reset] at hc
  | takeDown n => rwa [contains_takeDown] at hc
  | drop => exact (contains_drop.1 hc).2
  | removeChild =>
    have hc' := (contains_drop.1 hc).2
    rwa [strike, contains_modify] at hc'

/-- An entry that is new leads to a node that is new. -/
lemma Change.child? (h : t.Change t') (ht : t.WellShaped) (hk : t'.child? p k = some c) :
    t.child? p k = some c ∨ t.nodes.next ≤ c := by
  cases h with
  | configure n hf _ => exact Or.inl (by rwa [(sameShape_modify t n hf).child?] at hk)
  | setLevel n l? => exact Or.inl (by rwa [(sameShape_setLevel t n l?).child?] at hk)
  | newChild hn _ =>
    rcases child?_newChild_cases hn hk with ⟨-, -, rfl⟩ | hk
    · exact Or.inr (Nat.le_refl _)
    · exact Or.inl hk
  | reset n => exact Or.inl ((child?_reset ht).1 hk).1
  | takeDown n => exact Or.inl ((child?_takeDown ht).1 hk).1
  | drop hn => exact Or.inl ((partOf_drop ht hn).entry hk)
  | removeChild hc => exact Or.inl ((partOf_removeChild ht hc).entry hk)

@[simp] lemma strong_modifyAll (ns : List NodeId) (f : Node → Node) :
    (t.modifyAll ns f).strong = t.strong := by
  induction ns generalizing t with
  | nil => rfl
  | cons n ns ih => exact ih

lemma Change.strong (h : t.Change t') : t'.strong = t.strong := by
  cases h with
  | configure | drop | newChild | removeChild => rfl
  | setLevel n l? => exact strong_modifyAll (t := t.modify n _) _ _
  | reset n => exact strong_modifyAll (t := t) _ _
  | takeDown n => exact strong_modifyAll _ _

lemma Change.baseline (h : t.Change t') : t'.baseline = t.baseline := by
  cases h with
  | configure | drop | newChild | removeChild => rfl
  | setLevel n l? => exact baseline_setLevel t n l?
  | reset n => exact baseline_reset
  | takeDown n => exact baseline_modifyAll t _ _

end Tree

end Logging
