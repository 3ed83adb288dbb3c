import Logging.Proofs.Tree.Paths

/-!
# Lookups

A name is the path of its pieces between dots (`Path.ofString_eq_pieces`). A lookup of a path
follows it down the tree as far as there are entries for it. If the nodes of a path are to be there
afterwards, those that are missing are added one below the other, like new, and nothing else changes
(`grown_getOrCreate`).
-/

namespace Logging

namespace Path

variable {k x y : List Char} {path q : List String}

/-! ### Pieces of names -/

/-- The pieces of a name between its dots, without an empty one at the end. -/
def pieces (name : String) : List String := trim ((name.toList.splitOn '.').map String.ofList)

lemma splitOn_of_dotless (hk : '.' ∉ k) : k.splitOn '.' = [k] :=
  List.splitOnP_eq_singleton fun c hc => by simpa using ne_dot_of_dotless hk c hc

lemma splitOn_append (hk : '.' ∉ k) (rest : List Char) :
    (k ++ '.' :: rest).splitOn '.' = k :: rest.splitOn '.' :=
  List.splitOnP_append_cons_of_forall_mem (fun c hc => by simpa using ne_dot_of_dotless hk c hc)
    '.' (by simp) rest

theorem segments_eq_trim (name : List Char) :
    segments name = trim ((name.splitOn '.').map String.ofList) := by
  fun_induction segments name with
  | case1 => simp [trim]
  | case2 name hne hlt ih =>
    by_cases hdot : '.' ∈ name
    · obtain ⟨k, rest, rfl, hk⟩ := List.eq_append_cons_of_mem hdot
      rw [splitFirst_append hk] at ih ⊢
      obtain ⟨j, js, hj⟩ := List.exists_cons_of_ne_nil (List.splitOn_ne_nil '.' rest)
      rw [splitOn_append hk, ih, hj, List.map_cons, List.map_cons, List.map_cons, trim_cons_cons]
    · rw [splitFirst_of_dotless hdot, splitOn_of_dotless hdot, segments_nil, List.map_singleton,
        trim, if_neg]
      intro h
      exact hne (String.ofList_eq_empty_iff.1 (Option.some.inj h))

theorem ofString_eq_pieces (name : String) : ofString name = pieces name :=
  segments_eq_trim name.toList

/-- A name that is put together of two with a dot between them has the pieces of both, unless that
dot comes first or after another one. -/
lemma segments_append_append (hx : x ≠ []) (hdot : x.getLast? ≠ some '.') (y : List Char) :
    segments (x ++ '.' :: y) = segments x ++ segments y := by
  fun_induction segments x with
  | case1 => exact absurd rfl hx
  | case2 x hne hlt ih =>
    by_cases hmem : '.' ∈ x
    · obtain ⟨k, rest, rfl, hk⟩ := List.eq_append_cons_of_mem hmem
      rw [splitFirst_append hk] at ih ⊢
      have hrest : rest ≠ [] := by
        rintro rfl
        exact hdot List.getLast?_concat
      have hlast : rest.getLast? ≠ some '.' := by
        obtain ⟨c, cs, rfl⟩ := List.exists_cons_of_ne_nil hrest
        rwa [List.getLast?_append_of_ne_nil _ (List.cons_ne_nil _ _),
          List.getLast?_cons_cons] at hdot
      rw [List.append_assoc, List.cons_append, segments_append hk, ih hrest hlast]
      rfl
    · rw [segments_append hmem, splitFirst_of_dotless hmem, segments_nil]
      rfl

lemma pieces_append {x y : String} (hx : x ≠ "") (hdot : x.toList.getLast? ≠ some '.') :
    pieces (x ++ "." ++ y) = pieces x ++ pieces y := by
  have hname : (x ++ "." ++ y).toList = x.toList ++ '.' :: y.toList := by simp
  rw [← ofString_eq_pieces, ← ofString_eq_pieces, ← ofString_eq_pieces, ofString, hname]
  exact segments_append_append (fun h => hx (String.toList_eq_nil_iff.1 h)) hdot y.toList

end Path

namespace Tree

variable {t t' : Tree} {n m c : NodeId} {j k : String} {path q : List String}

/-! ### Ways along a path -/

/-- From a node, the segments of a path lead down to another one. -/
inductive Follows (t : Tree) : NodeId → List String → NodeId → Prop
  | here (n : NodeId) : Follows t n [] n
  | step {n c m : NodeId} {k : String} {path : List String} (hk : t.child? n k = some c)
      (h : Follows t c path m) : Follows t n (k :: path) m

lemma find?_eq_some_iff : t.find? n path = some m ↔ t.Follows n path m := by
  constructor
  · intro h
    induction path generalizing n with
    | nil =>
      cases h
      exact .here _
    | cons k path ih =>
      obtain ⟨c, hk, hm⟩ := Option.bind_eq_some_iff.1 h
      exact .step hk (ih hm)
  · intro h
    induction h with
    | here => rfl
    | step hk _ ih => rw [find?, hk, Option.bind_some, ih]

/-- A path leads down to a node that has no child for the next segment. -/
structure Breaks (t : Tree) (n : NodeId) (q : List String) (m : NodeId) (k : String) : Prop where
  follows : t.Follows n q m
  missing : t.child? m k = none

lemma find?_eq_none_iff :
    t.find? n path = none ↔ ∃ q m k rest, path = q ++ k :: rest ∧ t.Breaks n q m k := by
  constructor
  · intro h
    induction path generalizing n with
    | nil => cases h
    | cons k path ih =>
      cases hk : t.child? n k with
      | none => exact ⟨[], n, k, path, rfl, .here n, hk⟩
      | some c =>
        rw [find?, hk, Option.bind_some] at h
        obtain ⟨q, m, j, rest, rfl, hq⟩ := ih h
        exact ⟨k :: q, m, j, rest, rfl, .step hk hq.follows, hq.missing⟩
  · rintro ⟨q, m, k, rest, rfl, hq⟩
    rw [find?_append, find?_eq_some_iff.2 hq.follows, Option.bind_some, find?, hq.missing]
    rfl

lemma Follows.contains (h : t.Follows n path m) (ht : t.WellShaped) (hn : t.contains n) :
    t.contains m := by
  induction h with
  | here => exact hn
  | step hk _ ih => exact ih (ht.present hk)

/-- No two paths lead from a node to the same one. -/
lemma Follows.path_unique (h : t.Follows n path m) (hq : t.Follows n q m) (ht : t.WellShaped) :
    path = q :=
  List.append_cancel_left ((path_of_find? ht (find?_eq_some_iff.2 h)).symm.trans
    (path_of_find? ht (find?_eq_some_iff.2 hq)))

/-! ### What is added -/

/-- A node that was just made: it has its name, and the level of its parent. -/
def freshNode (i p : NodeId) (parent : Node) (k : String) : Node where
  parent? := some p
  name := k
  fullName := parent.childName k
  sinks := { owner := i }
  effective := parent.effective

/-- The node with the next one entered for the next segment of a path. -/
def linked (a : Node) (c : NodeId) : List String → Node
  | [] => a
  | k :: _ => a.enter k c

/-- Nodes were added for a segment below a node and for a path that goes on from there, and nothing
else was changed. -/
structure Grown (t : Tree) (m : NodeId) (k : String) (path : List String) (t' : Tree) : Prop where
  strong : t'.strong = t.strong
  baseline : t'.baseline = t.baseline
  next : t'.nodes.next = t.nodes.next + path.length + 1
  contains_iff : ∀ i : Nat, t'.contains i ↔
    t.contains i ∨ t.nodes.next ≤ i ∧ i ≤ t.nodes.next + path.length
  start : t'.node m = (t.node m).enter k t.nodes.next
  old : ∀ i, t.contains i → i ≠ m → t'.node i = t.node i
  new : ∀ q j rest, k :: path = q ++ j :: rest → ∃ p, t'.Follows m q p ∧
    t'.node (t.nodes.next + q.length) =
      linked (freshNode (t.nodes.next + q.length) p (t'.node p) j) (t.nodes.next + q.length + 1) rest

lemma next_newChild (t : Tree) (n : NodeId) (k : String) :
    (t.newChild n k).nodes.next = t.nodes.next + 1 := by
  rw [newChild_eq, next_modify]
  simp [push, Store.push, Store.next]

lemma child?_newChild_self (hm : t.contains m) :
    (t.newChild m k).child? m k = some t.nodes.next := by
  rw [child?_newChild (lt_next_of_contains hm), if_pos ⟨rfl, hm, rfl⟩]

/-- A new node has no children. -/
lemma child?_newChild_next (hm : t.contains m) (j : String) :
    (t.newChild m k).child? t.nodes.next j = none := by
  rw [child?, node_newChild_new (lt_next_of_contains hm)]
  rfl

lemma grown_newChild (hm : t.contains m) (k : String) : t.Grown m k [] (t.newChild m k) where
  strong := rfl
  baseline := rfl
  next := next_newChild t m k
  contains_iff i := by
    have hi : i = t.nodes.next ↔
        t.nodes.next ≤ i ∧ i ≤ t.nodes.next + ([] : List String).length := by
      rw [List.length_nil]
      omega
    rw [contains_newChild, hi, or_comm]
  start := by
    rw [node_newChild_old (Nat.ne_of_lt (lt_next_of_contains hm)), if_pos ⟨rfl, hm⟩]
  old i hi hne := by
    rw [node_newChild_old (Nat.ne_of_lt (lt_next_of_contains hi)), if_neg fun h => hne h.1.symm]
  new q j rest h := by
    obtain ⟨rfl, hrest⟩ | ⟨q', rfl, hrest⟩ := List.cons_eq_append_iff.1 h
    · cases hrest
      have hlt := lt_next_of_contains hm
      refine ⟨m, .here m, ?_⟩
      rw [List.length_nil, Nat.add_zero, node_newChild_new hlt,
        node_newChild_old (Nat.ne_of_lt hlt), if_pos ⟨rfl, hm⟩]
      rfl
    · cases List.append_ne_nil_of_right_ne_nil q' (List.cons_ne_nil j rest) hrest.symm

/-- Nodes are added below a node that was itself just added. -/
lemma Grown.cons (hm : t.contains m) (h : (t.newChild m k).Grown t.nodes.next j path t') :
    t.Grown m k (j :: path) t' where
  strong := h.strong
  baseline := h.baseline
  next := by
    rw [h.next, next_newChild, List.length_cons]
    omega
  contains_iff i := by
    have hi : t.nodes.next ≤ i ∧ i ≤ t.nodes.next + (j :: path).length ↔ i = t.nodes.next ∨
        t.nodes.next + 1 ≤ i ∧ i ≤ t.nodes.next + 1 + path.length := by
      rw [List.length_cons]
      omega
    rw [h.contains_iff, contains_newChild, next_newChild, hi, ← or_assoc,
      or_comm (b := t.contains i)]
  start := by
    have hne := Nat.ne_of_lt (lt_next_of_contains hm)
    rw [h.old m (contains_newChild.2 (Or.inr hm)) hne, (grown_newChild hm k).start]
  old i hi hne := by
    have hlt := Nat.ne_of_lt (lt_next_of_contains hi)
    rw [h.old i (contains_newChild.2 (Or.inr hi)) hlt, (grown_newChild hm k).old i hi hne]
  new q i rest hq := by
    have hne := Nat.ne_of_lt (lt_next_of_contains hm)
    have hstart : t'.node m = (t.node m).enter k t.nodes.next := by
      rw [h.old m (contains_newChild.2 (Or.inr hm)) hne, (grown_newChild hm k).start]
    obtain ⟨rfl, hrest⟩ | ⟨q', rfl, hrest⟩ := List.cons_eq_append_iff.1 hq
    -- the child itself
    · cases hrest
      refine ⟨m, .here m, ?_⟩
      rw [List.length_nil, Nat.add_zero, h.start, node_newChild_new (lt_next_of_contains hm),
        next_newChild, hstart]
      rfl
    -- what is below it
    · obtain ⟨p, hp, hnode⟩ := h.new q' i rest hrest
      have hk : t'.child? m k = some t.nodes.next := by
        rw [child?, hstart, Node.enter, Dict.get?_insert, if_pos rfl]
      refine ⟨p, .step hk hp, ?_⟩
      rw [next_newChild] at hnode
      have hlen : t.nodes.next + (k :: q').length = t.nodes.next + 1 + q'.length := by
        rw [List.length_cons]
        omega
      rw [hlen]
      exact hnode

/-- Below a node that has no child for the first segment, all nodes of a path are new. -/
theorem grown_getOrCreate (hm : t.contains m) (hk : t.child? m k = none) (path : List String) :
    t.Grown m k path (t.getOrCreate m (k :: path)).2 ∧
      (t.getOrCreate m (k :: path)).1 = t.nodes.next + path.length := by
  induction path generalizing t m k with
  | nil =>
    rw [getOrCreate, hk]
    exact ⟨grown_newChild hm k, rfl⟩
  | cons j path ih =>
    have hnew : (t.newChild m k).contains t.nodes.next := contains_newChild.2 (Or.inl rfl)
    obtain ⟨hgrown, hend⟩ := ih hnew (child?_newChild_next hm j)
    rw [getOrCreate, hk]
    refine ⟨hgrown.cons hm, ?_⟩
    rw [hend, next_newChild, List.length_cons]
    exact Nat.add_right_comm _ _ _

/-- As far as a path is there, it is followed. -/
lemma getOrCreate_append (h : t.Follows n q m) (path : List String) :
    t.getOrCreate n (q ++ path) = t.getOrCreate m path := by
  induction h with
  | here => rfl
  | step hk _ ih =>
    rw [List.cons_append, getOrCreate, hk]
    exact ih

lemma wellShaped_getOrCreate (ht : t.WellShaped) (hn : t.contains n) (path : List String) :
    (t.getOrCreate n path).2.WellShaped :=
  getOrCreate_induction ht (lt_next_of_contains hn) ht fun _ _ k _ _ hn _ h => h.newChild hn k

/-- Once the nodes of a path were made where they are missing, it leads to the node at its end. -/
theorem follows_getOrCreate (ht : t.WellShaped) (hn : t.contains n) (path : List String) :
    (t.getOrCreate n path).2.Follows n path (t.getOrCreate n path).1 := by
  induction path generalizing t n with
  | nil => exact .here n
  | cons k path ih =>
    rw [getOrCreate]
    cases hk : t.child? n k with
    | some c =>
      have hc := ht.present hk
      exact .step (child?_getOrCreate_of_some ht (lt_next_of_contains hc) hk) (ih ht hc)
    | none =>
      have ht' := ht.newChild (lt_next_of_contains hn) k
      have hc : (t.newChild n k).contains t.nodes.next := contains_newChild.2 (Or.inl rfl)
      exact .step (child?_getOrCreate_of_some ht' (lt_next_of_contains hc)
        (child?_newChild_self hn)) (ih ht' hc)

lemma Follows.getOrCreate (h : t.Follows n q c) (ht : t.WellShaped) (hm : t.contains m)
    (path : List String) : (t.getOrCreate m path).2.Follows n q c := by
  induction h with
  | here n => exact .here n
  | step hk _ ih => exact .step (child?_getOrCreate_of_some ht (lt_next_of_contains hm) hk) ih

lemma contains_getOrCreate (ht : t.WellShaped) (hm : t.contains m) (path : List String)
    (hc : t.contains c) : (t.getOrCreate m path).2.contains c :=
  getOrCreate_induction (motive := fun t => t.contains c) ht (lt_next_of_contains hm) hc
    fun _ _ _ _ _ _ _ h => contains_newChild.2 (Or.inr h)

/-- Two paths from one node are made to lead to the same node only if they are the same. -/
theorem getOrCreate_eq_iff (ht : t.WellShaped) (hn : t.contains n) (path q : List String) :
    (t.getOrCreate n path).1 = ((t.getOrCreate n path).2.getOrCreate n q).1 ↔ path = q := by
  have ht' := wellShaped_getOrCreate ht hn path
  have hn' := contains_getOrCreate ht hn path hn
  have hfirst := follows_getOrCreate ht hn path
  constructor
  · intro h
    have hsecond := follows_getOrCreate ht' hn' q
    rw [← h] at hsecond
    exact (hfirst.getOrCreate ht' hn' q).path_unique hsecond (wellShaped_getOrCreate ht' hn' q)
  · rintro rfl
    rw [getOrCreate_of_find? (find?_eq_some_iff.2 hfirst)]

/-- The nodes of a path can be made in two parts. -/
lemma getOrCreate_getOrCreate (t : Tree) (n : NodeId) (path q : List String) :
    t.getOrCreate n (path ++ q) =
      (t.getOrCreate n path).2.getOrCreate (t.getOrCreate n path).1 q := by
  induction path generalizing t n with
  | nil => rfl
  | cons k path ih =>
    rw [List.cons_append, getOrCreate, getOrCreate]
    cases t.child? n k with
    | some c => exact ih t c
    | none => exact ih _ _

/-! ### Names of reached nodes -/

lemma Reached.spells (h : t.Reached n) (ht : t.WellShaped) (hd : t.Dotless)
    (hroot : (t.node root).fullName = "") : t.Spells n := by
  rcases reached_iff.1 h with rfl | h
  · exact spells_root ht hroot
  · induction h with
    | child hk => exact (spells_root ht hroot).child ht hd hk
    | step hp hk _ ih => exact (ih (reached_iff.2 (Or.inr hp))).child ht hd hk

/-- No two nodes that are found from the root have the same full name. -/
theorem eq_of_fullName_eq (ht : t.WellShaped) (hd : t.Dotless)
    (hroot : (t.node root).fullName = "") (hn : t.Reached n) (hm : t.Reached m)
    (h : (t.node n).fullName = (t.node m).fullName) : n = m := by
  have hns := hn.spells ht hd hroot
  have hms := hm.spells ht hd hroot
  have hpath : t.path n = t.path m :=
    Path.fullName_injective hns.dotless hms.dotless
      (hns.fullName.symm.trans (h.trans hms.fullName))
  have hfind := (find?_root_iff ht hn).2 rfl
  rw [hpath, (find?_root_iff ht hm).2 rfl] at hfind
  exact (Option.some.inj hfind).symm

/-- How nodes are entered below their parents, and what their names are. -/
structure Laid (t : Tree) : Prop where
  name_eq : ∀ p k c, t.child? p k = some c → (t.node c).name = k
  parent_eq : ∀ p k c, t.child? p k = some c → (t.node c).parent? = some p
  dotless : ∀ p k c, t.child? p k = some c → '.' ∉ k.toList
  fullName_injective : ∀ n m, t.Reached n → t.Reached m →
    (t.node n).fullName = (t.node m).fullName → n = m

lemma laid (ht : t.WellShaped) (hd : t.Dotless) (hroot : (t.node root).fullName = "") :
    t.Laid where
  name_eq _ _ _ := ht.name_eq
  parent_eq _ _ _ := ht.parent_eq
  dotless := hd
  fullName_injective _ _ := eq_of_fullName_eq ht hd hroot

end Tree

end Logging
