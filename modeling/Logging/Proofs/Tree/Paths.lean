import Logging.Proofs.Tree.Names
import Logging.Proofs.Tree.Spare

/-!
# Paths of nodes

The path of a node can be read off the nodes on its way up, so a node has one also when it is not
found from the root any more. Nodes keep their names and their parents while they are there
(`Change.sameName`), and with them their paths (`path_eq`). Of two paths that part at some segment,
all that begin with the one come before all that begin with the other (`Path.Before`); paths are
known by their full names (`Path.fullName_injective`).
-/

namespace Logging

namespace Path

variable {p q p' q' path : List String} {j k : String}

/-! ### The order of paths -/

/-- One path comes before another and does not begin it: at some segment they part. -/
def Before (p q : List String) : Prop :=
  ∃ path j k p' q', p = path ++ j :: p' ∧ q = path ++ k :: q' ∧ j < k

lemma before_append (path : List String) (h : j < k) : Before (path ++ [j]) (path ++ [k]) :=
  ⟨path, j, k, [], [], rfl, rfl, h⟩

lemma Before.mono (h : Before p q) (hp : p <+: p') (hq : q <+: q') : Before p' q' := by
  obtain ⟨path, j, k, p, q, rfl, rfl, h⟩ := h
  obtain ⟨r, rfl⟩ := hp
  obtain ⟨r', rfl⟩ := hq
  exact ⟨path, j, k, p ++ r, q ++ r', by simp, by simp, h⟩

lemma Before.lt (h : Before p q) : p < q := by
  obtain ⟨path, j, k, p, q, rfl, rfl, h⟩ := h
  exact List.append_left_lt (List.cons_lt_cons_iff.2 (Or.inl h))

/-- A path comes before those that it begins. -/
lemma lt_append (path : List String) (hq : q ≠ []) : path < path ++ q := by
  obtain ⟨k, q, rfl⟩ := List.exists_cons_of_ne_nil hq
  have h : path ++ [] < path ++ k :: q := List.append_left_lt (List.nil_lt_cons k q)
  rwa [List.append_nil] at h

lemma lt_of_lt_of_prefix (h : path < p) (hq : p <+: q) : path < q := by
  obtain ⟨r, rfl⟩ := hq
  cases r with
  | nil => rwa [List.append_nil]
  | cons k r => exact List.lt_trans h (lt_append p (List.cons_ne_nil k r))

/-! ### Paths by their names -/

lemma splitFirst_dotted (hk : '.' ∉ k.toList) (path : List String) :
    (splitFirst (k.toList ++ dotted path)).1 = k.toList := by
  cases path with
  | nil => rw [dotted, List.flatMap_nil, List.append_nil, splitFirst_of_dotless hk]
  | cons j path =>
    have h : k.toList ++ dotted (j :: path) = k.toList ++ '.' :: (j.toList ++ dotted path) := rfl
    rw [h, splitFirst_append hk]

lemma dotted_injective (hp : Dotless p) (hq : Dotless q) (h : dotted p = dotted q) : p = q := by
  induction p generalizing q with
  | nil =>
    cases q with
    | nil => rfl
    | cons k q => cases h
  | cons j p ih =>
    cases q with
    | nil => cases h
    | cons k q =>
      have htail : j.toList ++ dotted p = k.toList ++ dotted q := List.tail_eq_of_cons_eq h
      have hsegment : j.toList = k.toList := by
        rw [← splitFirst_dotted (hp j List.mem_cons_self) p, htail,
          splitFirst_dotted (hq k List.mem_cons_self) q]
      rw [hsegment] at htail
      rw [String.toList_inj.1 hsegment, ih (fun i hi => hp i (List.mem_cons_of_mem j hi))
        (fun i hi => hq i (List.mem_cons_of_mem k hi)) (List.append_cancel_left htail)]

/-- A full name has the dots of its path, but the first one only if the first segment is empty. -/
lemma dotted_eq (hpath : Dotless path) :
    dotted path =
      if fullName path = "" then []
      else if (fullName path).toList.head? = some '.' then (fullName path).toList
      else '.' :: (fullName path).toList := by
  cases path with
  | nil => simp [fullName, dotted]
  | cons k path =>
    by_cases hk : k = ""
    · subst hk
      have hname : (fullName ("" :: path)).toList = dotted ("" :: path) := by
        simp [fullName, dotted]
      have hne : fullName ("" :: path) ≠ "" := fun h => by
        rw [h] at hname
        cases hname
      have hhead : (dotted ("" :: path)).head? = some '.' := rfl
      rw [if_neg hne, hname, if_pos hhead]
    · have hname : (fullName (k :: path)).toList = k.toList ++ dotted path := by
        simp [fullName, hk]
      obtain ⟨c, cs, hcs⟩ :=
        List.exists_cons_of_ne_nil fun h => hk (String.toList_eq_nil_iff.1 h)
      have hdot : c ≠ '.' := by
        rintro rfl
        exact hpath k List.mem_cons_self (hcs ▸ List.mem_cons_self)
      have hne : fullName (k :: path) ≠ "" := fun h => by
        rw [h, hcs] at hname
        cases hname
      have hhead : (k.toList ++ dotted path).head? ≠ some '.' := by
        rw [hcs]
        exact fun h => hdot (Option.some.inj h)
      rw [if_neg hne, hname, if_neg hhead]
      rfl

/-- No two paths have the same full name. -/
theorem fullName_injective (hp : Dotless p) (hq : Dotless q) (h : fullName p = fullName q) :
    p = q := by
  apply dotted_injective hp hq
  rw [dotted_eq hp, dotted_eq hq, h]

lemma fullName_append (hp : p ≠ []) (k : String) :
    fullName (p ++ [k]) = fullName p ++ "." ++ k := by
  obtain ⟨j, p, rfl⟩ := List.exists_cons_of_ne_nil hp
  apply String.toList_inj.1
  simp [fullName, dotted]

end Path

/-- Two nodes of one name that have the same parent. -/
structure Node.SameName (a b : Node) : Prop where
  parent : a.parent? = b.parent?
  name : a.name = b.name
  fullName : a.fullName = b.fullName

lemma Node.SameName.trans {a b c : Node} (h : a.SameName b) (h' : b.SameName c) : a.SameName c :=
  ⟨h.parent.trans h'.parent, h.name.trans h'.name, h.fullName.trans h'.fullName⟩

lemma Node.Kept.sameName {a b : Node} (h : a.Kept b) : a.SameName b :=
  ⟨h.parent, h.name, h.fullName⟩

namespace Tree

variable {t t' : Tree} {n m p c : NodeId} {k : String} {q : List String}

/-- A node keeps its name and its parent while it is there. -/
theorem Change.sameName (h : t.Change t') (ht : t.WellShaped) (hn : n < t.nodes.next)
    (hc : t'.contains n) : (t'.node n).SameName (t.node n) := by
  cases h with
  | configure m hf hk => exact ((partOf_configure ht m hf hk).kept hc).sameName
  | setLevel m l? =>
    have h := (sameShape_setLevel t m l?).place n
    exact ⟨h.parent, h.name, h.fullName⟩
  | newChild hm _ => exact (kept_newChild (Nat.ne_of_lt hn)).sameName
  | reset m =>
    rcases reset_node_cases ht m n with ⟨v, h⟩ | h
    · rw [h]
      exact ⟨rfl, rfl, rfl⟩
    · rw [h]
      exact ⟨rfl, rfl, rfl⟩
  | takeDown m => exact ((partOf_takeDown ht m).kept hc).sameName
  | drop hm => exact ((partOf_drop ht hm).kept hc).sameName
  | removeChild hk => exact ((partOf_removeChild ht hk).kept hc).sameName

/-! ### Ways up and down -/

lemma lineage_of_parent?_none (hp : (t.node n).parent? = none) : t.lineage n = [n] := by
  rw [lineage, hp]

lemma self_mem_lineage (t : Tree) (n : NodeId) : n ∈ t.lineage n :=
  List.mem_of_mem_head? (head?_lineage t n)

/-- What is above a node is on its way up. -/
lemma mem_lineage_of_below (ht : t.WellShaped) (h : t.Below m n) : m ∈ t.lineage n := by
  induction h with
  | child hk =>
    rw [lineage_of_parent? ht (ht.parent_eq hk)]
    exact List.mem_cons_of_mem _ (self_mem_lineage t m)
  | step _ hk _ ih =>
    rw [lineage_of_parent? ht (ht.parent_eq hk)]
    exact List.mem_cons_of_mem _ ih

/-- The node is found from the root. -/
def Reached (t : Tree) (n : NodeId) : Prop := ∃ q, t.find? root q = some n

lemma Reached.child (h : t.Reached p) (hk : t.child? p k = some c) : t.Reached c := by
  obtain ⟨q, hq⟩ := h
  exact ⟨q ++ [k], by rw [find?_append, hq, Option.bind_some, find?, hk]; rfl⟩

lemma Reached.below_trans (h : t.Reached n) (hb : t.Below n m) : t.Reached m := by
  induction hb with
  | child hk => exact h.child hk
  | step _ hk _ ih => exact ih.child hk

lemma reached_iff : t.Reached n ↔ n = root ∨ t.Below root n := by
  constructor
  · rintro ⟨q, hn⟩
    cases q with
    | nil => exact Or.inl (Option.some.inj hn).symm
    | cons k q => exact Or.inr (below_of_find? (List.cons_ne_nil k q) hn)
  · have hroot : t.Reached root := ⟨[], rfl⟩
    rintro (rfl | hn)
    · exact hroot
    · exact hroot.below_trans hn

/-- The root is on the way up from every node that is found from it. -/
lemma Reached.root_mem_lineage (h : t.Reached n) (ht : t.WellShaped) : root ∈ t.lineage n := by
  rcases reached_iff.1 h with rfl | h
  · exact self_mem_lineage t root
  · exact mem_lineage_of_below ht h

/-- A node that is found from the root is found from every node on its way up. -/
lemma Reached.below (h : t.Reached n) (ht : t.WellShaped) (hm : m ∈ t.lineage n) :
    n = m ∨ t.Below m n := by
  have hroot : ∀ {m}, m ∈ t.lineage root → root = m := fun hm => by
    rw [lineage_of_parent?_none ht.root_parent] at hm
    exact (List.mem_singleton.1 hm).symm
  rw [reached_iff] at h
  rcases h with rfl | h
  · exact Or.inl (hroot hm)
  · induction h with
    | child hk =>
      rw [lineage_of_parent? ht (ht.parent_eq hk)] at hm
      rcases List.mem_cons.1 hm with rfl | hm
      · exact Or.inl rfl
      · obtain rfl := hroot hm
        exact Or.inr (.child hk trivial)
    | step _ hk _ ih =>
      rw [lineage_of_parent? ht (ht.parent_eq hk)] at hm
      rcases List.mem_cons.1 hm with rfl | hm
      · exact Or.inl rfl
      · rcases ih hm with rfl | hb
        · exact Or.inr (.child hk trivial)
        · exact Or.inr (.step hb hk trivial)

/-! ### Paths -/

/-- The names of the nodes on the way from the root to a node. -/
def path (t : Tree) (n : NodeId) : List String :=
  ((t.lineage n).dropLast.map fun m => (t.node m).name).reverse

lemma path_of_parent?_none (hp : (t.node n).parent? = none) : t.path n = [] := by
  rw [path, lineage_of_parent?_none hp]
  rfl

lemma path_of_parent? (ht : t.WellShaped) (hp : (t.node n).parent? = some p) :
    t.path n = t.path p ++ [(t.node n).name] := by
  have hne : t.lineage p ≠ [] := List.ne_nil_of_mem (self_mem_lineage t p)
  rw [path, path, lineage_of_parent? ht hp, List.dropLast_cons_of_ne_nil hne, List.map_cons,
    List.reverse_cons]

lemma path_root (ht : t.WellShaped) : t.path root = [] := path_of_parent?_none ht.root_parent

lemma path_child (ht : t.WellShaped) (hk : t.child? p k = some c) : t.path c = t.path p ++ [k] := by
  rw [path_of_parent? ht (ht.parent_eq hk), ht.name_eq hk]

/-- What is found under a path from the root has this path. -/
theorem path_of_find? (ht : t.WellShaped) (hn : t.find? m q = some n) :
    t.path n = t.path m ++ q := by
  induction q generalizing m with
  | nil =>
    cases hn
    rw [List.append_nil]
  | cons k q ih =>
    obtain ⟨c, hk, hn⟩ := Option.bind_eq_some_iff.1 hn
    rw [ih hn, path_child ht hk, List.append_assoc, List.singleton_append]

/-- A node that is found from the root is found under its path, and under no other one. -/
theorem find?_root_iff (ht : t.WellShaped) (hn : t.Reached n) :
    t.find? root q = some n ↔ q = t.path n := by
  have hpath : ∀ {q}, t.find? root q = some n → q = t.path n := fun hq => by
    rw [path_of_find? ht hq, path_root ht, List.nil_append]
  obtain ⟨p, hp⟩ := hn
  refine ⟨hpath, ?_⟩
  rintro rfl
  rwa [hpath hp] at hp

/-- The path of a node begins those of the nodes below it. -/
lemma path_of_below (ht : t.WellShaped) (h : t.Below m n) :
    ∃ q ≠ [], t.path n = t.path m ++ q := by
  induction h with
  | child hk => exact ⟨_, List.cons_ne_nil _ _, path_child ht hk⟩
  | step _ hk _ ih =>
    obtain ⟨q, -, hq⟩ := ih
    rw [path_child ht hk, hq, List.append_assoc]
    exact ⟨_, List.append_ne_nil_of_right_ne_nil q (List.cons_ne_nil _ _), rfl⟩

/-- Where nodes have kept their names and their parents, they have kept their ways up and their
paths. -/
theorem lineage_eq_and_path_eq (ht : t.WellShaped) (ht' : t'.WellShaped)
    (hsame : ∀ m, m < t.nodes.next → t'.contains m → (t'.node m).SameName (t.node m))
    (hparent : ∀ m p, (t'.node m).parent? = some p → t'.contains p)
    (hn : n < t.nodes.next) (hc : t'.contains n) :
    t'.lineage n = t.lineage n ∧ t'.path n = t.path n := by
  induction n using Nat.strong_induction_on with
  | _ n ih =>
    have h := hsame n hn hc
    cases hp : (t'.node n).parent? with
    | none =>
      have hp' := h.parent.symm.trans hp
      rw [lineage_of_parent?_none hp, lineage_of_parent?_none hp', path_of_parent?_none hp,
        path_of_parent?_none hp']
      exact ⟨rfl, rfl⟩
    | some p =>
      have hp' := h.parent.symm.trans hp
      have hlt := ht'.parent_older hp
      obtain ⟨hl, hpath⟩ := ih p hlt (Nat.lt_trans hlt hn) (hparent n p hp)
      rw [lineage_of_parent? ht' hp, lineage_of_parent? ht hp', path_of_parent? ht' hp,
        path_of_parent? ht hp', hl, hpath, h.name]
      exact ⟨rfl, rfl⟩

/-! ### Names from paths -/

/-- The node has the name of its path, in which no segment has a dot. -/
structure Spells (t : Tree) (n : NodeId) : Prop where
  fullName : (t.node n).fullName = Path.fullName (t.path n)
  dotless : Path.Dotless (t.path n)

lemma spells_root (ht : t.WellShaped) (hroot : (t.node root).fullName = "") : t.Spells root := by
  constructor
  · rw [path_root ht, hroot]
    rfl
  · rw [path_root ht]
    exact fun k hk => absurd hk List.not_mem_nil

lemma Spells.child (h : t.Spells p) (ht : t.WellShaped) (hd : t.Dotless)
    (hk : t.child? p k = some c) : t.Spells c := by
  constructor
  · rw [ht.fullName_eq hk, path_child ht hk]
    cases hp : (t.node p).parent? with
    | none =>
      rw [path_of_parent?_none hp, Node.childName, Node.isRoot, hp]
      simp [Path.fullName, Path.dotted]
    | some q =>
      have hne : t.path p ≠ [] := by
        rw [path_of_parent? ht hp]
        exact List.append_ne_nil_of_right_ne_nil _ (List.cons_ne_nil _ _)
      rw [childName_of_parent? hp, h.fullName, Path.fullName_append hne]
  · intro j hj
    rw [path_child ht hk] at hj
    rcases List.mem_append.1 hj with hj | hj
    · exact h.dotless j hj
    · rw [List.mem_singleton.1 hj]
      exact hd p k c hk

end Tree

end Logging
