import Mathlib.Data.List.TakeWhile
import Logging.Proofs.Tree.Entries

/-!
# Full names

The full name of a node is its path with dots between the segments, except that an empty segment
below the root shows as a dot of its own. Reading a full name gives the path again, but for an empty
segment at its end (`Path.ofString_fullName`): a dot at the end of a name adds nothing. Where the
path begins with an empty segment, that segment is read twice.
-/

namespace Logging

namespace Path

variable {k : String} {path : List String}

/-! ### Reading names -/

/-- No segment of the path has a dot in it. -/
def Dotless (path : List String) : Prop := ∀ k ∈ path, '.' ∉ k.toList

lemma ne_dot_of_dotless {k : List Char} (hk : '.' ∉ k) : ∀ c ∈ k, (c != '.') = true := by
  intro c hc
  rw [bne_iff_ne]
  rintro rfl
  exact hk hc

lemma splitFirst_append {k rest : List Char} (hk : '.' ∉ k) :
    splitFirst (k ++ '.' :: rest) = (k, rest) := by
  have hall := ne_dot_of_dotless hk
  rw [splitFirst, List.takeWhile_append_of_pos hall, List.dropWhile_append_of_pos hall]
  simp

lemma splitFirst_of_dotless {k : List Char} (hk : '.' ∉ k) : splitFirst k = (k, []) := by
  have hall := ne_dot_of_dotless hk
  rw [splitFirst, List.takeWhile_eq_self_iff.2 hall, List.dropWhile_eq_nil_iff.2 hall]
  rfl

lemma segments_nil : segments [] = [] := by
  rw [segments]
  rfl

lemma segments_of_ne_nil {name : List Char} (h : name ≠ []) :
    segments name = String.ofList (splitFirst name).1 :: segments (splitFirst name).2 := by
  rw [segments, dif_neg h]

lemma segments_append {k rest : List Char} (hk : '.' ∉ k) :
    segments (k ++ '.' :: rest) = String.ofList k :: segments rest := by
  rw [segments_of_ne_nil (by simp), splitFirst_append hk]

lemma segments_of_dotless {k : List Char} (hk : '.' ∉ k) (hne : k ≠ []) :
    segments k = [String.ofList k] := by
  rw [segments_of_ne_nil hne, splitFirst_of_dotless hk, segments_nil]

/-- A name is cut at its dots. -/
lemma dotless_segments (name : List Char) : Dotless (segments name) := by
  fun_induction segments name with
  | case1 => exact fun k hk => absurd hk List.not_mem_nil
  | case2 name hne hlt ih =>
    intro k hk
    rcases List.mem_cons.1 hk with rfl | hk
    · rw [String.toList_ofList]
      intro hdot
      have h := List.all_takeWhile (p := fun c => c != '.') (l := name)
      exact absurd rfl (bne_iff_ne.1 (List.all_eq_true.1 h _ hdot))
    · exact ih k hk

/-! ### Names of paths -/

/-- Segments with a dot before each. -/
def dotted (path : List String) : List Char := path.flatMap fun k => '.' :: k.toList

/-- The full name of the node at the end of a path. -/
def fullName : List String → String
  | [] => ""
  | k :: path => (if k = "" then "." else k) ++ String.ofList (dotted path)

/-- The path without an empty segment at its end. -/
def trim (path : List String) : List String :=
  if path.getLast? = some "" then path.dropLast else path

lemma trim_cons_cons (j k : String) (path : List String) :
    trim (j :: k :: path) = j :: trim (k :: path) := by
  rw [trim, trim, List.getLast?_cons_cons, List.dropLast_cons_cons]
  split_ifs <;> rfl

/-- Segments that are put together with dots are read again, but for an empty one at the end. -/
theorem segments_dotted (hk : '.' ∉ k.toList) (hpath : Dotless path) :
    segments (k.toList ++ dotted path) = trim (k :: path) := by
  induction path generalizing k with
  | nil =>
    by_cases h : k = ""
    · subst h
      simp [dotted, trim, segments_nil]
    · have hne : k.toList ≠ [] := fun hnil => h (String.toList_eq_nil_iff.1 hnil)
      simp [dotted, trim, segments_of_dotless hk hne, h]
  | cons j path ih =>
    have hrest : k.toList ++ dotted (j :: path) =
        k.toList ++ '.' :: (j.toList ++ dotted path) := rfl
    rw [hrest, segments_append hk, String.ofList_toList, trim_cons_cons,
      ih (hpath j List.mem_cons_self) fun i hi => hpath i (List.mem_cons_of_mem j hi)]

theorem ofString_fullName (hpath : Dotless path) :
    ofString (fullName path) =
      if path.head? = some "" then trim ("" :: path) else trim path := by
  cases path with
  | nil => simp [ofString, fullName, trim, segments_nil]
  | cons k path =>
    have hk := hpath k List.mem_cons_self
    by_cases h : k = ""
    · subst h
      have hname : (fullName ("" :: path)).toList = "".toList ++ dotted ("" :: path) := by
        simp [fullName, dotted]
      rw [ofString, hname, segments_dotted hk hpath]
      simp
    · have hname : (fullName (k :: path)).toList = k.toList ++ dotted path := by
        simp [fullName, h]
      rw [ofString, hname, segments_dotted hk fun i hi => hpath i (List.mem_cons_of_mem k hi)]
      simp [h]

/-- The path can be read off its name: it neither begins nor ends with an empty segment, or all of
its segments are empty. -/
def Plain (path : List String) : Prop :=
  path.head? ≠ some "" ∧ path.getLast? ≠ some "" ∨ ∀ k ∈ path, k = ""

lemma ofString_fullName_of_plain (hpath : Dotless path) (h : Plain path) :
    ofString (fullName path) = path := by
  rw [ofString_fullName hpath]
  rcases h with ⟨hhead, hlast⟩ | hempty
  · rw [if_neg hhead, trim, if_neg hlast]
  · cases path with
    | nil => rfl
    | cons k path =>
      have hrep : k :: path = List.replicate (path.length + 1) "" :=
        List.eq_replicate_iff.2 ⟨List.length_cons, hempty⟩
      obtain rfl : k = "" := hempty k List.mem_cons_self
      have hhead : ("" :: path).head? = some "" := rfl
      rw [if_pos hhead, hrep, ← List.replicate_succ, trim]
      simp [List.getLast?_replicate]

/-- An empty segment at the end is lost. -/
lemma ofString_fullName_of_getLast? (hpath : Dotless path) (hhead : path.head? ≠ some "")
    (hlast : path.getLast? = some "") : ofString (fullName path) = path.dropLast := by
  rw [ofString_fullName hpath, if_neg hhead, trim, if_pos hlast]

end Path

namespace Tree

variable {t t' : Tree} {n p : NodeId} {path : List String}

/-! ### Names of nodes -/

/-- The names of segments have no dots. -/
def Dotless (t : Tree) : Prop := ∀ p k c, t.child? p k = some c → '.' ∉ k.toList

lemma Dotless.find? (h : t.Dotless) (hn : t.find? p path = some n) : Path.Dotless path := by
  induction path generalizing p with
  | nil => exact fun k hk => absurd hk List.not_mem_nil
  | cons j path ih =>
    obtain ⟨c, hc, hn⟩ := Option.bind_eq_some_iff.1 hn
    intro k hk
    rcases List.mem_cons.1 hk with rfl | hk
    · exact h p k c hc
    · exact ih hn k hk

lemma Dotless.of_entries (h : t.Dotless)
    (hentry : ∀ {p k c}, t'.child? p k = some c → t.child? p k = some c) : t'.Dotless :=
  fun p k c hk => h p k c (hentry hk)

lemma Dotless.of_sameShape (h : t.Dotless) (hs : t.SameShape t') : t'.Dotless :=
  h.of_entries fun hk => by rwa [hs.child?] at hk

lemma Dotless.getOrCreate (h : t.Dotless) (ht : t.WellShaped) (hn : n < t.nodes.next)
    (hpath : Path.Dotless path) : (t.getOrCreate n path).2.Dotless := by
  refine getOrCreate_induction ht hn h fun t n k hk _ hn _ h p j c hj => ?_
  rcases child?_newChild_cases hn hj with ⟨-, rfl, -⟩ | hj
  · exact hpath j hk
  · exact h p j c hj

lemma childName_of_parent? {q : NodeId} (hp : (t.node p).parent? = some q) (k : String) :
    (t.node p).childName k = (t.node p).fullName ++ "." ++ k := by
  simp [Node.childName, Node.isRoot, hp]

/-- Below a node other than the root, a name goes on with a dot before each segment. -/
lemma fullName_of_find? (ht : t.WellShaped) {q : NodeId} (hp : (t.node p).parent? = some q)
    (hn : t.find? p path = some n) :
    (t.node n).fullName = (t.node p).fullName ++ String.ofList (Path.dotted path) := by
  induction path generalizing p q with
  | nil =>
    cases hn
    simp [Path.dotted]
  | cons k path ih =>
    obtain ⟨c, hc, hn⟩ := Option.bind_eq_some_iff.1 hn
    rw [ih (ht.parent_eq hc) hn, ht.fullName_eq hc, childName_of_parent? hp]
    apply String.toList_inj.1
    simp [Path.dotted]

/-- The full name of a node is that of its path. -/
theorem fullName_eq_of_find? (ht : t.WellShaped) (hroot : (t.node root).fullName = "")
    (hn : t.find? root path = some n) : (t.node n).fullName = Path.fullName path := by
  cases path with
  | nil =>
    cases hn
    exact hroot
  | cons k path =>
    obtain ⟨c, hc, hn⟩ := Option.bind_eq_some_iff.1 hn
    have hname : (t.node root).childName k = if k = "" then "." else k := by
      simp [Node.childName, Node.isRoot, ht.root_parent]
    rw [fullName_of_find? ht (ht.parent_eq hc) hn, ht.fullName_eq hc, hname]
    rfl

lemma find?_append (path q : List String) :
    t.find? p (path ++ q) = (t.find? p path).bind fun m => t.find? m q := by
  induction path generalizing p with
  | nil => rfl
  | cons k path ih =>
    rw [List.cons_append, find?, find?, Option.bind_assoc]
    exact congrArg _ (funext fun c => ih)

/-- Without its last segment, a path leads to the parent. -/
lemma find?_dropLast (ht : t.WellShaped) {k : String} (hk : path.getLast? = some k)
    (hn : t.find? p path = some n) :
    ∃ q, t.find? p path.dropLast = some q ∧ (t.node n).parent? = some q := by
  rw [← List.dropLast_append_getLast? k hk, find?_append] at hn
  obtain ⟨q, hq, hn⟩ := Option.bind_eq_some_iff.1 hn
  obtain ⟨c, hc, hn⟩ := Option.bind_eq_some_iff.1 hn
  cases hn
  exact ⟨q, hq, ht.parent_eq hc⟩

lemma PartOf.fullName_root (h : t'.PartOf t) (hroot : (t.node root).fullName = "") :
    (t'.node root).fullName = "" := by
  by_cases hc : t'.contains root
  · rw [(h.kept hc).fullName, hroot]
  · rw [node_of_not_contains hc]
    rfl

/-- The root has the empty name, whatever happens to the tree. -/
lemma Change.fullName_root (h : t.Change t') (ht : t.WellShaped)
    (hroot : (t.node root).fullName = "") : (t'.node root).fullName = "" := by
  cases h with
  | configure n hf hk => exact (partOf_configure ht n hf hk).fullName_root hroot
  | setLevel n l? => rw [((sameShape_setLevel t n l?).place root).fullName, hroot]
  | newChild hn _ =>
    have hne : root ≠ t.nodes.next := Nat.ne_of_lt (Nat.zero_lt_of_lt hn)
    rw [(kept_newChild hne).fullName, hroot]
  | reset n =>
    rcases reset_node_cases ht n root with ⟨v, h⟩ | h
    · rw [h]
      exact hroot
    · rw [h, hroot]
  | takeDown n => exact (partOf_takeDown ht n).fullName_root hroot
  | drop hn => exact (partOf_drop ht hn).fullName_root hroot
  | removeChild hk => exact (partOf_removeChild ht hk).fullName_root hroot

end Tree

end Logging
