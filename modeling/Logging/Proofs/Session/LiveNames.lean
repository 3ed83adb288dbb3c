import Mathlib.Data.List.Perm.Subperm
import Logging.Proofs.Tree.Pairing
import Logging.Session.LiveNames

/-!
# Live names

A walk over a tree lists the nodes that have live handles, each before those below it and in the
order of their segments (`LiveNames.all_eq`); the bounds that walks carry cut nothing off. Spare
nodes have no live handles, so paired trees list the same names.
-/

namespace Logging.LiveNames

variable {t u : Tree} {n m c d : NodeId}

/-! ### The order of a walk -/

lemma sortedChildren_perm (t : Tree) (n : NodeId) : (sortedChildren t n).Perm (t.children n) :=
  (List.mergeSort_perm _ _).map _

lemma mem_sortedChildren_iff : c ∈ sortedChildren t n ↔ ∃ k, t.child? n k = some c := by
  simp [(sortedChildren_perm t n).mem_iff, Tree.mem_children_iff]

/-- The nodes below a node in the order of a walk, no further down than `depth`. -/
def orderWithin (t : Tree) : (depth : Nat) → NodeId → List NodeId
  | 0, _ => []
  | depth + 1, n => (sortedChildren t n).flatMap fun c => c :: orderWithin t depth c

/-- A node and the nodes below it in the order of a walk. -/
def order (t : Tree) (n : NodeId) : List NodeId := n :: orderWithin t t.nodes.next n

/-- Nodes get younger on the way down, so the number of nodes is depth enough. -/
lemma orderWithin_succ (ht : t.WellShaped) (d : Nat) (hd : t.nodes.next ≤ n + d) :
    orderWithin t (d + 1) n = orderWithin t d n := by
  have older : ∀ {c}, c ∈ sortedChildren t n → n < c := by
    intro c hc
    obtain ⟨k, hk⟩ := mem_sortedChildren_iff.1 hc
    exact ht.older hk
  induction d generalizing n with
  | zero =>
    have hnone : sortedChildren t n = [] := by
      apply List.eq_nil_iff_forall_not_mem.2
      intro c hc
      obtain ⟨k, hk⟩ := mem_sortedChildren_iff.1 hc
      have hlt := Tree.lt_next_of_contains (Tree.contains_of_child hk)
      exact Nat.lt_irrefl _ (Nat.lt_of_lt_of_le hlt hd)
    show (sortedChildren t n).flatMap _ = []
    rw [hnone]
    rfl
  | succ d ih =>
    rw [orderWithin, orderWithin]
    apply List.flatMap_congr
    intro c hc
    have hcd : t.nodes.next ≤ c + d := by
      have hle : n + 1 + d ≤ c + d := Nat.add_le_add_right (older hc) d
      rw [Nat.succ_add_eq_add_succ] at hle
      exact Nat.le_trans hd hle
    rw [ih hcd]
    intro c' hc'
    obtain ⟨k, hk⟩ := mem_sortedChildren_iff.1 hc'
    exact ht.older hk

lemma orderWithin_of_le (ht : t.WellShaped) {d : Nat} (hd : t.nodes.next ≤ d) :
    orderWithin t d n = orderWithin t t.nodes.next n := by
  induction hd with
  | refl => rfl
  | step hd ih => simp [orderWithin_succ ht _ (Nat.le_trans hd (Nat.le_add_left _ _)), ih]

lemma order_eq (ht : t.WellShaped) (n : NodeId) :
    order t n = n :: (sortedChildren t n).flatMap (order t) := by
  rw [order, ← orderWithin_succ ht _ (Nat.le_add_left _ _), orderWithin]
  rfl

lemma orderWithin_perm (t : Tree) (d : Nat) (n : NodeId) :
    (orderWithin t d n).Perm (t.belowWithin d n) := by
  induction d generalizing n with
  | zero => exact .refl _
  | succ d ih =>
    rw [orderWithin, Tree.belowWithin]
    refine ((sortedChildren_perm t n).flatMap_right _).trans ?_
    exact List.Perm.flatMap_left _ fun c _ => (ih c).cons c

lemma order_perm (t : Tree) (n : NodeId) : (order t n).Perm (n :: t.below n) :=
  (orderWithin_perm t t.nodes.next n).cons n

/-! ### What a walk lists -/

/-- What a walk has still to visit. -/
def ahead (t : Tree) (ns : List NodeId) : List NodeId := ns.flatMap (order t)

/-- The nodes with live handles among some nodes. -/
def liveAmong (t : Tree) (ns : List NodeId) : List NodeId :=
  ns.filter fun n => (t.node n).hasLiveHandles

lemma ahead_cons (ht : t.WellShaped) (n : NodeId) (ns : List NodeId) :
    ahead t (n :: ns) = n :: ahead t (sortedChildren t n ++ ns) := by
  simp only [ahead, List.flatMap_cons, List.flatMap_append]
  simp [order_eq ht]

/-- A walk goes to the first live node ahead of it. -/
lemma nextWithin_spec (ht : t.WellShaped) (fuel : Nat) (ns : List NodeId)
    (hf : (ahead t ns).length < fuel) :
    (∃ n ns', nextWithin t fuel ns = (some n, ns') ∧
      liveAmong t (ahead t ns) = n :: liveAmong t (ahead t ns') ∧
      ahead t ns' <:+ ahead t ns) ∨
    nextWithin t fuel ns = (none, []) ∧ liveAmong t (ahead t ns) = [] := by
  induction fuel generalizing ns with
  | zero => exact absurd hf (Nat.not_lt_zero _)
  | succ fuel ih =>
    cases ns with
    | nil => exact Or.inr ⟨rfl, rfl⟩
    | cons n ns =>
      rw [ahead_cons ht] at hf ⊢
      rw [nextWithin]
      cases hl : (t.node n).hasLiveHandles with
      | true =>
        refine Or.inl ⟨n, sortedChildren t n ++ ns, rfl, ?_, List.suffix_cons _ _⟩
        rw [liveAmong, List.filter_cons, if_pos hl]
        rfl
      | false =>
        have hcons : ∀ l, liveAmong t (n :: l) = liveAmong t l := fun l => by
          rw [liveAmong, List.filter_cons, if_neg (by simp [hl])]
          rfl
        rw [hcons]
        rcases ih (sortedChildren t n ++ ns) (Nat.lt_of_succ_lt_succ hf) with
          ⟨n', ns', hn, hl', hs⟩ | h
        · exact Or.inl ⟨n', ns', hn, hl', hs.trans (List.suffix_cons _ _)⟩
        · exact Or.inr h

/-- The nodes ahead of a walk are different nodes of the tree. -/
structure Proper (t : Tree) (ns : List NodeId) : Prop where
  nodup : (ahead t ns).Nodup
  made : ∀ n ∈ ahead t ns, n < t.nodes.next

lemma Proper.length_le {ns : List NodeId} (h : Proper t ns) :
    (ahead t ns).length ≤ t.nodes.next := by
  have hsub : ahead t ns ⊆ List.range t.nodes.next := fun n hn => List.mem_range.2 (h.made n hn)
  have hle := (List.subperm_of_subset h.nodup hsub).length_le
  rwa [List.length_range] at hle

lemma Proper.of_suffix {ns ns' : List NodeId} (h : Proper t ns) (hs : ahead t ns' <:+ ahead t ns) :
    Proper t ns' :=
  ⟨h.nodup.sublist hs.sublist, fun n hn => h.made n (hs.subset hn)⟩

lemma drainWithin_eq (ht : t.WellShaped) (fuel : Nat) (ns : List NodeId) (h : Proper t ns)
    (hf : (liveAmong t (ahead t ns)).length ≤ fuel) :
    drainWithin t fuel ⟨ns⟩ = liveAmong t (ahead t ns) := by
  induction fuel generalizing ns with
  | zero => rw [drainWithin, List.eq_nil_of_length_eq_zero (Nat.le_zero.1 hf)]
  | succ fuel ih =>
    have hlen : (ahead t ns).length < t.nodes.next + ns.length + 1 :=
      Nat.lt_succ_of_le (Nat.le_trans h.length_le (Nat.le_add_right _ _))
    rw [drainWithin, next]
    rcases nextWithin_spec ht _ ns hlen with ⟨n, ns', hn, hl, hs⟩ | ⟨hn, hl⟩
    · rw [hl] at hf
      simp only [hn, hl]
      simp [ih ns' (h.of_suffix hs) (Nat.le_of_succ_le_succ hf)]
    · simp only [hn, hl]

/-- The names of the nodes with live handles among some nodes. -/
def namesAmong (t : Tree) (ns : List NodeId) : List String :=
  (liveAmong t ns).map fun n => (t.node n).fullName

/-- A drained walk lists the names of all live nodes in order. -/
theorem all_eq (ht : t.WellShaped) (hr : t.contains Tree.root) :
    all t = namesAmong t (order t Tree.root) := by
  have hahead : ahead t [Tree.root] = order t Tree.root := List.flatMap_singleton _ _
  have hproper : Proper t [Tree.root] := by
    constructor
    · rw [hahead, (order_perm t Tree.root).nodup_iff]
      exact Tree.cons_below_nodup ht _
    · intro n hn
      rw [hahead, (order_perm t Tree.root).mem_iff, List.mem_cons, Tree.mem_below_iff ht] at hn
      rcases hn with rfl | hn
      · exact Tree.lt_next_of_contains hr
      · exact Tree.lt_next_of_contains (hn.contains ht)
  have hlen : (liveAmong t (ahead t [Tree.root])).length ≤ t.nodes.next :=
    Nat.le_trans (List.length_filter_le _ _) hproper.length_le
  rw [all, start, drainWithin_eq ht _ _ hproper hlen, hahead]
  rfl

/-! ### The names of paired trees -/

/-- The children of a node by segment, in order. -/
def sortedEntries (t : Tree) (n : NodeId) : List (String × NodeId) :=
  (t.node n).children.entries.mergeSort fun a b => a.1 ≤ b.1

lemma mem_sortedEntries_iff {k : String} : (k, c) ∈ sortedEntries t n ↔ t.child? n k = some c := by
  rw [sortedEntries, (List.mergeSort_perm _ _).mem_iff, Dict.mem_entries_iff, Tree.child?]

/-- The segments of the children of a node, in order. -/
def segments (t : Tree) (n : NodeId) : List String := (sortedEntries t n).map Prod.fst

lemma mem_segments_iff {k : String} : k ∈ segments t n ↔ ∃ c, t.child? n k = some c := by
  simp only [segments, List.mem_map, Prod.exists, exists_and_right, exists_eq_right,
    mem_sortedEntries_iff]

lemma segments_nodup (t : Tree) (n : NodeId) : (segments t n).Nodup := by
  have hp : (segments t n).Perm ((t.node n).children.entries.map Prod.fst) :=
    (List.mergeSort_perm _ _).map _
  exact hp.nodup_iff.2 (t.node n).children.nodup

lemma segments_sorted (t : Tree) (n : NodeId) : (segments t n).Pairwise (· ≤ ·) := by
  rw [segments, List.pairwise_map]
  have hs : (sortedEntries t n).Pairwise fun a b => decide (a.1 ≤ b.1) = true := by
    apply List.pairwise_mergeSort
    · intro a b c hab hbc
      simp only [decide_eq_true_eq] at hab hbc ⊢
      exact String.le_trans hab hbc
    · intro a b
      simp only [Bool.or_eq_true, decide_eq_true_eq]
      exact String.le_total a.1 b.1
  exact hs.imp fun h => of_decide_eq_true h

/-- Sorted segments are determined by which there are. -/
lemma segments_eq_filter (h : ∀ k, k ∈ segments t n → k ∈ segments u m) :
    segments t n = (segments u m).filter (· ∈ segments t n) := by
  have hperm : (segments t n).Perm ((segments u m).filter (· ∈ segments t n)) := by
    refine (List.perm_ext_iff_of_nodup (segments_nodup t n)
      ((segments_nodup u m).filter _)).2 fun k => ?_
    rw [List.mem_filter, decide_eq_true_eq]
    exact ⟨fun hk => ⟨h k hk, hk⟩, And.right⟩
  exact hperm.eq_of_pairwise (fun _ _ _ _ => String.le_antisymm) (segments_sorted t n)
    ((segments_sorted u m).filter _)

/-- The names at and below the child for a segment. -/
def namesUnder (t : Tree) (d : Nat) (n : NodeId) (k : String) : List String :=
  match t.child? n k with
  | some c => namesAmong t (c :: orderWithin t d c)
  | none => []

lemma namesAmong_append (t : Tree) (ns ns' : List NodeId) :
    namesAmong t (ns ++ ns') = namesAmong t ns ++ namesAmong t ns' := by
  simp [namesAmong, liveAmong]

lemma namesAmong_cons (t : Tree) (n : NodeId) (ns : List NodeId) :
    namesAmong t (n :: ns) =
      (if (t.node n).hasLiveHandles then [(t.node n).fullName] else []) ++ namesAmong t ns := by
  rw [namesAmong, liveAmong, List.filter_cons]
  split_ifs <;> rfl

lemma namesAmong_orderWithin (t : Tree) (d : Nat) (n : NodeId) :
    namesAmong t (orderWithin t (d + 1) n) = (segments t n).flatMap (namesUnder t d n) := by
  have hentries : ∀ l : List (String × NodeId), (∀ e ∈ l, t.child? n e.1 = some e.2) →
      namesAmong t ((l.map Prod.snd).flatMap fun c => c :: orderWithin t d c) =
        (l.map Prod.fst).flatMap (namesUnder t d n) := by
    intro l hl
    induction l with
    | nil => rfl
    | cons e l ih =>
      rw [List.map_cons, List.map_cons, List.flatMap_cons, List.flatMap_cons, namesAmong_append,
        ih fun e he => hl e (List.mem_cons_of_mem _ he), namesUnder,
        hl e List.mem_cons_self]
  exact hentries _ fun e he => mem_sortedEntries_iff.1 he

variable {P : Pairing}

/-- There are no live names at or below a spare node. -/
lemma names_spare (h : P.Fits t u) (depth : Nat) (hd : P.spare d) :
    namesAmong u (d :: orderWithin u depth d) = [] := by
  have hself : (u.node d).hasLiveHandles = false := by
    rw [Node.hasLiveHandles, (h.plain hd).live]
    rfl
  rw [namesAmong_cons, hself]
  induction depth generalizing d with
  | zero => rfl
  | succ depth ih =>
    rw [namesAmong_orderWithin]
    apply List.flatMap_eq_nil_iff.2
    intro k hk
    obtain ⟨e, he⟩ := mem_segments_iff.1 hk
    have hspare := h.below hd he
    have hlive : (u.node e).hasLiveHandles = false := by
      rw [Node.hasLiveHandles, (h.plain hspare).live]
      rfl
    rw [namesUnder, he]
    show namesAmong u (e :: orderWithin u depth e) = []
    rw [namesAmong_cons, hlive]
    exact ih hspare hlive

lemma names_pair (h : P.Fits t u) (depth : Nat) (hn : P.pair n m) :
    namesAmong t (n :: orderWithin t depth n) = namesAmong u (m :: orderWithin u depth m) := by
  have hself : ∀ {a b}, P.pair a b →
      (if (t.node a).hasLiveHandles then [(t.node a).fullName] else []) =
        if (u.node b).hasLiveHandles then [(u.node b).fullName] else [] := fun {a b} hp => by
    rw [Node.hasLiveHandles, Node.hasLiveHandles, (h.alike hp).live, (h.alike hp).fullName]
  induction depth generalizing n m with
  | zero =>
    rw [namesAmong_cons, namesAmong_cons, hself hn]
    rfl
  | succ depth ih =>
    rw [namesAmong_cons, namesAmong_cons, hself hn, namesAmong_orderWithin,
      namesAmong_orderWithin]
    congr 1
    -- segment by segment the names agree, and segments that only the second tree has add none
    have hunder : ∀ k, namesUnder u depth m k = namesUnder t depth n k := by
      intro k
      rw [namesUnder, namesUnder]
      cases hk : t.child? n k with
      | some c =>
        obtain ⟨d, hd, hc⟩ := h.entry hn hk
        rw [hd]
        exact (ih hc).symm
      | none =>
        cases hd : u.child? m k with
        | some d => exact names_spare h depth (h.extra hn hd hk)
        | none => rfl
    have hsub : ∀ k, k ∈ segments t n → k ∈ segments u m := by
      intro k hk
      obtain ⟨c, hc⟩ := mem_segments_iff.1 hk
      obtain ⟨d, hd, -⟩ := h.entry hn hc
      exact mem_segments_iff.2 ⟨d, hd⟩
    have hnone : ∀ k, k ∉ segments t n → namesUnder t depth n k = [] := by
      intro k hk
      cases hc : t.child? n k with
      | some c => exact absurd (mem_segments_iff.2 ⟨c, hc⟩) hk
      | none => simp [namesUnder, hc]
    have hfilter : ∀ l : List String,
        (l.filter (· ∈ segments t n)).flatMap (namesUnder t depth n) =
          l.flatMap (namesUnder t depth n) := by
      intro l
      induction l with
      | nil => rfl
      | cons k l ihl =>
        by_cases hk : k ∈ segments t n
        · simp [hk, ihl]
        · simp [hk, ihl, hnone k hk]
    rw [segments_eq_filter hsub, hfilter, funext hunder]

/-- Paired trees have the same live names. -/
theorem all_of_fits (h : P.Fits t u) (ht : t.WellShaped) (hu : u.WellShaped) :
    all t = all u := by
  have hd := Nat.le_max_left t.nodes.next u.nodes.next
  have hd' := Nat.le_max_right t.nodes.next u.nodes.next
  rw [all_eq ht (h.left h.root), all_eq hu (h.right h.root), order, order,
    ← orderWithin_of_le ht hd, ← orderWithin_of_le hu hd']
  exact names_pair h _ h.root

end Logging.LiveNames
