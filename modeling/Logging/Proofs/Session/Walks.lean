import Logging.Proofs.Session.LiveNames
import Logging.Proofs.Tree.Paths

/-!
# Walks in order

The nodes that a walk has before it part from each other, in order (`Poised`). To visit the first
of them puts its children in its place, so the walk comes to nodes in the order of their paths
(`Poised.next`), whatever becomes of the tree in between; in a tree that stands still it lists them
in this order (`ahead_sorted`).
-/

namespace Logging.LiveNames

variable {t : Tree} {n m c : NodeId} {ns : List NodeId}

/-! ### Before the walk -/

/-- The nodes are there, they have the names of their paths, and their paths part, in order. -/
structure Poised (t : Tree) (ns : List NodeId) : Prop where
  there : ∀ n ∈ ns, t.contains n
  spells : ∀ n ∈ ns, t.Spells n
  apart : ns.Pairwise fun n m => Path.Before (t.path n) (t.path m)

lemma poised_start (ht : t.WellShaped) (hr : t.contains Tree.root)
    (hname : (t.node Tree.root).fullName = "") : Poised t (start Tree.root).pending where
  there _ hn := List.mem_singleton.1 hn ▸ hr
  spells _ hn := List.mem_singleton.1 hn ▸ Tree.spells_root ht hname
  apart := List.pairwise_singleton _ _

lemma sortedEntries_lt (t : Tree) (n : NodeId) :
    (sortedEntries t n).Pairwise fun a b => a.1 < b.1 := by
  have h := (segments_sorted t n).and (segments_nodup t n)
  rw [segments, List.pairwise_map] at h
  exact h.imp fun h => Std.lt_of_le_of_ne h.1 h.2

/-- The children of a node part at their segments. -/
lemma sortedChildren_apart (ht : t.WellShaped) (n : NodeId) :
    (sortedChildren t n).Pairwise fun c d => Path.Before (t.path c) (t.path d) := by
  have hentries : sortedChildren t n = (sortedEntries t n).map Prod.snd := rfl
  rw [hentries, List.pairwise_map]
  refine (sortedEntries_lt t n).imp_of_mem fun {a b} ha hb hab => ?_
  rw [Tree.path_child ht (mem_sortedEntries_iff.1 ha),
    Tree.path_child ht (mem_sortedEntries_iff.1 hb)]
  exact Path.before_append (t.path n) hab

lemma path_of_mem_sortedChildren (ht : t.WellShaped) (hc : c ∈ sortedChildren t n) :
    ∃ k, t.path c = t.path n ++ [k] := by
  obtain ⟨k, hk⟩ := mem_sortedChildren_iff.1 hc
  exact ⟨k, Tree.path_child ht hk⟩

/-- To visit a node puts its children in its place. -/
lemma Poised.visit (h : Poised t (n :: ns)) (ht : t.WellShaped) (hd : t.Dotless) :
    Poised t (sortedChildren t n ++ ns) where
  there m hm := by
    rcases List.mem_append.1 hm with hm | hm
    · obtain ⟨k, hk⟩ := mem_sortedChildren_iff.1 hm
      exact ht.present hk
    · exact h.there m (List.mem_cons_of_mem n hm)
  spells m hm := by
    rcases List.mem_append.1 hm with hm | hm
    · obtain ⟨k, hk⟩ := mem_sortedChildren_iff.1 hm
      exact (h.spells n List.mem_cons_self).child ht hd hk
    · exact h.spells m (List.mem_cons_of_mem n hm)
  apart := by
    obtain ⟨hn, hns⟩ := List.pairwise_cons.1 h.apart
    refine List.pairwise_append.2 ⟨sortedChildren_apart ht n, hns, fun c hc m hm => ?_⟩
    obtain ⟨k, hk⟩ := path_of_mem_sortedChildren ht hc
    exact (hn m hm).mono (hk ▸ List.prefix_append _ _) List.prefix_rfl

/-- What comes after a node once it was visited has greater paths. -/
lemma Poised.lt_of_visit (h : Poised t (n :: ns)) (ht : t.WellShaped)
    (hm : m ∈ sortedChildren t n ++ ns) : t.path n < t.path m := by
  rcases List.mem_append.1 hm with hm | hm
  · obtain ⟨k, hk⟩ := path_of_mem_sortedChildren ht hm
    rw [hk]
    exact Path.lt_append (t.path n) (List.cons_ne_nil k [])
  · exact ((List.pairwise_cons.1 h.apart).1 m hm).lt

/-! ### The walk -/

/-- The node to which a walk goes on, from some nodes before it, and with others. -/
structure Meets (t : Tree) (ns : List NodeId) (n : NodeId) (ns' : List NodeId) : Prop where
  live : (t.node n).hasLiveHandles
  there : t.contains n
  spells : t.Spells n
  ahead : ∃ m ∈ ns, t.path m <+: t.path n
  past : ∀ m ∈ ns', t.path n < t.path m

lemma Meets.of_visit {n' : NodeId} {ns' : List NodeId} (ht : t.WellShaped)
    (h : Meets t (sortedChildren t n ++ ns) n' ns') : Meets t (n :: ns) n' ns' := by
  refine ⟨h.live, h.there, h.spells, ?_, h.past⟩
  obtain ⟨m, hm, hp⟩ := h.ahead
  rcases List.mem_append.1 hm with hm | hm
  · obtain ⟨k, hk⟩ := path_of_mem_sortedChildren ht hm
    rw [hk] at hp
    exact ⟨n, List.mem_cons_self, (List.prefix_append _ _).trans hp⟩
  · exact ⟨m, List.mem_cons_of_mem n hm, hp⟩

lemma Poised.nextWithin (h : Poised t ns) (ht : t.WellShaped) (hd : t.Dotless) (fuel : Nat) :
    Poised t (nextWithin t fuel ns).2 ∧
      ∀ n, (nextWithin t fuel ns).1 = some n → Meets t ns n (nextWithin t fuel ns).2 := by
  induction fuel generalizing ns with
  | zero => exact ⟨h, nofun⟩
  | succ fuel ih =>
    cases ns with
    | nil => exact ⟨h, nofun⟩
    | cons n ns =>
      rw [LiveNames.nextWithin]
      cases hl : (t.node n).hasLiveHandles with
      | true =>
        refine ⟨h.visit ht hd, ?_⟩
        rintro _ ⟨⟩
        exact {
          live := hl
          there := h.there n List.mem_cons_self
          spells := h.spells n List.mem_cons_self
          ahead := ⟨n, List.mem_cons_self, List.prefix_rfl⟩
          past := fun m hm => h.lt_of_visit ht hm }
      | false =>
        obtain ⟨hpoised, hmeets⟩ := ih (h.visit ht hd)
        exact ⟨hpoised, fun n' hn' => (hmeets n' hn').of_visit ht⟩

/-- A walk goes on in order, and what it has before it then comes later. -/
theorem Poised.next {w : LiveNames} (h : Poised t w.pending) (ht : t.WellShaped)
    (hd : t.Dotless) :
    Poised t (w.next t).2.pending ∧
      ∀ n, (w.next t).1 = some n → Meets t w.pending n (w.next t).2.pending :=
  h.nextWithin ht hd _

/-! ### The walk in a tree that stands still -/

lemma mem_order_iff (ht : t.WellShaped) : m ∈ order t n ↔ m = n ∨ t.Below n m := by
  rw [(order_perm t n).mem_iff, List.mem_cons, Tree.mem_below_iff ht]

lemma mem_ahead_iff (ht : t.WellShaped) : m ∈ ahead t ns ↔ ∃ n ∈ ns, m = n ∨ t.Below n m := by
  rw [ahead, List.mem_flatMap]
  simp only [mem_order_iff ht]

/-- A node that is found from the root is ahead of a walk if a node on its way up is before it. -/
lemma mem_ahead_iff_of_reached (ht : t.WellShaped) (hm : t.Reached m) :
    m ∈ ahead t ns ↔ ∃ n ∈ ns, n ∈ t.lineage m := by
  rw [mem_ahead_iff ht]
  refine exists_congr fun n => and_congr_right fun _ => ⟨?_, hm.below ht⟩
  rintro (rfl | hb)
  · exact Tree.self_mem_lineage t m
  · exact Tree.mem_lineage_of_below ht hb

lemma mem_ahead_of_mem (ht : t.WellShaped) (hn : n ∈ ns) : n ∈ ahead t ns :=
  (mem_ahead_iff ht).2 ⟨n, hn, Or.inl rfl⟩

/-- What is ahead of nodes that are found from the root is found from there, too. -/
lemma reached_of_mem_ahead (ht : t.WellShaped) (hns : ∀ n ∈ ns, t.Reached n)
    (hm : m ∈ ahead t ns) : t.Reached m := by
  obtain ⟨n, hn, rfl | hb⟩ := (mem_ahead_iff ht).1 hm
  · exact hns m hn
  · exact (hns n hn).below_trans hb

lemma prefix_of_mem_orderWithin (ht : t.WellShaped) {d : Nat}
    (hm : m ∈ n :: orderWithin t d n) : t.path n <+: t.path m := by
  rcases List.mem_cons.1 hm with rfl | hm
  · exact List.prefix_rfl
  · obtain ⟨q, -, hq⟩ :=
      Tree.path_of_below ht (Tree.mem_belowWithin d ((orderWithin_perm t d n).mem_iff.1 hm))
    exact hq ▸ List.prefix_append _ _

/-- Nodes that part, each with what is below it, are in order if they are. -/
lemma sorted_flatMap (hns : ns.Pairwise fun n m => Path.Before (t.path n) (t.path m))
    {f : NodeId → List NodeId} (hf : ∀ n, (f n).Pairwise fun m m' => t.path m < t.path m')
    (hp : ∀ n m, m ∈ f n → t.path n <+: t.path m) :
    (ns.flatMap f).Pairwise fun m m' => t.path m < t.path m' := by
  refine List.pairwise_flatMap.2 ⟨fun n _ => hf n, hns.imp fun {n n'} h m hm m' hm' => ?_⟩
  exact (h.mono (hp n m hm) (hp n' m' hm')).lt

lemma orderWithin_sorted (ht : t.WellShaped) (d : Nat) (n : NodeId) :
    (n :: orderWithin t d n).Pairwise fun m m' => t.path m < t.path m' := by
  induction d generalizing n with
  | zero => exact List.pairwise_singleton _ _
  | succ d ih =>
    refine List.pairwise_cons.2 ⟨fun m hm => ?_, ?_⟩
    · obtain ⟨q, hne, hq⟩ := Tree.path_of_below ht
        (Tree.mem_belowWithin (d + 1) ((orderWithin_perm t (d + 1) n).mem_iff.1 hm))
      rw [hq]
      exact Path.lt_append (t.path n) hne
    · exact sorted_flatMap (sortedChildren_apart ht n) ih fun c m => prefix_of_mem_orderWithin ht

/-- What a walk has still to visit is in the order of the paths. -/
theorem ahead_sorted (ht : t.WellShaped)
    (hns : ns.Pairwise fun n m => Path.Before (t.path n) (t.path m)) :
    (ahead t ns).Pairwise fun n m => t.path n < t.path m :=
  sorted_flatMap hns (orderWithin_sorted ht _) fun _ _ => prefix_of_mem_orderWithin ht

lemma Poised.proper (h : Poised t ns) (ht : t.WellShaped) : Proper t ns where
  nodup := (ahead_sorted ht h.apart).imp fun hlt heq => by
    rw [heq] at hlt
    exact List.lt_irrefl _ hlt
  made n hn := by
    obtain ⟨m, hm, hn⟩ := (mem_ahead_iff ht).1 hn
    rcases hn with rfl | hn
    · exact Tree.lt_next_of_contains (h.there n hm)
    · exact Tree.lt_next_of_contains (hn.contains ht)

/-- A walk goes on to the first live node among those that it has before it, and it is at its end if
there is none. -/
lemma Poised.next_spec {w : LiveNames} (h : Poised t w.pending) (ht : t.WellShaped) :
    (∃ n w', w.next t = (some n, w') ∧
      liveAmong t (ahead t w.pending) = n :: liveAmong t (ahead t w'.pending) ∧
      ahead t w'.pending <:+ ahead t w.pending) ∨
    w.next t = (none, ⟨[]⟩) ∧ liveAmong t (ahead t w.pending) = [] := by
  have hlen : (ahead t w.pending).length < t.nodes.next + w.pending.length + 1 :=
    Nat.lt_succ_of_le (Nat.le_trans (h.proper ht).length_le (Nat.le_add_right _ _))
  rw [LiveNames.next]
  rcases nextWithin_spec ht _ w.pending hlen with ⟨n, ns', hn, hl, hsuffix⟩ | ⟨hn, hl⟩
  · rw [hn]
    exact Or.inl ⟨n, ⟨ns'⟩, rfl, hl, hsuffix⟩
  · rw [hn]
    exact Or.inr ⟨rfl, hl⟩

/-- What a walk has before it stays within what is found from the root. -/
lemma Poised.reached_next {w : LiveNames} (h : Poised t w.pending) (ht : t.WellShaped)
    (hp : ∀ n ∈ w.pending, t.Reached n) : ∀ n ∈ (w.next t).2.pending, t.Reached n := by
  rcases h.next_spec ht with ⟨n, w', hn, -, hsuffix⟩ | ⟨hn, -⟩
  · rw [hn]
    exact fun m hm => reached_of_mem_ahead ht hp (hsuffix.subset (mem_ahead_of_mem ht hm))
  · rw [hn]
    exact fun m hm => absurd hm List.not_mem_nil

/-- A walk from the root lists the nodes with live handles that are found from there, in the order
of their paths. -/
theorem liveAmong_order (ht : t.WellShaped) :
    (liveAmong t (order t Tree.root)).Pairwise (fun n m => t.path n < t.path m) ∧
      ∀ n, n ∈ liveAmong t (order t Tree.root) ↔ t.Reached n ∧ (t.node n).hasLiveHandles := by
  refine ⟨(orderWithin_sorted ht _ Tree.root).filter _, fun n => ?_⟩
  rw [liveAmong, List.mem_filter, mem_order_iff ht, Tree.reached_iff]

end Logging.LiveNames
