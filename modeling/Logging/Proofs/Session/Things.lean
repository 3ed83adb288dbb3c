import Mathlib.Data.List.Perm.Subperm
import Logging.Proofs.Data.Dict
import Logging.Proofs.Session.Moves

/-!
# Things and references

What refers to a thing, and which things there are. Settling ends things that nothing refers to
until there are none (`settled_settle`); whatever holds on to a thing keeps it.
-/

namespace Logging

namespace Store

variable {α β : Type}

/-- The numbers of the things there are, oldest first. -/
def keys (s : Store α) : List Nat := s.toList.map Prod.fst

lemma mem_keys_iff {s : Store α} {i : Nat} : i ∈ s.keys ↔ s.contains i := by
  simp only [keys, List.mem_map, Prod.exists, exists_and_right, exists_eq_right, mem_toList_iff,
    contains, Option.isSome_iff_exists]

lemma keys_sorted (s : Store α) : s.keys.Pairwise (· < ·) := by
  rw [keys, toList, List.pairwise_map, List.pairwise_filterMap]
  have hidx : s.cells.toList.zipIdx.Pairwise fun a b => a.2 < b.2 := by
    have h : (List.range' 0 s.cells.toList.length).Pairwise (· < ·) := List.pairwise_lt_range'
    rw [← List.zipIdx_map_snd, List.pairwise_map] at h
    exact h
  refine hidx.imp fun {a b} hab x hx y hy => ?_
  obtain ⟨_, -, rfl⟩ := Option.map_eq_some_iff.1 hx
  obtain ⟨_, -, rfl⟩ := Option.map_eq_some_iff.1 hy
  exact hab

lemma keys_nodup (s : Store α) : s.keys.Nodup := s.keys_sorted.imp Nat.ne_of_lt

/-- Which numbers there are says in which order they are listed. -/
lemma keys_eq {s : Store α} {s' : Store β} (h : ∀ i, s.contains i = s'.contains i) :
    s.keys = s'.keys := by
  have hperm : s.keys.Perm s'.keys := by
    apply (List.perm_ext_iff_of_nodup s.keys_nodup s'.keys_nodup).2
    intro i
    simp [mem_keys_iff, h]
  exact hperm.eq_of_pairwise (fun _ _ _ _ hij hji => absurd hij (Nat.lt_asymm hji)) s.keys_sorted
    s'.keys_sorted

lemma contains_erase (s : Store α) (i j : Nat) :
    (s.erase i).contains j ↔ j ≠ i ∧ s.contains j := by
  simp only [contains, get?_erase]
  split_ifs with h
  · simp [h]
  · simp [Ne.symm h]

@[simp] lemma next_erase (s : Store α) (i : Nat) : (s.erase i).next = s.next := by
  simp [erase, next]

@[simp] lemma next_push (s : Store α) (a : α) : (s.push a).next = s.next + 1 := by
  simp [push, next]

@[simp] lemma count_push (s : Store α) (a : α) : (s.push a).count = s.count + 1 := by
  simp [push, count]

/-- A thing that goes was counted. -/
lemma count_erase (s : Store α) (i : Nat) :
    (s.erase i).count + (s.get? i).toList.length = s.count := by
  by_cases hi : i < s.cells.size
  · have hpos : s.cells[i].isSome → 1 ≤ s.cells.countP Option.isSome := fun h =>
      Array.countP_pos_iff.2 ⟨_, Array.getElem_mem hi, h⟩
    rw [erase, count, count, get?, Array.setIfInBounds, dif_pos hi, Array.countP_set hi,
      Array.getElem?_eq_getElem hi]
    cases h : s.cells[i] with
    | none => simp
    | some a =>
      have := hpos (by rw [h]; rfl)
      simp
      omega
  · simp [erase, count, get?, Array.setIfInBounds, hi]

lemma modify_of_not_contains {s : Store α} {i : Nat} (h : ¬ s.contains i) (f : α → α) :
    s.modify i f = s := by
  have hcells : (s.modify i f).cells = s.cells := by
    apply Array.ext_getElem?
    intro j
    rw [modify, Array.getElem?_modify]
    split_ifs with hj
    · subst hj
      cases hc : s.cells[i]? with
      | none => rfl
      | some a? =>
        cases a? with
        | none => rfl
        | some a => simp [contains, get?, hc] at h
    · rfl
  cases s
  exact congrArg Store.mk hcells

/-- What is not there cannot go. -/
lemma erase_of_get? {s : Store α} {i : Nat} (h : s.get? i = none) : s.erase i = s := by
  have hcells : (s.erase i).cells = s.cells := by
    apply Array.ext_getElem?
    intro j
    rw [erase, Array.getElem?_setIfInBounds]
    split_ifs with hj hi
    · subst hj
      simpa [get?, Array.getElem?_eq_getElem hi, eq_comm] using h
    · subst hj
      simp [hi]
    · rfl
  cases s
  exact congrArg Store.mk hcells

end Store

namespace Session

variable {s s' : Session} {r : Ref} {n c p : NodeId} {h : HandleId} {k : SinkId}

/-! ### What refers to things -/

/-- The node leads to a thing. -/
lemma mem_refsOfNode_iff {a : Node} :
    r ∈ refsOfNode a ↔
      (∃ p, a.parent? = some p ∧ r = .node p) ∨ (∃ k c, a.children.get? k = some c ∧ r = .node c) ∨
        (∃ k ∈ a.sinks.sinks, r = .sink k) ∨ ∃ f, a.filter? = some f ∧ r ∈ refsOfFilter f := by
  simp only [refsOfNode, refsOfSinks, List.mem_append, List.mem_map, List.mem_flatMap,
    Option.mem_toList, Dict.mem_values_iff, or_assoc, eq_comm (a := r)]
  constructor
  · rintro (⟨p, hp, h⟩ | ⟨c, ⟨k, hk⟩, h⟩ | ⟨k, hk, h⟩ | h)
    · exact Or.inl ⟨p, hp, h⟩
    · exact Or.inr (Or.inl ⟨k, c, hk, h⟩)
    · exact Or.inr (Or.inr (Or.inl ⟨k, hk, h⟩))
    · exact Or.inr (Or.inr (Or.inr h))
  · rintro (⟨p, hp, h⟩ | ⟨k, c, hk, h⟩ | ⟨k, hk, h⟩ | h)
    · exact Or.inl ⟨p, hp, h⟩
    · exact Or.inr (Or.inl ⟨c, ⟨k, hk⟩, h⟩)
    · exact Or.inr (Or.inr (Or.inl ⟨k, hk, h⟩))
    · exact Or.inr (Or.inr (Or.inr h))

lemma mem_nodes_iff {a : Node} :
    (n, a) ∈ s.tree.nodes.toList ↔ s.tree.contains n ∧ s.tree.node n = a := by
  rw [Store.mem_toList_iff, Tree.contains, Store.contains, Tree.node]
  constructor
  · intro h
    rw [h]
    exact ⟨rfl, rfl⟩
  · rintro ⟨h, rfl⟩
    obtain ⟨b, hb⟩ := Option.isSome_iff_exists.1 h
    rw [hb]
    rfl

/-- Everything that refers to a thing. -/
theorem mem_refs_iff :
    r ∈ s.refs ↔
      r ∈ s.inUse ∨ r ∈ refsOfClient s.client ∨
      (∃ ns, s.scope? = some ns ∧ r ∈ refsOfNamespace ns) ∨
      (∃ h n, s.handles.get? h = some n ∧ r = .node n) ∨
      (∃ k b, s.sinks.get? k = some b ∧ r ∈ refsOfActions b.allActions) ∨
      ∃ n, s.tree.contains n ∧ r ∈ refsOfNode (s.tree.node n) := by
  simp only [refs, List.mem_append, List.mem_flatMap, List.mem_map, Option.mem_toList,
    Prod.exists, Store.mem_toList_iff, or_assoc, eq_comm (a := r)]
  have hnodes : (∃ n a, s.tree.nodes.get? n = some a ∧ r ∈ refsOfNode a) ↔
      ∃ n, s.tree.contains n ∧ r ∈ refsOfNode (s.tree.node n) := by
    constructor
    · rintro ⟨n, a, ha, hr⟩
      obtain ⟨hn, rfl⟩ := mem_nodes_iff.1 (Store.mem_toList_iff.2 ha)
      exact ⟨n, hn, hr⟩
    · rintro ⟨n, hn, hr⟩
      exact ⟨n, _, Store.mem_toList_iff.1 (mem_nodes_iff.2 ⟨hn, rfl⟩), hr⟩
  simp [hnodes]

lemma mem_refs_of_inUse (hr : r ∈ s.inUse) : r ∈ s.refs := mem_refs_iff.2 (Or.inl hr)

lemma mem_refs_of_client (hr : r ∈ refsOfClient s.client) : r ∈ s.refs :=
  mem_refs_iff.2 (Or.inr (Or.inl hr))

lemma mem_refs_of_scope {ns : Namespace} (hn : s.scope? = some ns) (hr : r ∈ refsOfNamespace ns) :
    r ∈ s.refs :=
  mem_refs_iff.2 (Or.inr (Or.inr (Or.inl ⟨ns, hn, hr⟩)))

lemma mem_refs_of_handle (hn : s.handles.get? h = some n) : .node n ∈ s.refs :=
  mem_refs_iff.2 (Or.inr (Or.inr (Or.inr (Or.inl ⟨h, n, hn, rfl⟩))))

lemma mem_refs_of_node (hn : s.tree.contains n) (hr : r ∈ refsOfNode (s.tree.node n)) :
    r ∈ s.refs :=
  mem_refs_iff.2 (Or.inr (Or.inr (Or.inr (Or.inr (Or.inr ⟨n, hn, hr⟩)))))

lemma mem_refs_of_parent (hn : s.tree.contains n) (hp : (s.tree.node n).parent? = some p) :
    .node p ∈ s.refs :=
  mem_refs_of_node hn (mem_refsOfNode_iff.2 (Or.inl ⟨p, hp, rfl⟩))

lemma mem_refs_of_nodeSinks (hn : s.tree.contains n) (hk : k ∈ (s.tree.node n).sinks.sinks) :
    .sink k ∈ s.refs :=
  mem_refs_of_node hn (mem_refsOfNode_iff.2 (Or.inr (Or.inr (Or.inl ⟨k, hk, rfl⟩))))

lemma mem_refs_of_clientHandle {id : String} (hc : s.client.handles.get? id = some h) :
    .handle h ∈ s.refs := by
  refine mem_refs_of_client ?_
  simp only [refsOfClient, List.mem_append, List.mem_map, Dict.mem_values_iff]
  exact Or.inl (Or.inl (Or.inl (Or.inl (Or.inl ⟨h, ⟨id, hc⟩, rfl⟩))))

lemma mem_refs_of_clientSink {id : String} (hc : s.client.sinks.get? id = some k) :
    .sink k ∈ s.refs := by
  refine mem_refs_of_client ?_
  simp only [refsOfClient, List.mem_append, List.mem_map, Dict.mem_values_iff]
  exact Or.inl (Or.inl (Or.inl (Or.inr ⟨k, ⟨id, hc⟩, rfl⟩)))

/-! ### The things there are -/

/-- The thing exists. -/
def Has (s : Session) : Ref → Prop
  | .node n => s.tree.contains n
  | .handle h => s.handles.contains h
  | .sink k => s.sinks.contains k

lemma things_eq (s : Session) :
    s.things = s.handles.keys.map Ref.handle ++ s.tree.nodes.keys.map Ref.node ++
      s.sinks.keys.map Ref.sink := by
  simp only [things, Store.keys, List.map_map]
  rfl

lemma mem_things_iff : r ∈ s.things ↔ s.Has r := by
  rw [things_eq]
  cases r <;> simp [Store.mem_keys_iff, Has, Tree.contains]

lemma things_nodup (s : Session) : s.things.Nodup := by
  have inj : ∀ {f : Nat → Ref} (l : List Nat), (∀ i j, f i = f j → i = j) → l.Nodup →
      (l.map f).Nodup := fun {f} l hf hl => hl.map fun i j => hf i j
  rw [things_eq, List.nodup_append, List.nodup_append]
  refine ⟨⟨inj _ ?_ s.handles.keys_nodup, inj _ ?_ s.tree.nodes.keys_nodup, ?_⟩,
    inj _ ?_ s.sinks.keys_nodup, ?_⟩
  · intro i j hij
    cases hij
    rfl
  · intro i j hij
    cases hij
    rfl
  · intro a ha b hb
    obtain ⟨i, -, rfl⟩ := List.mem_map.1 ha
    obtain ⟨j, -, rfl⟩ := List.mem_map.1 hb
    exact fun h => nomatch h
  · intro i j hij
    cases hij
    rfl
  · intro a ha b hb
    obtain ⟨j, -, rfl⟩ := List.mem_map.1 hb
    rcases List.mem_append.1 ha with ha | ha
    · obtain ⟨i, -, rfl⟩ := List.mem_map.1 ha
      exact fun h => nomatch h
    · obtain ⟨i, -, rfl⟩ := List.mem_map.1 ha
      exact fun h => nomatch h

lemma has_destroy_iff {r' : Ref} : (s.destroy r).Has r' ↔ r' ≠ r ∧ s.Has r' := by
  cases r <;> cases r' <;> simp [destroy, Has, Tree.contains, Store.contains_erase]

/-! ### Settling -/

/-- Something refers to each thing there is. -/
def Settled (s : Session) : Prop := ∀ r, s.Has r → r ∈ s.refs

lemma settled_iff : s.Settled ↔ s.unowned? = none := by
  simp only [unowned?, List.find?_eq_none, mem_things_iff, Settled, Bool.not_eq_true',
    Bool.not_eq_false, List.contains_iff_mem]

lemma has_of_unowned? (h : s.unowned? = some r) : s.Has r :=
  mem_things_iff.1 (List.mem_of_find?_eq_some h)

lemma things_length_destroy (hr : s.Has r) :
    (s.destroy r).things.length < s.things.length := by
  have hnodup : (r :: (s.destroy r).things).Nodup := by
    refine List.nodup_cons.2 ⟨fun hmem => ?_, things_nodup _⟩
    exact (has_destroy_iff.1 (mem_things_iff.1 hmem)).1 rfl
  have hsub : r :: (s.destroy r).things ⊆ s.things := by
    intro r' hr'
    rcases List.mem_cons.1 hr' with rfl | hr'
    · exact mem_things_iff.2 hr
    · exact mem_things_iff.2 (has_destroy_iff.1 (mem_things_iff.1 hr')).2
  exact (List.subperm_of_subset hnodup hsub).length_le

/-- What ends of things preserve, settling preserves. -/
theorem settleWithin_induction {motive : Session → Prop}
    (step : ∀ s r, motive s → r ∉ s.refs → s.Has r → motive (s.destroy r)) (fuel : Nat)
    (hs : motive s) : motive (settleWithin fuel s) := by
  induction fuel generalizing s with
  | zero => exact hs
  | succ fuel ih =>
    rw [settleWithin]
    cases hu : s.unowned? with
    | none => exact hs
    | some r => exact ih (step s r hs (not_mem_refs_of_unowned? hu) (has_of_unowned? hu))

lemma settled_settleWithin (fuel : Nat) (hf : s.things.length ≤ fuel) :
    (settleWithin fuel s).Settled := by
  induction fuel generalizing s with
  | zero =>
    intro r hr
    have hnil := List.eq_nil_of_length_eq_zero (Nat.le_zero.1 hf)
    rw [settleWithin, ← mem_things_iff, hnil] at hr
    cases hr
  | succ fuel ih =>
    rw [settleWithin]
    cases hu : s.unowned? with
    | none => exact settled_iff.2 hu
    | some r =>
      have hlt := things_length_destroy (has_of_unowned? hu)
      exact ih (Nat.le_of_lt_succ (Nat.lt_of_lt_of_le hlt hf))

theorem settled_settle (s : Session) : s.settle.Settled := settled_settleWithin _ (Nat.le_refl _)

lemma Settled.settle_eq (hs : s.Settled) : s.settle = s := by
  rw [settle]
  cases s.things.length with
  | zero => rfl
  | succ fuel => simp [settleWithin, settled_iff.1 hs]

/-- A session stays settled while the same things exist and are referred to. -/
lemma Settled.of_same (hs : s.Settled) (hh : ∀ r, s'.Has r → s.Has r)
    (hr : ∀ r, r ∈ s.refs → r ∈ s'.refs) : s'.Settled := fun r hr' => hr r (hs r (hh r hr'))

/-- A change of nodes that leaves what they lead to. -/
lemma Settled.withTree (hs : s.Settled) {t : Tree} (hc : ∀ n, t.contains n = s.tree.contains n)
    (hr : ∀ n, refsOfNode (t.node n) = refsOfNode (s.node n)) :
    ({ s with tree := t } : Session).Settled := by
  refine hs.of_same (fun r hr' => ?_) fun r hr' => ?_
  · cases r with
    | node n =>
      have hn : t.contains n := hr'
      rw [hc] at hn
      exact hn
    | handle | sink => exact hr'
  · rcases mem_refs_iff.1 hr' with h | h | h | h | h | ⟨n, hn, h⟩
    · exact mem_refs_iff.2 (Or.inl h)
    · exact mem_refs_iff.2 (Or.inr (Or.inl h))
    · exact mem_refs_iff.2 (Or.inr (Or.inr (Or.inl h)))
    · exact mem_refs_iff.2 (Or.inr (Or.inr (Or.inr (Or.inl h))))
    · exact mem_refs_iff.2 (Or.inr (Or.inr (Or.inr (Or.inr (Or.inl h)))))
    · rw [← hc] at hn
      have h' : r ∈ refsOfNode (t.node n) := by
        rw [hr]
        exact h
      exact mem_refs_iff.2 (Or.inr (Or.inr (Or.inr (Or.inr (Or.inr ⟨n, hn, h'⟩)))))

lemma Settled.configure (hs : s.Settled) (n : NodeId) {f : Node → Node}
    (hf : ∀ a, refsOfNode (f a) = refsOfNode a) : (s.modifyNode n f).Settled := by
  refine hs.withTree (fun m => Tree.contains_modify _ _ _ _) fun m => ?_
  rw [Tree.node_modify]
  split_ifs
  · exact hf _
  · rfl

/-- A change beside all that there is and all that refers to it. -/
lemma Settled.of_eq (hs : s.Settled) (ht : s'.tree = s.tree) (hh : s'.handles = s.handles)
    (hk : s'.sinks = s.sinks) (hn : s'.scope? = s.scope?) (hc : s'.client = s.client)
    (hi : s'.inUse = s.inUse) : s'.Settled := by
  have hrefs : s'.refs = s.refs := by rw [refs, refs, ht, hh, hk, hn, hc, hi]
  intro r hr
  rw [hrefs]
  refine hs r ?_
  cases r with
  | node n =>
    rw [Has, ht] at hr
    exact hr
  | handle i =>
    rw [Has, hh] at hr
    exact hr
  | sink k =>
    rw [Has, hk] at hr
    exact hr

end Session

end Logging
