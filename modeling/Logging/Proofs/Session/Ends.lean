import Logging.Proofs.Session.Things

/-!
# Ends of things

A thing ends when nothing refers to it; a child may also be removed while its entry still refers to
it, if that is the last reference. So ends leave no node behind that leads to nothing
(`Ends.grounded`), and what the client and running calls hold on to stays (`Ends.keeps`). To deal
with the ends of handles leaves a settled session settled, and no notice is left
(`notices_reclaim`).
-/

namespace Logging.Session

open Relation (ReflTransGen)

variable {s s' : Session} {r : Ref} {n m c p : NodeId} {i : HandleId} {k : String}

/-! ### What refers to nodes -/

/-- What refers to things, apart from handles, sinks and nodes. -/
def outerRefs (s : Session) : List Ref :=
  s.inUse ++ refsOfClient s.client ++ s.scope?.toList.flatMap refsOfNamespace

lemma node_not_mem_refsOfActions (actions : List BoundAction) :
    .node n ∉ refsOfActions actions := by
  simp [refsOfActions]

lemma node_not_mem_refsOfFilter (f : NodeFilter) : .node n ∉ refsOfFilter f := by
  simp [refsOfFilter, node_not_mem_refsOfActions]

lemma node_not_mem_refsOfHooks (hooks : List BoundHook) : .node n ∉ refsOfHooks hooks := by
  simp [refsOfHooks, node_not_mem_refsOfActions]

lemma node_not_mem_refsOfSinks (a : NodeSinks) : .node n ∉ refsOfSinks a := by simp [refsOfSinks]

/-- The nodes that a node leads to are its parent and its children. -/
lemma node_mem_refsOfNode_iff {a : Node} :
    .node n ∈ refsOfNode a ↔ a.parent? = some n ∨ ∃ k, a.children.get? k = some n := by
  simp [mem_refsOfNode_iff, node_not_mem_refsOfFilter]

/-- A namespace refers to the root and to no other node. -/
lemma node_mem_refsOfNamespace_iff {ns : Namespace} :
    .node n ∈ refsOfNamespace ns ↔ n = Tree.root := by
  simp [refsOfNamespace, node_not_mem_refsOfFilter, node_not_mem_refsOfHooks]

/-- A node is referred to from outside, by a handle, by a child, or by the entry of its parent. -/
theorem node_mem_refs_iff :
    .node n ∈ s.refs ↔ .node n ∈ s.outerRefs ∨ (∃ i, s.handles.get? i = some n) ∨
      ∃ m, (s.tree.node m).parent? = some n ∨ ∃ k, s.tree.child? m k = some n := by
  rw [mem_refs_iff]
  simp only [outerRefs, List.mem_append, List.mem_flatMap, Option.mem_toList,
    node_not_mem_refsOfActions, node_mem_refsOfNode_iff, Ref.node.injEq, and_false, exists_false,
    false_or, or_assoc]
  have hnodes : (∃ m, s.tree.contains m ∧ ((s.tree.node m).parent? = some n ∨
        ∃ k, (s.tree.node m).children.get? k = some n)) ↔
      ∃ m, (s.tree.node m).parent? = some n ∨ ∃ k, s.tree.child? m k = some n := by
    constructor
    · rintro ⟨m, -, h⟩
      exact ⟨m, h⟩
    · rintro ⟨m, h | ⟨k, h⟩⟩
      · exact ⟨m, Tree.contains_of_parent? h, Or.inl h⟩
      · exact ⟨m, Tree.contains_of_child h, Or.inr ⟨k, h⟩⟩
  rw [hnodes]
  constructor
  · rintro (h | h | h | ⟨i, m, h, rfl⟩ | h)
    · exact Or.inl h
    · exact Or.inr (Or.inl h)
    · exact Or.inr (Or.inr (Or.inl h))
    · exact Or.inr (Or.inr (Or.inr (Or.inl ⟨i, h⟩)))
    · exact Or.inr (Or.inr (Or.inr (Or.inr h)))
  · rintro (h | h | h | ⟨i, h⟩ | h)
    · exact Or.inl h
    · exact Or.inr (Or.inl h)
    · exact Or.inr (Or.inr (Or.inl h))
    · exact Or.inr (Or.inr (Or.inr (Or.inl ⟨i, n, h, rfl⟩)))
    · exact Or.inr (Or.inr (Or.inr (Or.inr h)))

/-! ### The owner of a removable child -/

lemma count_flatMap_pos {α β : Type} [DecidableEq β] {f : α → List β} {l : List α} {a : α} {x : β}
    (ha : a ∈ l) (hx : x ∈ f a) : 1 ≤ (l.flatMap f).count x :=
  List.one_le_count_iff.2 (List.mem_flatMap.2 ⟨a, ha, hx⟩)

/-- What two elements of a list lead to occurs twice. -/
lemma two_le_count_flatMap {α β : Type} [DecidableEq β] {f : α → List β} {l : List α} {a b : α}
    {x : β} (ha : a ∈ l) (hb : b ∈ l) (hab : a ≠ b) (hxa : x ∈ f a) (hxb : x ∈ f b) :
    2 ≤ (l.flatMap f).count x := by
  induction l with
  | nil => cases ha
  | cons c l ih =>
    rw [List.flatMap_cons, List.count_append]
    rcases List.mem_cons.1 ha with rfl | ha'
    · have hb' := (List.mem_cons.1 hb).resolve_left hab.symm
      exact Nat.add_le_add (List.one_le_count_iff.2 hxa) (count_flatMap_pos hb' hxb)
    · rcases List.mem_cons.1 hb with rfl | hb'
      · exact Nat.add_le_add (List.one_le_count_iff.2 hxb) (count_flatMap_pos ha' hxa)
      · exact Nat.le_trans (ih ha' hb') (Nat.le_add_left _ _)

lemma owners_eq (s : Session) (r : Ref) :
    s.owners r = s.outerRefs.count r
      + (s.handles.toList.map fun h => Ref.node h.2).count r
      + (s.sinks.toList.flatMap fun k => refsOfActions k.2.allActions).count r
      + (s.tree.nodes.toList.flatMap fun n => refsOfNode n.2).count r := by
  rw [owners, refs, List.count_append, List.count_append, List.count_append, outerRefs]

lemma entry_mem_nodes (hc : s.tree.child? p k = some c) :
    (p, s.tree.node p) ∈ s.tree.nodes.toList ∧ .node c ∈ refsOfNode (s.tree.node p) :=
  ⟨mem_nodes_iff.2 ⟨Tree.contains_of_child hc, rfl⟩, node_mem_refsOfNode_iff.2 (Or.inr ⟨k, hc⟩)⟩

/-- The entry of a removable child is all that leads to it. -/
lemma parent_ne_of_removable (hs : s.Sound) (hc : s.tree.child? p k = some c)
    (hr : s.owners (.node c) = 1) (a : NodeId) (ha : s.tree.contains a) :
    (s.tree.node a).parent? ≠ some c := by
  intro hac
  have hne : (p, s.tree.node p) ≠ (a, s.tree.node a) := by
    intro heq
    obtain rfl : p = a := congrArg Prod.fst heq
    exact Nat.lt_asymm (hs.tree.older hc) (hs.tree.parent_older hac)
  have htwo : 2 ≤ (s.tree.nodes.toList.flatMap fun n => refsOfNode n.2).count (.node c) :=
    two_le_count_flatMap (entry_mem_nodes hc).1 (mem_nodes_iff.2 ⟨ha, rfl⟩) hne
      (entry_mem_nodes hc).2 (node_mem_refsOfNode_iff.2 (Or.inl hac))
  rw [owners_eq] at hr
  omega

/-- No handle is for a removable child. -/
lemma handle_ne_of_removable (hc : s.tree.child? p k = some c)
    (hr : s.owners (.node c) = 1) (i : HandleId) : s.handles.get? i ≠ some c := by
  intro hi
  have hone : 1 ≤ (s.handles.toList.map fun h => Ref.node h.2).count (.node c) :=
    List.one_le_count_iff.2 (List.mem_map.2 ⟨(i, c), Store.mem_toList_iff.2 hi, rfl⟩)
  have hone' : 1 ≤ (s.tree.nodes.toList.flatMap fun n => refsOfNode n.2).count (.node c) :=
    count_flatMap_pos (entry_mem_nodes hc).1 (entry_mem_nodes hc).2
  rw [owners_eq] at hr
  omega

/-- Nothing outside refers to a removable child. -/
lemma not_mem_outerRefs_of_removable (hc : s.tree.child? p k = some c)
    (hr : s.owners (.node c) = 1) : .node c ∉ s.outerRefs := by
  intro hm
  have hone : 1 ≤ s.outerRefs.count (.node c) := List.one_le_count_iff.2 hm
  have hone' : 1 ≤ (s.tree.nodes.toList.flatMap fun n => refsOfNode n.2).count (.node c) :=
    count_flatMap_pos (entry_mem_nodes hc).1 (entry_mem_nodes hc).2
  rw [owners_eq] at hr
  omega

lemma owners_of_removable (h : s.removable c) : s.owners (.node c) = 1 :=
  beq_iff_eq.1 (Bool.and_eq_true_iff.1 h).1

lemma isDefault_of_removable (h : s.removable c) : (s.node c).isDefault :=
  (Bool.and_eq_true_iff.1 h).2

/-! ### What stays -/

/-- Nothing that is held from outside is lost, and no handle appears. -/
structure Keeps (s s' : Session) : Prop where
  client : s'.client = s.client
  inUse : s'.inUse = s.inUse
  scope : s'.scope? = s.scope?
  next : s'.handles.next = s.handles.next
  handle : ∀ {i n}, s'.handles.get? i = some n → s.handles.get? i = some n
  held : ∀ {i}, .handle i ∈ s.outerRefs → s'.handles.get? i = s.handles.get? i

lemma Keeps.of_eq (hc : s'.client = s.client) (hi : s'.inUse = s.inUse) (hn : s'.scope? = s.scope?)
    (hh : s'.handles = s.handles) : s.Keeps s' :=
  ⟨hc, hi, hn, by rw [hh], fun h => hh ▸ h, fun _ => by rw [hh]⟩

lemma Keeps.refl (s : Session) : s.Keeps s := .of_eq rfl rfl rfl rfl

lemma Keeps.outerRefs (h : s.Keeps s') : s'.outerRefs = s.outerRefs := by
  rw [Session.outerRefs, Session.outerRefs, h.client, h.inUse, h.scope]

lemma Keeps.trans {s'' : Session} (h : s.Keeps s') (h' : s'.Keeps s'') : s.Keeps s'' where
  client := h'.client.trans h.client
  inUse := h'.inUse.trans h.inUse
  scope := h'.scope.trans h.scope
  next := h'.next.trans h.next
  handle hn := h.handle (h'.handle hn)
  held hi := (h'.held (h.outerRefs ▸ hi)).trans (h.held hi)

lemma mem_refs_of_outer (h : r ∈ s.outerRefs) : r ∈ s.refs :=
  List.mem_append_left _ (List.mem_append_left _ (List.mem_append_left _ h))

lemma End.keeps (h : s.End s') : s.Keeps s' := by
  cases h with
  | removeChild => exact .of_eq rfl rfl rfl rfl
  | @destroy r hr =>
    cases r with
    | node | sink => exact .of_eq rfl rfl rfl rfl
    | handle j =>
      refine ⟨rfl, rfl, rfl, Store.next_erase _ _, fun {i n} hn => ?_, fun {i} hi => ?_⟩
      · have hn' : (s.handles.erase j).get? i = some n := hn
        rw [Store.get?_erase] at hn'
        split_ifs at hn'
        exact hn'
      · show (s.handles.erase j).get? i = s.handles.get? i
        rw [Store.get?_erase, if_neg]
        rintro rfl
        exact hr (mem_refs_of_outer hi)

lemma Ends.keeps (h : s.Ends s') : s.Keeps s' := by
  induction h with
  | refl => exact .refl s
  | tail _ h ih => exact ih.trans h.keeps

/-- A handle ends with its notice. -/
lemma End.pending (h : s.End s') :
    s'.notices.length + s'.handles.count = s.notices.length + s.handles.count := by
  cases h with
  | removeChild => rfl
  | @destroy r hr =>
    cases r with
    | node | sink => rfl
    | handle j =>
      have hc := s.handles.count_erase j
      show (s.notices ++ (s.handles.get? j).toList.map fun n => (⟨n, j⟩ : Notice)).length +
        (s.handles.erase j).count = _
      rw [List.length_append, List.length_map]
      omega

lemma Ends.pending (h : s.Ends s') :
    s'.notices.length + s'.handles.count = s.notices.length + s.handles.count := by
  induction h with
  | refl => rfl
  | tail _ h ih => exact h.pending.trans ih

/-! ### What is left of the tree -/

lemma End.partOf (h : s.End s') (hs : s.Sound) : s'.tree.PartOf s.tree := by
  have ht := hs.tree.toWellShaped
  cases h with
  | removeChild hk _ => exact Tree.partOf_removeChild ht hk
  | @destroy r hr =>
    cases r with
    | handle | sink => exact Tree.PartOf.refl ht
    | node x => exact Tree.partOf_drop ht (child?_ne_of_not_mem_refs hr)

/-- No entry goes with a thing that nothing refers to: a child leads to its parent, and the parent
to the child. -/
lemma child?_destroy_of_some (hs : s.tree.WellShaped) (hr : r ∉ s.refs)
    (hk : s.tree.child? p k = some c) : (s.destroy r).tree.child? p k = some c := by
  cases r with
  | handle | sink => exact hk
  | node x =>
    show (s.tree.drop x).child? p k = some c
    rw [Tree.child?_drop, if_neg]
    · exact hk
    · rintro rfl
      exact hr (mem_refs_of_parent (hs.present hk) (hs.parent_eq hk))

/-- An entry between nodes that are left stays. -/
lemma End.entry (h : s.End s') (hk : s.tree.child? p k = some c)
    (hp : s'.tree.contains p) (hc : s'.tree.contains c) : s'.tree.child? p k = some c := by
  cases h with
  | @destroy r hr =>
    cases r with
    | handle | sink => exact hk
    | node x =>
      show (s.tree.drop x).child? p k = some c
      rw [Tree.child?_drop, if_neg (Tree.contains_drop.1 hp).1]
      exact hk
  | @removeChild q d j hd _ =>
    show (s.tree.removeChild q j d).child? p k = some c
    have hentry : ¬ (q = p ∧ j = k) := by
      rintro ⟨rfl, rfl⟩
      exact (Tree.contains_drop.1 hc).1 (Option.some.inj (hd.symm.trans hk))
    rw [Tree.removeChild, Tree.child?_drop, if_neg (Tree.contains_drop.1 hp).1, Tree.child?_strike,
      if_neg hentry]
    exact hk

lemma Ends.partOf (h : s.Ends s') (hs : s.Sound) : s'.tree.PartOf s.tree :=
  h.induction (motive := fun u => u.tree.PartOf s.tree) hs (.refl hs.tree.toWellShaped)
    fun _ _ hs h ih => (h.partOf hs).trans ih

lemma Ends.entry (h : s.Ends s') (hs : s.Sound) (hk : s.tree.child? p k = some c)
    (hp : s'.tree.contains p) (hc : s'.tree.contains c) : s'.tree.child? p k = some c := by
  refine h.induction (motive := fun u => u.tree.contains p → u.tree.contains c →
    u.tree.child? p k = some c) hs (fun _ _ => hk) (fun u v hu h ih hp hc => ?_) hp hc
  have hpart := h.partOf hu
  exact h.entry (ih (hpart.contains hp) (hpart.contains hc)) hp hc

/-! ### Where references lead -/

/-- Nodes that something leads to are there, and so are the handles that a client holds. -/
structure Grounded (s : Session) : Prop where
  outer : ∀ {n}, .node n ∈ s.outerRefs → s.tree.contains n
  bound : ∀ {i n}, s.handles.get? i = some n → s.tree.contains n
  parent : ∀ {m n}, (s.tree.node m).parent? = some n → s.tree.contains n
  held : ∀ {id i}, s.client.handles.get? id = some i → s.handles.contains i

lemma handle_mem_outerRefs {id : String} (h : s.client.handles.get? id = some i) :
    .handle i ∈ s.outerRefs := by
  have hc : .handle i ∈ refsOfClient s.client := by
    simp only [refsOfClient, List.mem_append, List.mem_map, Dict.mem_values_iff]
    exact Or.inl (Or.inl (Or.inl (Or.inl (Or.inl ⟨i, ⟨id, h⟩, rfl⟩))))
  simp [outerRefs, hc]

lemma Keeps.contains_held (h : s.Keeps s') (hg : s.Grounded) {id : String}
    (hi : s'.client.handles.get? id = some i) : s'.handles.contains i := by
  rw [h.client] at hi
  rw [Store.contains, h.held (handle_mem_outerRefs hi)]
  exact hg.held hi

/-- References still lead somewhere if nothing led to what is gone. -/
lemma Grounded.of_keeps (hg : s.Grounded) (hk : s.Keeps s') (ht : s'.tree.PartOf s.tree)
    (hgone : ∀ n, s.tree.contains n → ¬ s'.tree.contains n → .node n ∉ s.outerRefs ∧
      (∀ i, s.handles.get? i ≠ some n) ∧ ∀ m, (s.tree.node m).parent? ≠ some n) :
    s'.Grounded where
  outer {n} hn := by
    rw [hk.outerRefs] at hn
    by_contra hc
    exact (hgone n (hg.outer hn) hc).1 hn
  bound {i n} hn := by
    by_contra hc
    exact (hgone n (hg.bound (hk.handle hn)) hc).2.1 i (hk.handle hn)
  parent {m n} hn := by
    rw [(ht.kept (Tree.contains_of_parent? hn)).parent] at hn
    by_contra hc
    exact (hgone n (hg.parent hn) hc).2.2 m hn
  held := hk.contains_held hg

lemma End.grounded (h : s.End s') (hs : s.Sound) (hg : s.Grounded) : s'.Grounded := by
  have hk := h.keeps
  have hpart := h.partOf hs
  cases h with
  | @removeChild p c k hc hr =>
    have hone := owners_of_removable hr
    refine hg.of_keeps hk hpart fun n hn hgone => ?_
    obtain rfl : c = n := by
      by_contra hne
      exact hgone (Tree.contains_drop.2 ⟨hne, (Tree.contains_modify s.tree p n _).trans hn⟩)
    refine ⟨not_mem_outerRefs_of_removable hc hone, handle_ne_of_removable hc hone, fun m hm => ?_⟩
    exact parent_ne_of_removable hs hc hone m (Tree.contains_of_parent? hm) hm
  | @destroy r hr =>
    cases r with
    | handle | sink =>
      exact ⟨hg.outer, fun h => hg.bound (hk.handle h), hg.parent, hk.contains_held hg⟩
    | node x =>
      refine hg.of_keeps hk hpart fun n hn hgone => ?_
      obtain rfl : x = n := by
        by_contra hne
        exact hgone (Tree.contains_drop.2 ⟨hne, hn⟩)
      rw [node_mem_refs_iff, not_or, not_or, not_exists, not_exists] at hr
      exact ⟨hr.1, hr.2.1, fun m hm => hr.2.2 m (Or.inl hm)⟩

lemma Ends.grounded (h : s.Ends s') (hs : s.Sound) (hg : s.Grounded) : s'.Grounded :=
  h.induction hs hg fun _ _ hs h => h.grounded hs

/-! ### Dealing with ended handles -/

lemma untrack_of_not_contains {a : Notice} (h : ¬ s.tree.contains a.node) : s.untrack a = s := by
  rw [untrack, modifyNode, Tree.modify, Store.modify_of_not_contains h]

/-- The session once the end of a handle is counted, and the handle struck off the list of its
node. -/
def strikeOff (s : Session) (a : Notice) : Session := (s.bump .handlesReclaimed).untrack a

/-- To deal with the end of a handle starts with striking it off, and then things end. -/
lemma leads_strikeOff (s : Session) (a : Notice) (rest : List Notice) :
    s.Leads (({ s with notices := rest } : Session).strikeOff a) := by
  have hb : s.Leads (({ s with notices := rest } : Session).bump .handlesReclaimed) :=
    leads_beside rfl rfl rfl id
  exact hb.trans (leads_untrack _ a)

lemma ends_process (s : Session) (a : Notice) : (s.strikeOff a).Ends (s.process a) := by
  rw [process_eq, strikeOff]
  split_ifs with hc
  · exact ends_prune _ _
  · exact .refl _
  · rw [untrack_of_not_contains (s := s.bump .handlesReclaimed) hc]
    exact .refl _

/-- What is done at the end of a handle, once it is counted. -/
def discharge (s : Session) (notice : Notice) : Session :=
  if s.tree.contains notice.node then
    if (s.node notice.node).liveHandles.contains notice.handle &&
        !((s.untrack notice).node notice.node).hasLiveHandles then
      (s.untrack notice).prune notice.node
    else s.untrack notice
  else s

lemma process_eq_discharge (s : Session) (notice : Notice) :
    s.process notice = (s.bump .handlesReclaimed).discharge notice := rfl

lemma reclaimWithin_of_nil (hn : s.notices = []) (fuel : Nat) : reclaimWithin fuel s = (0, s) := by
  cases fuel with
  | zero => rfl
  | succ fuel => simp [reclaimWithin, hn]

lemma reclaimWithin_of_cons {a : Notice} {rest : List Notice} (hn : s.notices = a :: rest)
    (fuel : Nat) :
    reclaimWithin (fuel + 1) s =
      ((reclaimWithin fuel (({ s with notices := rest } : Session).process a)).1 + 1,
        (reclaimWithin fuel (({ s with notices := rest } : Session).process a)).2) := by
  simp [reclaimWithin, hn]

/-- What holds on when the oldest end is dealt with holds when all are. -/
theorem reclaimWithin_induction {motive : Session → Prop}
    (step : ∀ s a rest, s.notices = a :: rest → motive s →
      motive (({ s with notices := rest } : Session).process a)) (fuel : Nat) (hs : motive s) :
    motive (reclaimWithin fuel s).2 := by
  induction fuel generalizing s with
  | zero => exact hs
  | succ fuel ih =>
    cases hn : s.notices with
    | nil =>
      rw [reclaimWithin_of_nil hn]
      exact hs
    | cons a rest =>
      rw [reclaimWithin_of_cons hn]
      exact ih (step s a rest hn hs)

lemma keeps_process (s : Session) (a : Notice) : s.Keeps (s.process a) := by
  have hu : s.Keeps (s.strikeOff a) := .of_eq rfl rfl rfl rfl
  exact hu.trans (ends_process s a).keeps

lemma keeps_reclaim (s : Session) : s.Keeps s.reclaim.2 := by
  refine reclaimWithin_induction (motive := s.Keeps) (fun s' a rest _ h => ?_) _ (.refl s)
  have hr : s'.Keeps { s' with notices := rest } := .of_eq rfl rfl rfl rfl
  exact h.trans (hr.trans (keeps_process _ a))

/-- A pass has as many ends to deal with as there are notices and handles, at most, so it leaves
none. -/
theorem notices_reclaim (s : Session) : s.reclaim.2.notices = [] := by
  have h : ∀ fuel (s : Session), s.notices.length + s.handles.count ≤ fuel →
      (reclaimWithin fuel s).2.notices = [] := by
    intro fuel
    induction fuel with
    | zero =>
      intro s hf
      rw [Nat.le_zero, Nat.add_eq_zero_iff, List.length_eq_zero_iff] at hf
      exact hf.1
    | succ fuel ih =>
      intro s hf
      cases hn : s.notices with
      | nil => rwa [reclaimWithin_of_nil hn]
      | cons a rest =>
        rw [reclaimWithin_of_cons hn]
        apply ih
        have hp := (ends_process { s with notices := rest } a).pending
        rw [hp]
        rw [hn, List.length_cons] at hf
        show rest.length + s.handles.count ≤ fuel
        omega
  exact h _ s (Nat.le_refl _)

/-! ### Settled sessions -/

/-- What setting a level leaves of a node. -/
lemma exists_withLevel_setLevel {t : Tree} (ht : t.LevelsSound) (n x : NodeId)
    (l? : Option Level) : ∃ l v, (t.setLevel n l?).node x = (t.node x).withLevel l v := by
  by_cases hx : x = n
  · subst hx
    by_cases hc : t.contains x
    · exact ⟨_, _, Tree.node_setLevel_self ht hc⟩
    · have hc' : ¬ (t.setLevel x l?).contains x := by
        rwa [(Tree.sameShape_setLevel t x l?).contains_eq]
      rw [Tree.node_of_not_contains hc, Tree.node_of_not_contains hc']
      exact ⟨none, 0, rfl⟩
  · by_cases hh : t.Heir n x
    · exact ⟨_, _, Tree.node_setLevel_heir ht hh⟩
    · rw [Tree.node_setLevel_other hx hh]
      exact ⟨_, _, rfl⟩

lemma Settled.setLevel (hs : s.Settled) (ht : s.Sound) (n : NodeId) (l? : Option Level) :
    ({ s with tree := s.tree.setLevel n l? } : Session).Settled := by
  apply hs.withTree (Tree.sameShape_setLevel s.tree n l?).contains_eq
  intro x
  obtain ⟨l, v, hx⟩ := exists_withLevel_setLevel ht.tree n x l?
  rw [hx]
  rfl

/-- Only pruning ends things, and settles after that. -/
lemma Settled.process (hs : s.Settled) (a : Notice) : (s.process a).Settled := by
  have hb : (s.bump .handlesReclaimed).Settled := hs.of_eq rfl rfl rfl rfl rfl rfl
  have hu : ((s.bump .handlesReclaimed).untrack a).Settled := by
    refine hb.configure a.node ?_
    exact fun _ => rfl
  rw [process_eq_discharge, Session.discharge]
  split_ifs
  · rw [Session.prune]
    split_ifs
    · exact hu
    · exact settled_settle _
  · exact hu
  · exact hb

lemma Settled.reclaim (hs : s.Settled) : s.reclaim.2.Settled := by
  refine reclaimWithin_induction (motive := Settled) (fun s a rest _ h => ?_) _ hs
  have hr : ({ s with notices := rest } : Session).Settled := h.of_eq rfl rfl rfl rfl rfl rfl
  exact hr.process a

/-- What a step changes beside the things there are leaves them with their owners. -/
lemma Settled.withScope (hs : s.Settled) {f : Namespace → Namespace}
    (hf : ∀ ns, s.scope? = some ns → ∀ r ∈ refsOfNamespace ns, r ∈ refsOfNamespace (f ns)) :
    ({ s with scope? := s.scope?.map f } : Session).Settled := by
  refine hs.of_same (fun r hr => by cases r <;> exact hr) fun r hr => ?_
  rcases mem_refs_iff.1 hr with hr | hr | ⟨ns, hns, hr⟩ | hr
  · exact mem_refs_iff.2 (Or.inl hr)
  · exact mem_refs_iff.2 (Or.inr (Or.inl hr))
  · have hns' : s.scope?.map f = some (f ns) := by rw [hns, Option.map_some]
    exact mem_refs_iff.2 (Or.inr (Or.inr (Or.inl ⟨f ns, hns', hf ns hns r hr⟩)))
  · exact mem_refs_iff.2 (Or.inr (Or.inr (Or.inr hr)))

end Logging.Session
