import Logging.Proofs.Session.Callbacks

/-!
# How calls leave a session

A call takes a course, gives back what it held on to, and keeps three things: that references lead
somewhere, that whatever exists is referred to, and that callbacks stay within their licence. Here
this is shown of the changes that calls are made of.
-/

namespace Logging.Session

variable {L : Licence} {s s' : Session} {n m c : NodeId} {i : HandleId} {k : String} {r : Ref}

/-- How a call may leave a session. -/
structure Conduct (L : Licence) (s s' : Session) : Prop where
  course : s.Course L s'
  inUse : s'.inUse = s.inUse
  grounded : s.Grounded → s'.Grounded
  settled : s.Grounded → s.Settled → s'.Settled
  heeds : s.Heeds L → s'.Heeds L

/-- The session is sound, and its callbacks do no more than the licence lets them. -/
structure Ready (L : Licence) (s : Session) : Prop extends s.Sound where
  heeds : s.Heeds L

lemma Sound.ready (hs : s.Sound) (h : L.callbacks) : s.Ready L := ⟨hs, heeds_of_callbacks h s⟩

lemma Conduct.refl (s : Session) : s.Conduct L s := ⟨.refl s, rfl, id, fun _ => id, id⟩

lemma Conduct.trans {s'' : Session} (h : s.Conduct L s') (h' : s'.Conduct L s'') :
    s.Conduct L s'' where
  course := h.course.trans h'.course
  inUse := h'.inUse.trans h.inUse
  grounded hg := h'.grounded (h.grounded hg)
  settled hg hs := h'.settled (h.grounded hg) (h.settled hg hs)
  heeds hh := h'.heeds (h.heeds hh)

lemma Conduct.leads (h : s.Conduct L s') (hs : s.Sound) : s.Leads s' := h.course.leads hs

lemma Conduct.sound (h : s.Conduct L s') (hs : s.Sound) : s'.Sound := (h.leads hs).sound hs

lemma Conduct.ready (h : s.Conduct L s') (hs : s.Ready L) : s'.Ready L :=
  ⟨h.sound hs.toSound, h.heeds hs.heeds⟩

/-- A course may leave things that nothing refers to, if the session settles then. -/
lemma Conduct.of_settle (hs : s.Sound) (h : s.Course L s') (hi : s'.inUse = s.inUse)
    (hg : s.Grounded → s'.Grounded) (hh : s.Heeds L → s'.Heeds L) : s.Conduct L s'.settle where
  course := h.trans (course_settle s')
  inUse := (ends_settle s').keeps.inUse.trans hi
  grounded h' := (ends_settle s').grounded ((h.leads hs).sound hs) (hg h')
  settled _ _ := settled_settle s'
  heeds h' := (hh h').settle

/-- A node that was made, and that is there if references lead somewhere. -/
structure Known (s : Session) (n : NodeId) : Prop where
  made : n < s.tree.nodes.next
  there : s.Grounded → s.tree.contains n

/-! ### Beside the tree -/

/-- What is done beside the tree and the handles leaves references as they are. -/
lemma Grounded.of_beside (hg : s.Grounded) (ht : s'.tree = s.tree) (hh : s'.handles = s.handles)
    (ho : ∀ {n}, .node n ∈ s'.outerRefs → s.tree.contains n)
    (hc : ∀ {id i}, s'.client.handles.get? id = some i → s.handles.contains i) : s'.Grounded where
  outer hn := ht ▸ ho hn
  bound hn := by
    rw [hh] at hn
    exact ht ▸ hg.bound hn
  parent hn := by
    rw [ht] at hn ⊢
    exact hg.parent hn
  held hi := hh ▸ hc hi

/-- Counts and events. -/
lemma Conduct.of_eq (hL : L.recount ∨ s'.metrics.handlesReclaimed = s.metrics.handlesReclaimed)
    (ht : s'.tree = s.tree) (hh : s'.handles = s.handles) (hk : s'.sinks = s.sinks)
    (hn : s'.notices = s.notices) (hp : s'.scope? = s.scope?) (hc : s'.client = s.client)
    (hi : s'.inUse = s.inUse) : s.Conduct L s' := by
  have ho : s'.outerRefs = s.outerRefs := by rw [outerRefs, outerRefs, hi, hc, hp]
  have hb : s.Beside L s' :=
    { tree := ht
      handles := hh
      notices := hn
      reclaimed := hL
      outer := fun hn => Or.inl (ho ▸ hn)
      kept := fun hn => Or.inl (hc ▸ hn)
      named := levelsNamed_of_scope?_eq hp }
  refine ⟨hb.course, hi, fun hg => ?_, fun _ hs => hs.of_eq ht hh hk hp hc hi,
    fun hs => hs.of_eq ht hk hp (congrArg Client.filters hc)⟩
  exact hg.of_beside ht hh (fun hn => hg.outer (ho ▸ hn)) fun hi => hg.held (hc ▸ hi)

/-! ### Changes of the tree -/

lemma Grounded.withTree (hg : s.Grounded) {t : Tree} (hc : ∀ n, s.tree.contains n → t.contains n)
    (hp : ∀ m n, (t.node m).parent? = some n → t.contains n) :
    ({ s with tree := t } : Session).Grounded where
  outer hn := hc _ (hg.outer hn)
  bound hn := hc _ (hg.bound hn)
  parent hn := hp _ _ hn
  held hi := hg.held hi

/-- A change of nodes that leaves each its parent. -/
lemma Grounded.withParents (hg : s.Grounded) {t : Tree}
    (hc : ∀ n, t.contains n = s.tree.contains n)
    (hp : ∀ m, (t.node m).parent? = (s.tree.node m).parent?) :
    ({ s with tree := t } : Session).Grounded := by
  refine hg.withTree (fun n hn => by rwa [hc]) fun m n hn => ?_
  rw [hp] at hn
  rw [hc]
  exact hg.parent hn

lemma Grounded.configure (hg : s.Grounded) (n : NodeId) {f : Node → Node} (hf : Node.Setting f) :
    (s.modifyNode n f).Grounded :=
  have h := Tree.sameShape_modify s.tree n hf.place
  hg.withParents h.contains_eq fun m => (h.place m).parent

lemma Grounded.setLevel (hg : s.Grounded) (n : NodeId) (l? : Option Level) :
    ({ s with tree := s.tree.setLevel n l? } : Session).Grounded :=
  have h := Tree.sameShape_setLevel s.tree n l?
  hg.withParents h.contains_eq fun m => (h.place m).parent

lemma Grounded.reset (hg : s.Grounded) (hs : s.Sound) (n : NodeId) :
    ({ s with tree := s.tree.reset n } : Session).Grounded := by
  refine hg.withParents (fun m => Tree.contains_reset) fun m => ?_
  rcases Tree.reset_node_cases hs.tree.toWellShaped n m with ⟨v, h⟩ | h
  · rw [h]
    rfl
  · rw [h]

lemma Grounded.takeDown (hg : s.Grounded) (hs : s.Sound) (n : NodeId) :
    ({ s with tree := s.tree.takeDown n } : Session).Grounded := by
  have hpart := Tree.partOf_takeDown hs.tree.toWellShaped n
  refine hg.withTree (fun m hm => Tree.contains_takeDown.trans hm) fun m p hp => ?_
  rw [(hpart.kept (Tree.contains_of_parent? hp)).parent] at hp
  exact Tree.contains_takeDown.trans (hg.parent hp)

lemma contains_root (hg : s.Grounded) (hn : s.scope?.isSome) : s.tree.contains Tree.root := by
  obtain ⟨ns, hns⟩ := Option.isSome_iff_exists.1 hn
  have hr : .node Tree.root ∈ refsOfNamespace ns := node_mem_refsOfNamespace_iff.2 rfl
  apply hg.outer
  simp [outerRefs, hns, hr]

/-! ### New nodes -/

lemma Grounded.newChild (hg : s.Grounded) (hn : s.tree.contains n) (k : String) :
    ({ s with tree := s.tree.newChild n k } : Session).Grounded := by
  have hlt := Tree.lt_next_of_contains hn
  refine hg.withTree (fun m hm => Tree.contains_newChild.2 (Or.inr hm)) fun m p hp => ?_
  by_cases hm : m = s.tree.nodes.next
  · subst hm
    rw [Tree.node_newChild_new hlt] at hp
    cases hp
    exact Tree.contains_newChild.2 (Or.inr hn)
  · rw [(Tree.kept_newChild hm).parent] at hp
    exact Tree.contains_newChild.2 (Or.inr (hg.parent hp))

lemma mem_refsOfNode_enter {a : Node} (hk : a.children.get? k = none) (hr : r ∈ refsOfNode a) :
    r ∈ refsOfNode (a.enter k c) := by
  rw [mem_refsOfNode_iff] at hr ⊢
  refine hr.imp_right (Or.imp_left ?_)
  rintro ⟨j, m, hj, rfl⟩
  refine ⟨j, m, ?_, rfl⟩
  have hne : k ≠ j := by
    rintro rfl
    rw [hk] at hj
    cases hj
  rwa [Node.enter, Dict.get?_insert, if_neg hne]

/-- The new node is entered at its parent, and nothing is lost. -/
lemma Settled.newChild (hs : s.Settled) (hn : s.tree.contains n) (hk : s.tree.child? n k = none) :
    ({ s with tree := s.tree.newChild n k } : Session).Settled := by
  have hlt := Tree.lt_next_of_contains hn
  have hold : ∀ r, r ∈ s.refs → r ∈ ({ s with tree := s.tree.newChild n k } : Session).refs := by
    intro r hr
    rcases mem_refs_iff.1 hr with h | h | h | h | h | ⟨m, hm, h⟩
    · exact mem_refs_iff.2 (Or.inl h)
    · exact mem_refs_iff.2 (Or.inr (Or.inl h))
    · exact mem_refs_iff.2 (Or.inr (Or.inr (Or.inl h)))
    · exact mem_refs_iff.2 (Or.inr (Or.inr (Or.inr (Or.inl h))))
    · exact mem_refs_iff.2 (Or.inr (Or.inr (Or.inr (Or.inr (Or.inl h)))))
    · refine mem_refs_of_node (Tree.contains_newChild.2 (Or.inr hm)) ?_
      show r ∈ refsOfNode ((s.tree.newChild n k).node m)
      rw [Tree.node_newChild_old (Nat.ne_of_lt (Tree.lt_next_of_contains hm))]
      split_ifs with h'
      · exact mem_refsOfNode_enter (h'.1 ▸ hk) h
      · exact h
  intro r hr
  by_cases hnew : r = .node s.tree.nodes.next
  · subst hnew
    have hc : (s.tree.newChild n k).child? n k = some s.tree.nodes.next := by
      rw [Tree.child?_newChild hlt, if_pos ⟨rfl, hn, rfl⟩]
    refine mem_refs_of_node (Tree.contains_newChild.2 (Or.inr hn)) ?_
    exact mem_refsOfNode_iff.2 (Or.inr (Or.inl ⟨k, _, hc, rfl⟩))
  · refine hold r (hs r ?_)
    cases r with
    | handle | sink => exact hr
    | node m => exact (Tree.contains_newChild.1 hr).resolve_left fun h => hnew (congrArg _ h)

/-- To make the nodes of a path keeps a session in order, if the node at its start is there. -/
lemma kept_getOrCreate (hs : s.Sound) (hn : s.tree.contains n) (path : List String) :
    (s.tree.getOrCreate n path).2.contains (s.tree.getOrCreate n path).1 ∧
      (s.Grounded → ({ s with tree := (s.tree.getOrCreate n path).2 } : Session).Grounded) ∧
      (s.Settled → ({ s with tree := (s.tree.getOrCreate n path).2 } : Session).Settled) := by
  induction path generalizing s n with
  | nil => exact ⟨hn, id, id⟩
  | cons k path ih =>
    rw [Tree.getOrCreate]
    cases hk : s.tree.child? n k with
    | some c => exact ih hs (hs.tree.present hk)
    | none =>
      have hlt := Tree.lt_next_of_contains hn
      have hsound := (leads_change (.newChild hlt hk)).sound hs
      obtain ⟨hc, hg, hset⟩ := ih (s := { s with tree := s.tree.newChild n k }) hsound
        (Tree.contains_newChild.2 (Or.inl rfl))
      exact ⟨hc, fun h => hg (h.newChild hn k), fun h => hset (h.newChild hn hk)⟩

/-- The node at the end of a path is known, if the one at its start is. -/
lemma known_getOrCreate (hs : s.Sound) (hn : s.Known n) (path : List String) :
    ({ s with tree := (s.tree.getOrCreate n path).2 } : Session).Known
      (s.tree.getOrCreate n path).1 := by
  induction path generalizing s n with
  | nil => exact hn
  | cons k path ih =>
    rw [Tree.getOrCreate]
    cases hk : s.tree.child? n k with
    | some c =>
      have hc := hs.tree.present hk
      exact ih hs ⟨Tree.lt_next_of_contains hc, fun _ => hc⟩
    | none =>
      have hc : (s.tree.newChild n k).contains s.tree.nodes.next :=
        Tree.contains_newChild.2 (Or.inl rfl)
      exact ih (s := { s with tree := s.tree.newChild n k })
        ((leads_change (.newChild hn.made hk)).sound hs) ⟨Tree.lt_next_of_contains hc, fun _ => hc⟩

lemma Conduct.getOrCreate (hs : s.Sound) (hL : L.nodes) (hn : s.Known n) (name : String) :
    s.Conduct L { s with tree := (s.tree.getOrCreate n (Path.ofString name)).2 } where
  course := (Deed.grow name hL hn.made).course
  inUse := rfl
  grounded hg := (kept_getOrCreate hs (hn.there hg) _).2.1 hg
  settled hg := (kept_getOrCreate hs (hn.there hg) _).2.2
  heeds hh := hh.withTree (hh.node.getOrCreate (Node.ofContents_filter _) n _)

/-! ### New handles -/

lemma Grounded.enlist (hg : s.Grounded) (hn : s.tree.contains n) : (s.enlist n).Grounded := by
  have hpush : ({ s with handles := s.handles.push n } : Session).Grounded := by
    refine ⟨hg.outer, fun {i m} hm => ?_, hg.parent, fun {id i} hi => ?_⟩
    · have hm' : (s.handles.push n).get? i = some m := hm
      rw [Store.get?_push] at hm'
      split_ifs at hm'
      · exact Option.some.inj hm' ▸ hn
      · exact hg.bound hm'
    · show ((s.handles.push n).get? i).isSome
      rw [Store.get?_push]
      split_ifs
      · rfl
      · exact hg.held hi
  exact hpush.configure n (Node.setting_live (List.cons s.handles.next))

lemma Grounded.grant (hg : s.Grounded) (hs : s.Sound) (hn : s.Known n) (name : String) :
    (s.grant n name).Grounded := by
  obtain ⟨hc, hg', -⟩ := kept_getOrCreate hs (hn.there hg) (Path.ofString name)
  exact (hg' hg).enlist hc

/-! ### Ends of handles -/

lemma Grounded.process (hg : s.Grounded) (hs : s.Sound) (a : Notice) : (s.process a).Grounded := by
  have hb : (s.bump .handlesReclaimed).Grounded :=
    hg.of_beside rfl rfl hg.outer hg.held
  have hu : (s.strikeOff a).Grounded :=
    hb.configure a.node (Node.setting_live (List.erase · a.handle))
  exact (ends_process s a).grounded ((leads_strikeOff s a s.notices).sound hs) hu

lemma Grounded.reclaim (hg : s.Grounded) (hs : s.Sound) : s.reclaim.2.Grounded := by
  have h : s.reclaim.2.Sound ∧ s.reclaim.2.Grounded := by
    refine reclaimWithin_induction (motive := fun s => s.Sound ∧ s.Grounded) ?_ _ ⟨hs, hg⟩
    rintro s a rest - ⟨hs, hg⟩
    have hl : s.Leads { s with notices := rest } := leads_beside rfl rfl rfl id
    have hr : ({ s with notices := rest } : Session).Grounded :=
      hg.of_beside rfl rfl hg.outer hg.held
    exact ⟨(leads_process _ a).sound (hl.sound hs), hr.process (hl.sound hs) a⟩
  exact h.2

lemma conduct_reclaim (hs : s.Sound) : s.Conduct L s.reclaim.2 where
  course := course_reclaim s
  inUse := (keeps_reclaim s).inUse
  grounded hg := hg.reclaim hs
  settled _ h := h.reclaim
  heeds h := h.reclaim

end Logging.Session
