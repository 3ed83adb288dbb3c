import Logging.Pattern.Compiled
import Logging.Proofs.Session.Bookkeeping
import Logging.Proofs.Tree.Spare

/-!
# What weak retention leaves in the tree

A node is considered for removal when the last of its handles is struck off its list, or when a
child of it was removed. In a session that is worked on through handles alone this is often enough
(`Course.not_spare`): all that leads to a spare node is its entry, so pruning removes it. What its
callbacks do is no matter if they reset nothing and do not close (`course_steps_of_isMild`). There
is one way around it: a node that is reset while something below it stays alive has an owner that is
not in the tree, and when that owner goes nobody looks at the node again.
-/

namespace Logging

namespace Session

variable {L : Licence} {s s' : Session} {n m p c x : NodeId} {i : HandleId} {k : String} {r : Ref}
  {a : Notice} {dealt rest : List Notice}

/-! ### Sessions without owners outside the tree -/

/-- All but to work on nodes without handles, to drop the namespace, and to reset a node of the tree
other than the root while something below it stays alive. -/
def Licence.tidy : Licence where
  nodes := False
  reset s m := m ≠ Tree.root → s.tree.Below Tree.root m → ∀ n, s.tree.Below m n →
    ¬ ({ s with tree := s.tree.reset m } : Session).settle.tree.contains n
  drop := False
  recount := True
  callbacks := False

/-- Nodes stay only while they are needed, no node but the root is held from outside, and a node
whose parent is in the tree is there as well. -/
structure Frugal (s : Session) : Prop where
  weak : s.tree.strong = false
  outer : ∀ {n}, .node n ∈ s.outerRefs → n = Tree.root
  entered : s.tree.Entered

lemma Ends.frugal (h : s.Ends s') (hs : s.Sound) (hf : s.Frugal) : s'.Frugal where
  weak := h.leads.strong.trans hf.weak
  outer hn := hf.outer (h.keeps.outerRefs ▸ hn)
  entered := by
    have hpart := h.partOf hs
    have ht := hs.tree.toWellShaped.of_partOf hpart
    exact hf.entered.of_entries (fun hc => (hpart.kept hc).parent) hpart.entry
      fun hk hc hb => h.entry hs hk (hb.contains ht) hc

/-- A change of nodes that leaves each in its place. -/
lemma Frugal.of_sameShape (hf : s.Frugal) (h : s.tree.SameShape s'.tree)
    (hw : s'.tree.strong = s.tree.strong) (ho : s'.outerRefs = s.outerRefs) : s'.Frugal :=
  ⟨hw.trans hf.weak, fun hn => hf.outer (ho ▸ hn), hf.entered.of_sameShape h⟩

lemma sameShape_live (t : Tree) (n : NodeId) (f : List HandleId → List HandleId) :
    t.SameShape (t.modify n fun a => { a with liveHandles := f a.liveHandles }) :=
  Tree.sameShape_modify t n (Node.setting_live f).place

lemma Frugal.grant (hf : s.Frugal) (hs : s.Sound) (hn : n < s.tree.nodes.next) (name : String) :
    (s.grant n name).Frugal := by
  have hl := (leads_getOrCreate hs hn (Path.ofString name)).1
  let t := (s.tree.getOrCreate n (Path.ofString name)).2
  have hgrow : ({ s with tree := t } : Session).Frugal :=
    ⟨hl.strong.trans hf.weak, hf.outer, hf.entered.getOrCreate hs.tree.toWellShaped hn _⟩
  exact hgrow.of_sameShape (sameShape_live _ _ (List.cons s.handles.next)) rfl rfl

/-- No node that was below the one that is reset is left, so the others are all still entered. -/
lemma Frugal.reset (hf : s.Frugal) (hs : s.Sound) (hr : Licence.tidy.reset s m) :
    ({ s with tree := s.tree.reset m } : Session).settle.Frugal := by
  have ht := hs.tree.toWellShaped
  have hl := leads_reset s m
  have hends := ends_settle { s with tree := s.tree.reset m }
  have hs' := hl.sound hs
  have hpart := hends.partOf hs'
  refine ⟨hends.leads.strong.trans (hl.strong.trans hf.weak), fun hn => ?_, ?_⟩
  · exact hf.outer (hends.keeps.outerRefs ▸ hn)
  refine hf.entered.of_entries (fun hc => ?_) (fun hk => ?_) fun {p k c} hk hc hb => ?_
  · rw [(hpart.kept hc).parent]
    rcases Tree.reset_node_cases ht m _ with ⟨v, h⟩ | h
    · rw [h]
      rfl
    · rw [h]
  · exact ((Tree.child?_reset ht).1 (hpart.entry hk)).1
  · have hroot : ¬ s.tree.Below m Tree.root := fun h => Nat.not_lt_zero m (h.lt ht)
    obtain ⟨hne, hbelow⟩ := Tree.not_below_of_reset ht hroot (hb.of_entries hpart.entry)
    have hpm : p ≠ m := by
      rintro rfl
      have hbp : s.tree.Below Tree.root p :=
        hb.of_entries fun hk => ((Tree.child?_reset ht).1 (hpart.entry hk)).1
      exact hr (Ne.symm hne) hbp c (.child hk trivial) hc
    refine hends.entry hs' ((Tree.child?_reset ht).2 ⟨hk, hpm, hbelow⟩) ?_ hc
    exact hb.contains (hs'.tree.toWellShaped.of_partOf hpart)

lemma Frugal.strikeOff (hf : s.Frugal) (a : Notice) (rest : List Notice) :
    (({ s with notices := rest } : Session).strikeOff a).Frugal :=
  hf.of_sameShape (sameShape_live s.tree a.node (List.erase · a.handle)) rfl rfl

lemma Deed.frugal (h : s.Deed .tidy s') (hs : s.Sound) (hf : s.Frugal) : s'.Frugal := by
  cases h with
  | beside h =>
    refine ⟨h.tree ▸ hf.weak, fun hn => ?_, h.tree ▸ hf.entered⟩
    exact hf.outer ((h.outer hn).resolve_right id)
  | @configure n f h _ => exact hf.of_sameShape (Tree.sameShape_modify s.tree n h.place) rfl rfl
  | @setLevel n l? _ =>
    have hl : s.Leads { s with tree := s.tree.setLevel n l? } := leads_change (.setLevel n l?)
    exact hf.of_sameShape (Tree.sameShape_setLevel s.tree n l?) hl.strong rfl
  | grow _ hL => exact hL.elim
  | grant name hn => exact hf.grant hs hn name
  | destroy hr => exact (End.destroy hr).ends.frugal hs hf
  | @process a rest _ =>
    exact (ends_process _ a).frugal ((leads_strikeOff s a rest).sound hs) (hf.strikeOff a rest)
  | reset _ hr => exact hf.reset hs hr
  | takeDown hL => exact hL.elim

/-! ### Spare nodes can be removed -/

lemma count_flatMap_eq_one {α β : Type} [DecidableEq β] {f : α → List β} {l : List α} {a : α}
    {x : β} (hl : l.Nodup) (ha : a ∈ l) (hone : (f a).count x = 1)
    (hother : ∀ b ∈ l, b ≠ a → x ∉ f b) : (l.flatMap f).count x = 1 := by
  induction l with
  | nil => cases ha
  | cons c l ih =>
    obtain ⟨hc, hl⟩ := List.nodup_cons.1 hl
    have hrest : ∀ b ∈ l, b ≠ a → x ∉ f b := fun b hb => hother b (List.mem_cons_of_mem c hb)
    rw [List.flatMap_cons, List.count_append]
    rcases List.mem_cons.1 ha with rfl | ha'
    · have hnot : x ∉ l.flatMap f := by
        intro hx
        obtain ⟨b, hb, hx⟩ := List.mem_flatMap.1 hx
        refine hrest b hb ?_ hx
        rintro rfl
        exact hc hb
      rw [hone, List.count_eq_zero.2 hnot]
    · have hca : c ≠ a := by
        rintro rfl
        exact hc ha'
      rw [List.count_eq_zero.2 (hother c List.mem_cons_self hca), ih hl ha' hrest]

/-- A node refers to its child once. -/
lemma count_child (hs : s.Sound) (hk : s.tree.child? p k = some n) :
    (refsOfNode (s.tree.node p)).count (.node n) = 1 := by
  have ht := hs.tree.toWellShaped
  have hparent : .node n ∉ (s.tree.node p).parent?.toList.map Ref.node := by
    simp only [List.mem_map, Option.mem_toList, Ref.node.injEq, exists_eq_right]
    exact fun h => Nat.lt_asymm (ht.parent_older h) (ht.older hk)
  have hchild : ((s.tree.node p).children.values.map Ref.node).count (.node n) = 1 := by
    refine List.count_eq_one_of_mem ?_ ?_
    · exact (Tree.children_nodup ht p).map fun _ _ h => Ref.node.inj h
    · exact List.mem_map.2 ⟨n, Tree.mem_children_iff.2 ⟨k, hk⟩, rfl⟩
  have hfilter : .node n ∉ (s.tree.node p).filter?.toList.flatMap refsOfFilter := by
    simp [node_not_mem_refsOfFilter]
  rw [refsOfNode, List.count_append, List.count_append, List.count_append, hchild,
    List.count_eq_zero.2 hparent, List.count_eq_zero.2 (node_not_mem_refsOfSinks _),
    List.count_eq_zero.2 hfilter]

/-- Nothing but its entry leads to a spare node. -/
lemma removable_of_spare (hs : s.Sound) (hb : s.Booked dealt) (hf : s.Frugal)
    (hn : s.tree.Spare n) : s.removable n := by
  have ht := hs.tree.toWellShaped
  have hc : s.tree.contains n := hn.1.contains ht
  obtain ⟨p, hp, hk⟩ := hn.entry ht
  have houter : .node n ∉ s.outerRefs := fun h => hn.ne_root ht (hf.outer h)
  have hhandle : .node n ∉ s.handles.toList.map fun h => Ref.node h.2 := by
    rintro hm
    obtain ⟨⟨i, m⟩, hi, hm⟩ := List.mem_map.1 hm
    obtain rfl : m = n := Ref.node.inj hm
    have hlist := (hb.listed hc i).2 (Or.inl (Store.mem_toList_iff.1 hi))
    rw [node, Node.liveHandles_of_isDefault hn.2] at hlist
    cases hlist
  have hsink : .node n ∉ s.sinks.toList.flatMap fun k => refsOfActions k.2.allActions := by
    simp [node_not_mem_refsOfActions]
  have hnode : (s.tree.nodes.toList.flatMap fun n => refsOfNode n.2).count (.node n) = 1 := by
    refine count_flatMap_eq_one (.of_map Prod.fst s.tree.nodes.keys_nodup)
      (mem_nodes_iff.2 ⟨Tree.contains_of_child hk, rfl⟩) (count_child hs hk) ?_
    rintro ⟨q, b⟩ hq hne hm
    obtain ⟨-, rfl⟩ := mem_nodes_iff.1 hq
    rcases node_mem_refsOfNode_iff.1 hm with hqn | ⟨j, hj⟩
    · -- the parent of the other node is in the tree, so that node is a child of the spare one
      obtain ⟨j, hj⟩ := hf.entered q n hqn hn.1
      rw [hn.child?] at hj
      cases hj
    · obtain ⟨rfl, -⟩ := ht.entry_unique hj hk
      exact hne rfl
  rw [removable, Bool.and_eq_true, beq_iff_eq, owners_eq, List.count_eq_zero.2 houter,
    List.count_eq_zero.2 hhandle, List.count_eq_zero.2 hsink, hnode]
  exact ⟨rfl, hn.2⟩

/-! ### Pruning -/

/-- Nothing becomes spare when a thing ends that nothing refers to. -/
lemma spare_of_destroy (hs : s.Sound) (hr : r ∉ s.refs) (hn : (s.destroy r).tree.Spare n) :
    s.tree.Spare n := by
  have hpart := (End.destroy hr).partOf hs
  have hc := hn.1.contains (hs.tree.toWellShaped.of_partOf hpart)
  refine hn.of_entries hpart.entry ?_
  cases r with
  | handle | sink => rfl
  | node x => exact Tree.node_drop_of_ne (Tree.contains_drop.1 hc).1

lemma spare_of_settle (hs : s.Sound) (hn : s.settle.tree.Spare n) : s.tree.Spare n := by
  have h : s.settle.Sound ∧ (s.settle.tree.Spare n → s.tree.Spare n) :=
    settleWithin_induction (motive := fun u => u.Sound ∧ (u.tree.Spare n → s.tree.Spare n))
      (fun u r h hr _ => ⟨(leads_destroy hr).sound h.1, fun hn => h.2 (spare_of_destroy h.1 hr hn)⟩)
      _ ⟨hs, id⟩
  exact h.2 hn

lemma spare_of_letGo (hs : s.Sound) (hn : (s.letGo m).tree.Spare n) : s.tree.Spare n := by
  rw [letGo] at hn
  split_ifs at hn with hr
  · exact spare_of_destroy hs (List.count_eq_zero.1 hr) hn
  · exact hn

/-- When a child is removed, nothing becomes spare but its parent. -/
lemma spare_of_removeChild (hs : s.Sound) (hk : s.tree.child? p k = some c)
    (hn : (s.tree.removeChild p k c).Spare n) (hnp : n ≠ p) : s.tree.Spare n ∧ n ≠ c := by
  have ht := hs.tree.toWellShaped
  have hpart := Tree.partOf_removeChild ht hk
  have hc := (Tree.contains_drop.1 (hn.1.contains (ht.of_partOf hpart))).1
  refine ⟨hn.of_entries hpart.entry ?_, Ne.symm hc⟩
  rw [Tree.removeChild, Tree.node_drop_of_ne hc, Tree.strike, Tree.node_modify,
    if_neg fun h => hnp h.1.symm]

/-- The entry of a spare node is the one that pruning looks at. -/
lemma child?_of_spare {t : Tree} (ht : t.WellShaped) {q : NodeId} {l : List NodeId}
    (hpath : t.lineage m = q :: p :: l) (hpart : s.tree.PartOf t) (hs : s.Sound)
    (hends : s.Ends s') (hm : s'.tree.Spare m) : s'.tree.child? p (s.node q).name = some m := by
  obtain ⟨rfl, hp, -⟩ := Tree.lineage_cons_cons ht hpath
  have hpart' := hends.partOf hs
  have ht' := (hends.leads.sound hs).tree.toWellShaped
  have hc := hm.1.contains ht'
  obtain ⟨p', hp', hk⟩ := hm.entry ht'
  rw [(hpart'.kept hc).parent, (hpart.kept (hpart'.contains hc)).parent, hp] at hp'
  rwa [Option.some.inj hp', node, ← (hpart'.kept hc).name]

/-- Pruning along the way up from a node leaves no spare node if there was none but that one: in the
tree, the child that is removed is the spare one, and then its parent may be. -/
lemma not_spare_pruneAlong {t : Tree} (ht : t.WellShaped) (path : List NodeId)
    (hpart : s.tree.PartOf t) (hs : s.Sound) (hb : s.Booked dealt) (hf : s.Frugal) :
    ∀ m, t.lineage m = path → (∀ n, s.tree.Spare n → n = m) →
      ∀ n, ¬ (pruneAlong path s).tree.Spare n := by
  fun_induction pruneAlong path s with
  | case1 q p l s node hd s₁ c hc hr ih =>
    intro m hpath hspare
    have hends : s.Ends s₁ := ends_letGo s q
    have hend : s₁.End (s₁.removeChild p node.name c) := .removeChild hc hr
    have hends' := hends.trans hend.ends
    refine ih ((hends'.partOf hs).trans hpart) (hends'.leads.sound hs) (hends'.booked hs hb)
      (hends'.frugal hs hf) p (Tree.lineage_cons_cons ht hpath).2.2 fun x hx => ?_
    by_contra hne
    obtain ⟨hx, hxc⟩ := spare_of_removeChild (hends.leads.sound hs) hc hx hne
    obtain rfl := hspare x (spare_of_letGo hs hx)
    exact hxc (Option.some.inj ((child?_of_spare ht hpath hpart hs hends hx).symm.trans hc))
  | case2 q p l s node hd s₁ c hc hr =>
    intro m hpath hspare n hn
    have hends : s.Ends s₁ := ends_letGo s q
    obtain rfl := hspare n (spare_of_letGo hs hn)
    obtain rfl := Option.some.inj ((child?_of_spare ht hpath hpart hs hends hn).symm.trans hc)
    exact hr <| removable_of_spare (hends.leads.sound hs) (hends.booked hs hb)
      (hends.frugal hs hf) hn
  | case3 q p l s node hd s₁ hc =>
    intro m hpath hspare n hn
    obtain rfl := hspare n (spare_of_letGo hs hn)
    cases hc.symm.trans (child?_of_spare ht hpath hpart hs (ends_letGo s q) hn)
  | case4 q p l s node hd =>
    intro m hpath hspare n hn
    obtain rfl := hspare n hn
    obtain ⟨rfl, -⟩ := Tree.lineage_cons_cons ht hpath
    exact hd hn.2
  | case5 path s hlen =>
    intro m hpath hspare n hn
    obtain rfl := hspare n hn
    obtain ⟨p, hp, -⟩ := hn.entry hs.tree.toWellShaped
    rw [(hpart.kept (Tree.contains_of_parent? hp)).parent] at hp
    obtain ⟨l, hl⟩ := Tree.exists_lineage_eq_cons ht hp
    exact hlen n p l (hpath.symm.trans hl)

lemma not_spare_prune (hs : s.Sound) (hb : s.Booked dealt) (hf : s.Frugal)
    (hspare : ∀ n, s.tree.Spare n → n = m) : ¬ (s.prune m).tree.Spare n := by
  have ht := hs.tree.toWellShaped
  have hends := ends_pruneAlong (s.tree.lineage m) s
  rw [prune, hf.weak, if_neg Bool.false_ne_true]
  exact fun hn => not_spare_pruneAlong ht _ (.refl ht) hs hb hf m rfl hspare n
    (spare_of_settle (hends.leads.sound hs) hn)

/-- To deal with the end of a handle leaves no spare node: if the node of the handle has become
spare, it is pruned. -/
lemma not_spare_process (ha : s.notices = a :: rest) (hs : s.Sound) (hb : s.Booked dealt)
    (hf : s.Frugal) (hspare : ∀ n, ¬ s.tree.Spare n) :
    ¬ (({ s with notices := rest } : Session).process a).tree.Spare n := by
  let u : Session := ({ s with notices := rest } : Session).strikeOff a
  have hlist : s.tree.contains a.node → a.handle ∈ (s.node a.node).liveHandles := fun hc =>
    (hb.listed hc a.handle).2 (Or.inr (ha ▸ List.mem_cons_self))
  have hu : ∀ n, u.tree.Spare n → n = a.node := by
    intro n hn
    by_contra hne
    exact hspare n (hn.of_modify (Node.setting_live (List.erase · a.handle)).place hne)
  have hsound : u.Sound := (leads_strikeOff s a rest).sound hs
  rw [process_eq_discharge, discharge]
  split_ifs with hc hlive
  · exact not_spare_prune hsound (hb.strikeOff ha) (hf.strikeOff a rest) hu
  · intro hn
    obtain rfl := hu n hn
    have hnil : (u.node a.node).liveHandles = [] := Node.liveHandles_of_isDefault hn.2
    refine hlive (Bool.and_eq_true_iff.2 ⟨List.contains_iff_mem.2 (hlist hc), ?_⟩)
    show !(!(u.node a.node).liveHandles.isEmpty)
    rw [hnil]
    rfl
  · exact hspare n

/-! ### Courses that leave no spare nodes -/

/-- A change of a node that is worked on through a handle leaves no spare node, if no other one
becomes spare: the node lists the handle. -/
lemma not_spare_of_open (hb : s.Booked dealt) (hm : s.Open .tidy m) (hspare : ∀ n, ¬ s.tree.Spare n)
    {t : Tree} (ht : t.WellShaped) (hc : t.contains m → s.tree.contains m)
    (hlive : (t.node m).liveHandles = (s.node m).liveHandles)
    (hother : t.Spare n → n ≠ m → s.tree.Spare n) : ¬ t.Spare n := by
  intro hn
  by_cases hnm : n = m
  · subst hnm
    obtain ⟨i, hi⟩ := (hm.resolve_left id).resolve_left (hn.ne_root ht)
    have hlist := (hb.listed (hc (hn.1.contains ht)) i).2 (Or.inl hi)
    rw [← hlive, Node.liveHandles_of_isDefault hn.2] at hlist
    cases hlist
  · exact hspare n (hother hn hnm)

lemma not_spare_grant (hs : s.Sound) (hm : m < s.tree.nodes.next) (name : String)
    (hspare : ∀ n, ¬ s.tree.Spare n) : ¬ (s.grant m name).tree.Spare n := by
  have ht := hs.tree.toWellShaped
  intro hn
  let t := (s.tree.getOrCreate m (Path.ofString name)).2
  let c := (s.tree.getOrCreate m (Path.ofString name)).1
  let enter (a : Node) : Node := { a with liveHandles := s.handles.next :: a.liveHandles }
  have hn' : (t.modify c enter).Spare n := hn
  by_cases hnc : n = c
  · have hshape := sameShape_live t c (List.cons s.handles.next)
    have hl := (leads_getOrCreate hs hm (Path.ofString name)).1
    have hc : t.contains c := by
      rw [← hnc]
      exact (hshape.below hn'.1).contains (hl.sound hs).tree.toWellShaped
    have hnil := Node.liveHandles_of_isDefault hn'.2
    rw [hnc, Tree.node_modify, if_pos ⟨rfl, hc⟩] at hnil
    cases hnil
  · have hold : t.Spare n := hn'.of_modify (Node.setting_live (List.cons s.handles.next)).place hnc
    exact hnc (hold.of_getOrCreate ht hm fun x hx => absurd hx (hspare x))

/-- A deed of one who works with handles, and does not reset a node above others that stay alive,
leaves no spare nodes. -/
theorem Deed.not_spare (h : s.Deed .tidy s') (hs : s.Sound) (hb : s.Booked dealt) (hf : s.Frugal)
    (hspare : ∀ n, ¬ s.tree.Spare n) : ¬ s'.tree.Spare n := by
  have ht := hs.tree.toWellShaped
  cases h with
  | beside h =>
    rw [h.tree]
    exact hspare n
  | @configure m f hf hm =>
    have hshape := Tree.sameShape_modify s.tree m hf.place
    exact not_spare_of_open hb hm hspare (ht.of_sameShape hshape)
      (fun hc => hshape.contains_eq m ▸ hc) (liveHandles_configure s.tree m m hf)
      fun hn => hn.of_modify hf.place
  | @setLevel m l? hm =>
    have hshape := Tree.sameShape_setLevel s.tree m l?
    exact not_spare_of_open hb hm hspare (ht.of_sameShape hshape)
      (fun hc => hshape.contains_eq m ▸ hc) (liveHandles_setLevel hs.tree m m l?)
      fun hn => hn.of_setLevel hs.tree
  | grow _ hL => exact hL.elim
  | grant name hm => exact not_spare_grant hs hm name hspare
  | destroy hr => exact fun hn => hspare n (spare_of_destroy hs hr hn)
  | process ha => exact not_spare_process ha hs hb hf hspare
  | @reset m hm _ =>
    intro hn
    have hn' := spare_of_settle ((leads_reset s m).sound hs) hn
    refine not_spare_of_open hb hm hspare (ht.reset m) (fun hc => ?_)
      (liveHandles_reset ht m m) (fun hn => hn.of_reset ht) hn'
    exact Tree.contains_reset.symm.trans hc
  | takeDown hL => exact hL.elim

/-- Pruning has removed all spare nodes there were. -/
theorem Course.not_spare (h : s.Course .tidy s') (hs : s.Sound) (hb : s.Booked dealt)
    (hf : s.Frugal) (hspare : ∀ n, ¬ s.tree.Spare n) :
    s'.Frugal ∧ ∀ n, ¬ s'.tree.Spare n := by
  have h : (∃ dealt, s'.Booked dealt) ∧ s'.Frugal ∧ ∀ n, ¬ s'.tree.Spare n := by
    refine h.induction
      (motive := fun s => (∃ dealt, s.Booked dealt) ∧ s.Frugal ∧ ∀ n, ¬ s.tree.Spare n) hs
      ⟨⟨dealt, hb⟩, hf, hspare⟩ ?_
    rintro s s' hs h ⟨⟨dealt, hb⟩, hf, hspare⟩
    obtain ⟨more, hb', -⟩ := h.booked hs hb
    exact ⟨⟨_, hb'⟩, h.frugal hs hf, fun n => h.not_spare hs hb hf hspare⟩
  exact h.2

/-! ### What nodes are there for -/

/-- A handle for the node is alive, or something was set on it. -/
def Used (s : Session) (n : NodeId) : Prop := (∃ i, s.Alive n i) ∨ (s.node n).isConfigured

/-- A node of a tree without spare nodes is used, or one below it is: there are no ways down without
an end. -/
lemma exists_used (hs : s.Sound) (hspare : ∀ n, ¬ s.tree.Spare n)
    (hlive : ∀ n, s.tree.contains n → (s.node n).hasLiveHandles → ∃ i, s.Alive n i)
    (hn : s.tree.Below Tree.root n) : ∃ m, (m = n ∨ s.tree.Below n m) ∧ s.Used m := by
  have ht := hs.tree.toWellShaped
  have hways : ∀ d n, s.tree.nodes.next ≤ n + d → s.tree.Below Tree.root n →
      ∃ m, (m = n ∨ s.tree.Below n m) ∧ s.Used m := by
    intro d
    induction d with
    | zero =>
      intro n hd hn
      exact absurd (Tree.lt_next_of_contains (hn.contains ht)) (Nat.not_lt.2 hd)
    | succ d ih =>
      intro n hd hn
      by_cases hset : (s.node n).isConfigured
      · exact ⟨n, Or.inl rfl, Or.inr hset⟩
      by_cases hhas : (s.node n).hasLiveHandles
      · exact ⟨n, Or.inl rfl, Or.inl (hlive n (hn.contains ht) hhas)⟩
      have hchild : ∃ k c, s.tree.child? n k = some c := by
        by_contra hnone
        refine hspare n ⟨hn, Node.isDefault_iff.2 ⟨Bool.eq_false_iff.2 hset, ?_,
          Bool.eq_false_iff.2 hhas⟩⟩
        refine List.isEmpty_iff.2 (List.eq_nil_iff_forall_not_mem.2 fun e he => hnone ?_)
        exact ⟨e.1, e.2, Dict.mem_entries_iff.1 he⟩
      obtain ⟨k, c, hk⟩ := hchild
      have hlt : n < c := ht.older hk
      obtain ⟨m, hm, hu⟩ := ih c (by omega) (.step hn hk trivial)
      exact ⟨m, Or.inr (Tree.below_of_child hk (hm.imp_left Eq.symm)), hu⟩
  exact hways _ n (Nat.le_add_left _ _) hn

lemma frugal_new (baseline : Level) (levels : List Level) (filters : List (String × NodeFilter)) :
    (new false baseline levels filters).Frugal where
  weak := rfl
  outer {n} hn := by
    simpa [outerRefs, new, Run.node_mem_refsOfClient_iff, node_mem_refsOfNamespace_iff] using hn
  entered c p hp := by cases (Tree.parent?_new _ _ _).symm.trans hp

lemma not_spare_new (baseline : Level) (levels : List Level)
    (filters : List (String × NodeFilter)) :
    ¬ (new false baseline levels filters).tree.Spare n := by
  intro hn
  obtain ⟨k, c, hk, -⟩ := Tree.down_iff_head.1 hn.1
  cases (Tree.child?_new _ _).symm.trans hk

/-- With weak retention, after the ends of handles were dealt with, each node of the tree is used or
has a node below it that is, provided that no node but the root was reset while something below it
stayed alive: a client that works with handles alone leaves no garbage in the tree. -/
theorem exists_used_steps [Pattern.Engine] (depth : Nat) (baseline : Level) (levels : List Level)
    (filters : List (String × NodeFilter)) (steps : List Step) :
    let s := ((new false baseline levels filters).steps (Calls.within depth) steps).2
    (new false baseline levels filters).Course .tidy s →
      ∀ n, s.reclaim.2.tree.Below Tree.root n →
        ∃ m, (m = n ∨ s.reclaim.2.tree.Below n m) ∧ s.reclaim.2.Used m := by
  intro s hcourse n hn
  have hs := sound_new false baseline levels filters
  have hb := booked_new false baseline levels filters
  have hreclaim : (new false baseline levels filters).Course .tidy s.reclaim.2 :=
    hcourse.trans (course_reclaim s)
  obtain ⟨dealt, hbooked, -⟩ := hreclaim.booked hs hb
  have hspare := (hreclaim.not_spare hs hb (frugal_new _ _ _) fun _ => not_spare_new _ _ _).2
  have hset := (orderly_steps depth false baseline levels filters steps).2.reclaim
  exact exists_used ((hreclaim.leads hs).sound hs) hspare
    (fun m hm h => (hbooked.hasLiveHandles_iff hset hm (notices_reclaim s)).1 h) hn

open scoped Pattern.Searching in
/-- Nodes go while others stay, also after all was reset from the root on, and those go that a
filter made. -/
theorem exists_used_steps_closed :
    let s := ((new false .info [] []).steps (Calls.within 1)
      [.logger "a.b" (some "h"), .close, .logger "a.b" (some "k"), .logger "a.c" (some "l"),
        .setLevel "l" (some .warn),
        .setFilter "k" (some (.named "f" { actions := [.touch "a.b.d", .reclaim, .touch "e"] })),
        .log "k" .info "m", .setFilter "k" none,
        .dropHandle "h", .dropHandle "k", .dropHandle "l"]).2
    ((new false .info [] []).Course .tidy s ∧ s.reclaim.2.tree.Below Tree.root 3) ∧
      ∃ m, (m = 3 ∨ s.reclaim.2.tree.Below 3 m) ∧ s.reclaim.2.Used m := by
  intro s
  have hcourse : (new false .info [] []).Course .tidy s := by
    refine course_steps_of_isMild not_false 1 false .info [] [] [] _ nofun (by decide) ?_
    exact ⟨trivial, fun _ h => absurd rfl h, trivial, trivial, trivial, trivial, trivial, trivial,
      trivial, trivial, trivial, trivial⟩
  have hbelow : s.reclaim.2.tree.Below Tree.root 3 := by
    have hchild : s.reclaim.2.tree.child? Tree.root "a" = some 3 := by decide +kernel
    exact .child hchild trivial
  exact ⟨⟨hcourse, hbelow⟩, exists_used_steps 1 .info [] [] _ hcourse 3 hbelow⟩

open scoped Pattern.Searching in
/-- Without the proviso garbage is left: a node that was reset while another one below it was held
stays in the tree when the handles for both are gone, and nothing leads to it but its entry. -/
theorem not_used_steps_reset :
    let s := ((new false .info [] []).steps (Calls.within 0)
      [.logger "a" (some "h"), .logger "a.b" (some "k"), .reset "h", .dropHandle "h", .reclaim,
        .dropHandle "k"]).2
    s.reclaim.2.tree.Below Tree.root 1 ∧ s.reclaim.2.owners (.node 1) = 1 ∧
      ∀ m, (m = 1 ∨ s.reclaim.2.tree.Below 1 m) → ¬ s.reclaim.2.Used m := by
  intro s
  have hchild : s.reclaim.2.tree.child? Tree.root "a" = some 1 := by decide +kernel
  have hentries : (s.reclaim.2.tree.node 1).children.entries = [] := by decide +kernel
  have hhandles : s.reclaim.2.handles.toList = [] := by decide +kernel
  have hset : (s.reclaim.2.node 1).isConfigured = false := by decide +kernel
  refine ⟨.child hchild trivial, by decide +kernel, ?_⟩
  rintro m (rfl | hm)
  · rintro (⟨i, hi, -⟩ | hc)
    · have hi' := Store.mem_toList_iff.2 hi
      rw [hhandles] at hi'
      cases hi'
    · cases hset.symm.trans hc
  · obtain ⟨k, c, hk, -⟩ := Tree.down_iff_head.1 hm
    have hc := Dict.mem_entries_iff.2 hk
    rw [hentries] at hc
    cases hc

end Session

end Logging
