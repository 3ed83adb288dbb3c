import Mathlib.Data.List.Find
import Logging.Proofs.Session.Ends
import Logging.Proofs.Session.Likeness

/-!
# Letting go in one of two sessions

Of two sessions that show the same, the first may prune nodes while the second keeps them all.
Whatever ends in one of them alone is something that nobody can get hold of, so they go on to show
the same: this holds of the end of a node or a sink to which nothing refers, and of the removal of
a child that is like new. Handles end in both sessions at once, as the same of them are kept.
-/

namespace Logging.Session

variable {P : Pairing} {s s' u u' : Session} {n m c d p : NodeId} {r : Ref}

/-- Two tame sessions that show the same, of which the second keeps its nodes. -/
structure Paired (P : Pairing) (s u : Session) : Prop extends Alike P s u where
  left : s.Tame
  right : u.Tame
  strong : u.tree.strong

/-! ### Changes on both sides -/

section Trees

variable {P' : Pairing} {t t' : Tree}

/-- What both sessions do to their trees. -/
lemma Paired.withTrees (h : Paired P s u) (hf : P'.Fits t t') (hg : Follows P P' s u t)
    (hl : s.Leads { s with tree := t }) (hl' : u.Leads { u with tree := t' })
    (hq : ∀ n f, (t.node n).filter? = some f → f.Quiet)
    (hq' : ∀ n f, (t'.node n).filter? = some f → f.Quiet) :
    Paired P' { s with tree := t } { u with tree := t' } where
  toAlike := h.toAlike.withTrees hf hg
  left := h.left.withTree hl hq
  right := h.right.withTree hl' hq'
  strong := by
    have hstrong : t'.strong = u.tree.strong := hl'.strong
    show t'.strong = true
    rw [hstrong]
    exact h.strong

/-- To set the same at two paired nodes. The sinks that they get are shown already, and a handle
that they get is new. -/
theorem Paired.configure (h : Paired P s u) (hn : P.pair n m) {f g : Node → Node}
    (hf : Node.Setting f) (hg : Node.Setting g) (ha : (f (s.node n)).Alike (g (u.node m)))
    (hl : ∀ i ∈ (f (s.node n)).liveHandles, i ∈ (s.node n).liveHandles ∨ s.handles.next ≤ i)
    (hk : ∀ k ∈ (f (s.node n)).sinks.sinks, s.Shown P k)
    (hq : ∀ x, (f (s.node n)).filter? = some x → x.Quiet) :
    Paired P (s.modifyNode n f) (u.modifyNode m g) := by
  have hfollows : Follows P P s u (s.tree.modify n f) := by
    refine follows_same fun {x y} hp => ?_
    rw [Tree.node_modify]
    split_ifs with hx
    · obtain ⟨rfl, -⟩ := hx
      exact ⟨hl, hk⟩
    · exact ⟨fun i hi => Or.inl hi, fun k hk => Or.inr (Or.inr ⟨x, y, hp, hk⟩)⟩
  exact h.withTrees (h.tree.configure hn hf.place hg.place ha) hfollows (leads_configure s n hf)
    (leads_configure u m hg) (h.left.each.modify n fun _ => hq)
    (h.right.each.modify m fun _ x hx => hq x (ha.filter.trans hx))

theorem Paired.setLevel (h : Paired P s u) (hn : P.pair n m) (l? : Option Level) :
    Paired P { s with tree := s.tree.setLevel n l? } { u with tree := u.tree.setLevel m l? } := by
  refine h.withTrees (h.tree.setLevel h.left.sound.tree h.right.sound.tree hn l?)
    (follows_of_eq fun {x y} _ => ?_)
    (leads_change (.setLevel n l?)) (leads_change (.setLevel m l?))
    (h.left.each.setLevel (Node.ofContents_filter _) n l?)
    (h.right.each.setLevel (Node.ofContents_filter _) m l?)
  obtain ⟨l, v, hx⟩ := exists_withLevel_setLevel h.left.sound.tree n x l?
  rw [hx]
  exact ⟨rfl, rfl⟩

theorem Paired.reset (h : Paired P s u) (hn : P.pair n m) :
    Paired P { s with tree := s.tree.reset n } { u with tree := u.tree.reset m } := by
  have hts := h.left.sound.tree.toWellShaped
  have htu := h.right.sound.tree.toWellShaped
  refine h.withTrees (h.tree.reset hts htu hn) (follows_same fun {x y} hp => ?_)
    (leads_reset s n) (leads_reset u m)
    (h.left.each.reset (Node.ofContents_filter _) n)
    (h.right.each.reset (Node.ofContents_filter _) m)
  rcases Tree.reset_node_cases hts n x with ⟨v, hx⟩ | hx
  · rw [hx]
    exact ⟨fun i hi => Or.inl hi, fun k hk => nomatch hk⟩
  · rw [hx]
    exact ⟨fun i hi => Or.inl hi, fun k hk => Or.inr (Or.inr ⟨x, y, hp, hk⟩)⟩

theorem Paired.getOrCreate (h : Paired P s u) (hn : P.pair n m) (path : List String) :
    ∃ P' : Pairing, Paired P' { s with tree := (s.tree.getOrCreate n path).2 }
        { u with tree := (u.tree.getOrCreate m path).2 } ∧
      P'.pair (s.tree.getOrCreate n path).1 (u.tree.getOrCreate m path).1 := by
  have hns := Tree.lt_next_of_contains (h.tree.left hn)
  have hmu := Tree.lt_next_of_contains (h.tree.right hn)
  obtain ⟨P', hf, hg, hp⟩ := h.tree.getOrCreate h.right.sound.tree hn path
  have hleads := leads_getOrCreate h.left.sound hns path
  have hleads' := leads_getOrCreate h.right.sound hmu path
  refine ⟨P', h.withTrees hf (follows_grows hg) hleads.1 hleads'.1 ?_ ?_, hp⟩
  · exact h.left.each.getOrCreate (Node.ofContents_filter _) n path
  · exact h.right.each.getOrCreate (Node.ofContents_filter _) m path

end Trees

/-! ### Ends on one side -/

lemma Paired.destroyNode_left (h : Paired P s u) (hn : .node n ∉ s.refs) :
    Paired (P.withoutLeft n) (s.destroy (.node n)) u where
  toAlike := by
    refine h.toAlike.withTree_left
      (h.tree.drop_left (unlinked_of_not_mem_refs hn) (h.left.ne_root hn))
      (follows_fewer h.toAlike And.left (fun {i x y} hs _ hp => ⟨hp, ?_⟩) fun {x y} hp => ?_)
    · rintro rfl
      exact hn (mem_refs_of_handle hs)
    · show ((s.tree.drop n).node x).Alike (s.node x)
      rw [Tree.node_drop_of_ne hp.2.symm]
      exact .refl _
  left := h.left.destroy hn
  right := h.right
  strong := h.strong

lemma Paired.destroyNode_right (h : Paired P s u) (hm : .node m ∉ u.refs) :
    Paired (P.withoutRight m) s (u.destroy (.node m)) where
  toAlike := by
    refine h.toAlike.withTree_right
      (h.tree.drop_right (unlinked_of_not_mem_refs hm) (h.right.ne_root hm))
      (follows_fewer h.toAlike And.left (fun {i x y} _ hu hp => ⟨hp, ?_⟩) fun {x y} _ => .refl _)
    rintro rfl
    exact hm (mem_refs_of_handle hu)
  left := h.left
  right := h.right.destroy hm
  strong := h.strong

lemma Paired.destroySink_left (h : Paired P s u) {k : SinkId} (hk : .sink k ∉ s.refs) :
    Paired P (s.destroy (.sink k)) u where
  toAlike :=
    { h.toAlike with
      nextSink := (Store.next_erase _ _).trans h.nextSink
      sinks := fun j hj => by
        have hj' : s.Shown P j := hj
        have hne : k ≠ j := by
          rintro rfl
          exact hk (mem_refs_of_shown h.toAlike hj')
        show (s.sinks.erase k).get? j = u.sinks.get? j
        rw [Store.get?_erase, if_neg hne]
        exact h.sinks j hj'
      notices := h.toAlike.ends rfl (Nat.le_refl _) }
  left := h.left.destroy hk
  right := h.right
  strong := h.strong

lemma Paired.destroySink_right (h : Paired P s u) {k : SinkId} (hk : .sink k ∉ u.refs) :
    Paired P s (u.destroy (.sink k)) where
  toAlike :=
    { h.toAlike with
      nextSink := h.nextSink.trans (Store.next_erase _ _).symm
      sinks := fun j hj => by
        have hne : k ≠ j := by
          rintro rfl
          exact hk (mem_refs_right_of_shown h.toAlike hj)
        show s.sinks.get? j = (u.sinks.erase k).get? j
        rw [Store.get?_erase, if_neg hne]
        exact h.sinks j hj }
  left := h.left
  right := h.right.destroy hk
  strong := h.strong

/-- All handles are kept by something. -/
def Tended (s : Session) : Prop := ∀ i, s.handles.contains i → .handle i ∈ s.refs

lemma Settled.tended (hs : s.Settled) : s.Tended := fun i hi => hs (.handle i) hi

/-- The same handles are kept on both sides. -/
lemma Paired.handle_mem_refs_iff (h : Paired P s u) {i : HandleId} :
    .handle i ∈ s.refs ↔ .handle i ∈ u.refs := by
  rw [h.left.handle_mem_refs_iff, h.right.handle_mem_refs_iff, h.inUse, h.client.handles]

lemma Paired.tended_iff (h : Paired P s u) : s.Tended ↔ u.Tended := by
  simp only [Tended, h.toAlike.contains_handle, h.handle_mem_refs_iff]

lemma Paired.destroy_left (h : Paired P s u) (ht : u.Tended) (hr : r ∉ s.refs) (hs : s.Has r) :
    ∃ P', Paired P' (s.destroy r) u := by
  cases r with
  | node n => exact ⟨_, h.destroyNode_left hr⟩
  | sink k => exact ⟨_, h.destroySink_left hr⟩
  | handle i => exact absurd (h.tended_iff.2 ht i hs) hr

lemma Paired.destroy_right (h : Paired P s u) (ht : s.Tended) (hr : r ∉ u.refs) (hu : u.Has r) :
    ∃ P', Paired P' s (u.destroy r) := by
  cases r with
  | node n => exact ⟨_, h.destroyNode_right hr⟩
  | sink k => exact ⟨_, h.destroySink_right hr⟩
  | handle i => exact absurd (h.tended_iff.1 ht i hu) hr

/-- Settling the first session alone. -/
lemma Paired.settleWithin_left (h : Paired P s u) (ht : u.Tended) (fuel : Nat) :
    ∃ P', Paired P' (settleWithin fuel s) u :=
  settleWithin_induction (motive := fun s => ∃ P', Paired P' s u)
    (fun _ _ ⟨_, h⟩ hr hs => h.destroy_left ht hr hs) fuel ⟨P, h⟩

/-- Settling the second session alone. -/
lemma Paired.settleWithin_right (h : Paired P s u) (ht : s.Tended) (fuel : Nat) :
    ∃ P', Paired P' s (settleWithin fuel u) :=
  settleWithin_induction (motive := fun u => ∃ P', Paired P' s u)
    (fun _ _ ⟨_, h⟩ hr hu => h.destroy_right ht hr hu) fuel ⟨P, h⟩

/-! ### Settling both sessions -/

/-- The end of a handle is noticed on both sides. -/
lemma Alike.ends_destroyHandle (h : Alike P s u) (i : HandleId) :
    List.Forall₂ (SameEnd P (s.destroy (.handle i))) (s.destroy (.handle i)).notices
      (u.destroy (.handle i)).notices := by
  have hnext : s.handles.next ≤ (s.handles.erase i).next := by rw [Store.next_erase]
  have hold : List.Forall₂ (SameEnd P (s.destroy (.handle i))) s.notices u.notices :=
    h.ends rfl hnext
  show List.Forall₂ (SameEnd P (s.destroy (.handle i)))
    (s.notices ++ (s.handles.get? i).toList.map fun n => ⟨n, i⟩)
    (u.notices ++ (u.handles.get? i).toList.map fun n => ⟨n, i⟩)
  rcases h.handle_cases i with ⟨hs, hu⟩ | ⟨n, m, hs, hu, hp⟩
  · rw [hs, hu]
    simpa using hold
  · rw [hs, hu]
    have hnew : SameEnd P s ⟨n, i⟩ ⟨m, i⟩ := ⟨rfl, Store.lt_next_of_get? hs, Or.inl hp⟩
    exact List.rel_append hold (.cons (hnew.mono rfl hnext) .nil)

/-- The end of the same handle on both sides. -/
lemma Paired.destroyHandle (h : Paired P s u) {i : HandleId} (hi : .handle i ∉ s.refs) :
    Paired P (s.destroy (.handle i)) (u.destroy (.handle i)) where
  toAlike :=
    { h.toAlike with
      handles := fun j => by
        show Option.Rel P.pair ((s.handles.erase i).get? j) ((u.handles.erase i).get? j)
        rw [Store.get?_erase, Store.get?_erase]
        split_ifs
        · exact .none
        · exact h.handles j
      nextHandle := by
        show (s.handles.erase i).next = (u.handles.erase i).next
        simp [Store.next_erase, h.nextHandle]
      notices := h.toAlike.ends_destroyHandle i }
  left := h.left.destroy hi
  right := h.right.destroy fun hi' => hi (h.handle_mem_refs_iff.2 hi')
  strong := h.strong

/-- The first handle that nothing keeps. -/
def looseHandle? (s : Session) : Option Ref :=
  (s.handles.keys.map Ref.handle).find? fun r => !s.refs.contains r

lemma unowned?_eq (s : Session) :
    s.unowned? = s.looseHandle?.or
      ((s.tree.nodes.keys.map Ref.node ++ s.sinks.keys.map Ref.sink).find? fun r =>
        !s.refs.contains r) := by
  rw [unowned?, things_eq, List.append_assoc, List.find?_append]
  rfl

lemma tended_iff_looseHandle? : s.Tended ↔ s.looseHandle? = none := by
  simp only [looseHandle?, List.find?_eq_none, List.mem_map, Store.mem_keys_iff, Tended,
    Bool.not_eq_true', Bool.not_eq_false, List.contains_iff_mem]
  constructor
  · rintro hs r ⟨i, hi, rfl⟩
    exact hs i hi
  · intro hs i hi
    exact hs _ ⟨i, hi, rfl⟩

lemma Paired.looseHandle?_eq (h : Paired P s u) : s.looseHandle? = u.looseHandle? := by
  rw [looseHandle?, looseHandle?, Store.keys_eq h.toAlike.contains_handle]
  refine List.find?_congr fun r hr => ?_
  obtain ⟨i, -, rfl⟩ := List.mem_map.1 hr
  rw [Bool.eq_iff_iff]
  simp [h.handle_mem_refs_iff]

lemma unowned?_of_looseHandle? (hr : s.looseHandle? = some r) : s.unowned? = some r := by
  rw [unowned?_eq, hr]
  rfl

/-- Handles come to their ends in step. Once those that are left are kept, each session settles
by itself what else is to go. -/
lemma Paired.settleWithin (h : Paired P s u) (fuel fuel' : Nat) (hf : s.things.length ≤ fuel)
    (hf' : u.things.length ≤ fuel') :
    ∃ P', Paired P' (settleWithin fuel s) (settleWithin fuel' u) := by
  induction fuel generalizing P s u fuel' with
  | zero =>
    have hnil := List.eq_nil_of_length_eq_zero (Nat.le_zero.1 hf)
    have ht : s.Tended := by
      intro i hi
      have hmem : Ref.handle i ∈ s.things := mem_things_iff.2 hi
      rw [hnil] at hmem
      cases hmem
    exact h.settleWithin_right ht fuel'
  | succ fuel ih =>
    cases hl : s.looseHandle? with
    | none =>
      have ht := tended_iff_looseHandle?.2 hl
      have hu := h.tended_iff.1 ht
      obtain ⟨P₁, h₁⟩ := h.settleWithin_left hu (fuel + 1)
      exact h₁.settleWithin_right (h₁.tended_iff.2 hu) fuel'
    | some r =>
      have hs := unowned?_of_looseHandle? hl
      have hu := unowned?_of_looseHandle? (h.looseHandle?_eq ▸ hl)
      obtain ⟨i, -, rfl⟩ := List.mem_map.1 (List.mem_of_find?_eq_some hl)
      have hlt := things_length_destroy (has_of_unowned? hs)
      have hlt' := things_length_destroy (has_of_unowned? hu)
      cases fuel' with
      | zero => exact absurd (Nat.lt_of_lt_of_le hlt' hf') (Nat.not_lt_zero _)
      | succ fuel' =>
        rw [Session.settleWithin, Session.settleWithin, hs, hu]
        exact ih (h.destroyHandle (not_mem_refs_of_unowned? hs)) fuel'
          (Nat.le_of_lt_succ (Nat.lt_of_lt_of_le hlt hf))
          (Nat.le_of_lt_succ (Nat.lt_of_lt_of_le hlt' hf'))

theorem Paired.settle (h : Paired P s u) : ∃ P', Paired P' s.settle u.settle :=
  h.settleWithin _ _ (Nat.le_refl _) (Nat.le_refl _)

/-! ### Pruning -/

/-- A tame session with something else beside what keeps it tame. -/
lemma Tame.of_eq (hs : s.Tame) (ht : s'.tree = s.tree) (hh : s'.handles = s.handles)
    (hk : s'.sinks = s.sinks) (hn : s'.scope? = s.scope?) (hc : s'.client = s.client) :
    s'.Tame where
  named ns id f hns hf := hs.named ns id f (hn ▸ hns) hf
  held id f hf := hs.held id f (hc ▸ hf)
  sound := by
    have hl : s.Leads s' := leads_beside ht hh (by rw [hc]) (levelsNamed_of_scope?_eq hn)
    exact hl.sound hs.sound
  present := by
    rw [hn]
    exact hs.present
  node n f hf := by
    rw [Session.node, ht] at hf
    exact hs.node n f hf
  sink k b hb := hs.sink k b (hk ▸ hb)
  hook ns hns := hs.hook ns (hn ▸ hns)

/-- Whether all handles are kept depends on these, the client and running calls. -/
lemma Tame.tended_of_eq (hs : s.Tame) (hs' : s'.Tame) (hh : s'.handles = s.handles)
    (hi : s'.inUse = s.inUse) (hc : s'.client = s.client) (ht : s.Tended) : s'.Tended := by
  intro i hi'
  rw [hh] at hi'
  rw [hs'.handle_mem_refs_iff, hi, hc, ← hs.handle_mem_refs_iff]
  exact ht i hi'

lemma Paired.removeChild (h : Paired P s u) {k : String} (hc : s.tree.child? p k = some c)
    (hr : s.removable c) : Paired (P.release c) (s.removeChild p k c) u := by
  obtain ⟨hone, hd⟩ := Bool.and_eq_true_iff.1 hr
  have hone : s.owners (.node c) = 1 := beq_iff_eq.1 hone
  have hts := h.left.sound.tree.toWellShaped
  have hnode : ∀ {x}, x ≠ c → ((s.tree.removeChild p k c).node x).Alike (s.node x) := by
    intro x hx
    rw [Tree.removeChild, Tree.node_drop_of_ne (Ne.symm hx), Tree.strike, Tree.node_modify]
    split_ifs
    · exact { Node.Alike.refl (s.node x) with }
    · exact .refl _
  have hf := h.tree.removeChild hts hc hd (parent_ne_of_removable h.left.sound hc hone)
  have hg : Follows P (P.release c) s u (s.tree.removeChild p k c) := by
    refine follows_fewer h.toAlike And.left (fun {i x y} hs _ hp => ⟨hp, ?_⟩) fun hp => hnode hp.2
    rintro rfl
    exact handle_ne_of_removable hc hone i hs
  have hq := h.left.each.removeChild (Node.ofContents_filter _) p k c
  have htree : Paired (P.release c) { s with tree := s.tree.removeChild p k c } u :=
    { toAlike := h.toAlike.withTree_left hf hg
      left := h.left.withTree (leads_change (.removeChild hc)) hq
      right := h.right
      strong := h.strong }
  exact
    { htree with
      metrics := htree.metrics
      notices := htree.toAlike.ends rfl (Nat.le_refl _)
      left := htree.left.of_eq rfl rfl rfl rfl rfl }

lemma Paired.letGo (h : Paired P s u) (n : NodeId) : ∃ P', Paired P' (s.letGo n) u := by
  rw [Session.letGo]
  split_ifs with hn
  · exact ⟨_, h.destroyNode_left (List.count_eq_zero.1 hn)⟩
  · exact ⟨P, h⟩

/-- Pruning the first session alone, from whichever node and however far up. -/
theorem Paired.pruneAlong (h : Paired P s u) (path : List NodeId) :
    ∃ P', Paired P' (pruneAlong path s) u := by
  fun_induction Session.pruneAlong path s generalizing P with
  | case1 n p path s node _ s₁ c hc hr =>
    rename_i ih
    obtain ⟨P₁, h₁⟩ := h.letGo n
    exact ih (h₁.removeChild hc hr)
  | case2 n p path s node _ s₁ => exact h.letGo n
  | case3 n p path s node _ s₁ => exact h.letGo n
  | case4 => exact ⟨P, h⟩
  | case5 => exact ⟨P, h⟩

lemma Paired.prune (h : Paired P s u) (hu : u.Tended) (n : NodeId) :
    ∃ P', Paired P' (s.prune n) u := by
  rw [Session.prune]
  split_ifs
  · exact ⟨P, h⟩
  · obtain ⟨P₁, h₁⟩ := h.pruneAlong (s.tree.lineage n)
    exact h₁.settleWithin_left hu _

/-! ### Dealing with ended handles -/

lemma discharge_of_strong (hs : s.tree.strong) (notice : Notice) :
    s.discharge notice = if s.tree.contains notice.node then s.untrack notice else s := by
  have hp : (s.untrack notice).prune notice.node = s.untrack notice := if_pos hs
  rw [discharge, hp]
  split_ifs <;> rfl

/-- The end of a handle of paired nodes is dealt with on both sides. -/
lemma Paired.untrack (h : Paired P s u) {a b : Notice} (hp : P.pair a.node b.node)
    (hab : a.handle = b.handle) : Paired P (s.untrack a) (u.untrack b) := by
  have ha := h.tree.alike hp
  refine h.configure hp (Node.setting_live (List.erase · a.handle))
    (Node.setting_live (List.erase · b.handle)) ?_ ?_ ?_ ?_
  · rw [hab]
    exact { ha with live := congrArg (List.erase · b.handle) ha.live }
  · exact fun i hi => Or.inl (List.mem_of_mem_erase hi)
  · exact fun k hk => Or.inr (Or.inr ⟨_, _, hp, hk⟩)
  · exact fun x hx => h.left.node _ x hx

lemma Tame.untrack (hs : s.Tame) (a : Notice) : (s.untrack a).Tame :=
  hs.withTree (leads_untrack s a) (hs.each.modify a.node id)

/-- To strike off a handle that no paired node has makes no difference to the first session. -/
lemma Paired.untrack_left (h : Paired P s u) {a : Notice}
    (ha : ∀ m, P.pair a.node m → a.handle ∉ (s.node a.node).liveHandles) :
    Paired P (s.untrack a) u where
  toAlike := by
    have herase : ∀ m, P.pair a.node m →
        (s.node a.node).liveHandles.erase a.handle = (s.node a.node).liveHandles := fun m hp =>
      List.erase_of_not_mem (ha m hp)
    refine h.toAlike.withTree_left (h.tree.configure_left ?_ fun m hp => ?_)
      (follows_same fun {x y} hp => ?_)
    · exact (Node.setting_live (List.erase · a.handle)).place
    · exact { h.tree.alike hp with live := (herase m hp).trans (h.tree.alike hp).live }
    · rw [Tree.node_modify]
      split_ifs with hx
      · obtain ⟨rfl, -⟩ := hx
        exact ⟨fun i hi => Or.inl (List.mem_of_mem_erase hi),
          fun k hk => Or.inr (Or.inr ⟨_, y, hp, hk⟩)⟩
      · exact ⟨fun i hi => Or.inl hi, fun k hk => Or.inr (Or.inr ⟨x, y, hp, hk⟩)⟩
  left := h.left.untrack a
  right := h.right
  strong := h.strong

/-- The same of the second session, where spare nodes have no handles at all. -/
lemma Paired.untrack_right (h : Paired P s u) {b : Notice}
    (hb : ∀ n, P.pair n b.node → b.handle ∉ (u.node b.node).liveHandles) :
    Paired P s (u.untrack b) where
  toAlike := by
    refine h.toAlike.withTree_right (h.tree.configure_right ?_ (fun n hp => ?_) fun hs => ?_)
      (follows_of_eq fun _ => ⟨rfl, rfl⟩)
    · exact (Node.setting_live (List.erase · b.handle)).place
    · have ha := h.tree.alike hp
      have herase : (u.node b.node).liveHandles.erase b.handle = (u.node b.node).liveHandles :=
        List.erase_of_not_mem (hb n hp)
      exact { ha with live := ha.live.trans herase.symm }
    · have hpl := h.tree.plain hs
      have hnil : (u.node b.node).liveHandles = [] := hpl.live
      refine { hpl with live := ?_ }
      show (u.node b.node).liveHandles.erase b.handle = []
      rw [hnil]
      rfl
  left := h.left
  right := h.right.untrack b
  strong := h.strong

/-- The rest of a discharge prunes the first session at most. -/
lemma Paired.discharge_of_untrack {a : Notice} (h : Paired P (s.untrack a) u) (hu : u.Tended)
    (hs : s.tree.contains a.node) : ∃ P', Paired P' (s.discharge a) u := by
  rw [Session.discharge, if_pos hs]
  split_ifs
  · exact h.prune hu _
  · exact ⟨P, h⟩

/-- The end of one handle is dealt with in both sessions. -/
theorem Paired.discharge (h : Paired P s u) (hu : u.Tended) {a b : Notice}
    (hab : SameEnd P s a b) : ∃ P', Paired P' (s.discharge a) (u.discharge b) := by
  have htended : (u.untrack b).Tended :=
    h.right.tended_of_eq (h.right.untrack b) rfl rfl rfl hu
  rw [discharge_of_strong h.strong]
  rcases hab.paired with hp | hstale
  · rw [if_pos (h.tree.right hp)]
    exact (h.untrack hp hab.handle).discharge_of_untrack htended (h.tree.left hp)
  · have hb : ∀ n, P.pair n b.node → b.handle ∉ (u.node b.node).liveHandles := by
      intro n hp
      have hlive : (s.node n).liveHandles = (u.node b.node).liveHandles := (h.tree.alike hp).live
      rw [← hlive, ← hab.handle]
      exact hstale n _ hp (Or.inr rfl)
    have ha : ∀ m, P.pair a.node m → a.handle ∉ (s.node a.node).liveHandles := fun m hp =>
      hstale _ m hp (Or.inl rfl)
    have hright : Paired P s (if u.tree.contains b.node then u.untrack b else u) ∧
        (if u.tree.contains b.node then u.untrack b else u).Tended := by
      split_ifs
      · exact ⟨h.untrack_right hb, htended⟩
      · exact ⟨h, hu⟩
    by_cases hs : s.tree.contains a.node
    · exact (hright.1.untrack_left ha).discharge_of_untrack hright.2 hs
    · rw [Session.discharge, if_neg hs]
      exact ⟨P, hright.1⟩

/-- Counting on both sides. -/
lemma Paired.bump (h : Paired P s u) (k : Counter) : Paired P (s.bump k) (u.bump k) where
  toAlike :=
    { h.toAlike with
      metrics := Metrics.withoutPruned_bump h.metrics k
      notices := h.toAlike.ends rfl (Nat.le_refl _) }
  left := h.left.of_eq rfl rfl rfl rfl rfl
  right := h.right.of_eq rfl rfl rfl rfl rfl
  strong := h.strong

theorem Paired.process (h : Paired P s u) (hu : u.Tended) {a b : Notice}
    (hab : SameEnd P s a b) : ∃ P', Paired P' (s.process a) (u.process b) := by
  rw [process_eq_discharge, process_eq_discharge]
  have hb := h.bump .handlesReclaimed
  exact hb.discharge (h.right.tended_of_eq hb.right rfl rfl rfl hu)
    (hab.mono rfl (Nat.le_refl _))

/-- Without pruning, the end of a handle is dealt with beside all else. -/
lemma process_of_strong (hs : s.tree.strong) (a : Notice) :
    ∃ t, s.process a = { s.bump .handlesReclaimed with tree := t } := by
  have hd := discharge_of_strong (s := s.bump .handlesReclaimed) hs a
  rw [process_eq_discharge, hd]
  split_ifs
  · exact ⟨_, rfl⟩
  · exact ⟨_, rfl⟩

/-- Sessions with notices of the same ends left. -/
lemma Paired.withNotices (h : Paired P s u) {l l' : List Notice}
    (hl : List.Forall₂ (SameEnd P s) l l') :
    Paired P { s with notices := l } { u with notices := l' } where
  toAlike :=
    { h.toAlike with
      notices := hl.imp fun _ _ hab => hab.mono rfl (Nat.le_refl _) }
  left := h.left.of_eq rfl rfl rfl rfl rfl
  right := h.right.of_eq rfl rfl rfl rfl rfl
  strong := h.strong

/-- All ends that are noticed are dealt with, and they are as many on both sides. -/
theorem Paired.reclaimWithin (h : Paired P s u) (hu : u.Tended) (fuel fuel' : Nat)
    (hf : s.notices.length ≤ fuel) (hf' : u.notices.length ≤ fuel') :
    (reclaimWithin fuel s).1 = (reclaimWithin fuel' u).1 ∧
      (reclaimWithin fuel' u).2.Tended ∧
      ∃ P', Paired P' (reclaimWithin fuel s).2 (reclaimWithin fuel' u).2 := by
  induction fuel generalizing P s u fuel' with
  | zero =>
    have hs := List.eq_nil_of_length_eq_zero (Nat.le_zero.1 hf)
    have hnil := h.notices
    rw [hs, List.forall₂_nil_left_iff] at hnil
    rw [reclaimWithin_of_nil hs, reclaimWithin_of_nil hnil]
    exact ⟨rfl, hu, P, h⟩
  | succ fuel ih =>
    have hall := h.notices
    cases hs : s.notices with
    | nil =>
      rw [hs, List.forall₂_nil_left_iff] at hall
      rw [reclaimWithin_of_nil hs, reclaimWithin_of_nil hall]
      exact ⟨rfl, hu, P, h⟩
    | cons a rest =>
      rw [hs] at hall
      obtain ⟨b, rest', hab, hrest, hnu⟩ := List.forall₂_cons_left_iff.1 hall
      obtain ⟨fuel', rfl⟩ : ∃ k, fuel' = k + 1 := by
        refine Nat.exists_eq_succ_of_ne_zero fun h0 => ?_
        rw [hnu, h0] at hf'
        exact Nat.not_succ_le_zero _ hf'
      have h₁ := h.withNotices hrest
      have ht₁ := h.right.tended_of_eq h₁.right rfl rfl rfl hu
      obtain ⟨P₂, h₂⟩ := h₁.process ht₁ (hab.mono rfl (Nat.le_refl _))
      obtain ⟨t, ht⟩ := process_of_strong h₁.strong b
      have ht₂ : (({ u with notices := rest' } : Session).process b).Tended := by
        rw [ht] at h₂ ⊢
        exact h₁.right.tended_of_eq h₂.right rfl rfl rfl ht₁
      have hlen : (({ u with notices := rest' } : Session).process b).notices.length ≤ fuel' := by
        rw [ht]
        rw [hnu] at hf'
        exact Nat.le_of_succ_le_succ hf'
      have hlen' : (({ s with notices := rest } : Session).process a).notices.length ≤ fuel := by
        rw [h₂.notices.length_eq, ht]
        show rest'.length ≤ fuel
        rw [← hrest.length_eq]
        rw [hs] at hf
        exact Nat.le_of_succ_le_succ hf
      obtain ⟨hcount, hrest⟩ := ih h₂ ht₂ fuel' hlen' hlen
      rw [reclaimWithin_of_cons hs, reclaimWithin_of_cons hnu]
      exact ⟨congrArg (· + 1) hcount, hrest⟩

theorem Paired.reclaim (h : Paired P s u) (hu : u.Tended) :
    s.reclaim.1 = u.reclaim.1 ∧ u.reclaim.2.Tended ∧ ∃ P', Paired P' s.reclaim.2 u.reclaim.2 :=
  h.reclaimWithin hu _ _ (Nat.le_add_right _ _) (Nat.le_add_right _ _)

end Logging.Session
