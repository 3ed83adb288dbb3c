import Mathlib.Logic.Relation
import Logging.Proofs.Level.Registry
import Logging.Proofs.Tree.Changes
import Logging.Session.Reclaim

/-!
# Moves of a session

Whatever a session does comes down to moves: one change of the tree, or something done beside it.
A session is sound if its tree is, if the nodes that it can come back to have been made, and if
levels are registered under their names; moves keep it sound (`Leads.sound`). The end of things that
nothing refers to, the pruning of nodes and what is done about an ended handle are made of moves.
-/

namespace Logging.Session

open Relation (ReflTransGen)

variable {s s' : Session} {n : NodeId}

/-- The levels of the namespace, while there is one, are registered under their names. -/
def LevelsNamed (s : Session) : Prop := ∀ ns, s.scope? = some ns → ns.levels.Named

/-- The tree is sound, all nodes that handles are for or a client keeps were made, and levels go by
their names. -/
structure Sound (s : Session) : Prop where
  tree : s.tree.LevelsSound
  made : 0 < s.tree.nodes.next
  handle : ∀ {h n}, s.handles.get? h = some n → n < s.tree.nodes.next
  kept : ∀ {id n}, s.client.nodes.get? id = some n → n < s.tree.nodes.next
  named : s.LevelsNamed

/-- One change of the tree, or of anything else. -/
inductive Move (s : Session) : Session → Prop
  | change {t : Tree} (h : s.tree.Change t) : Move s { s with tree := t }
  | aside {s' : Session} (ht : s'.tree = s.tree)
      (hh : ∀ {h n}, s'.handles.get? h = some n →
        s.handles.get? h = some n ∨ n < s.tree.nodes.next)
      (hk : ∀ {id n}, s'.client.nodes.get? id = some n →
        s.client.nodes.get? id = some n ∨ n < s.tree.nodes.next)
      (hl : s.LevelsNamed → s'.LevelsNamed) : Move s s'

/-- Any number of moves. -/
def Leads : Session → Session → Prop := ReflTransGen Move

lemma Leads.refl (s : Session) : s.Leads s := ReflTransGen.refl

lemma Leads.trans {s'' : Session} (h : s.Leads s') (h' : s'.Leads s'') : s.Leads s'' :=
  ReflTransGen.trans h h'

lemma Move.leads (h : s.Move s') : s.Leads s' := ReflTransGen.single h

lemma leads_change {t : Tree} (h : s.tree.Change t) : s.Leads { s with tree := t } :=
  (Move.change h).leads

lemma leads_reset (s : Session) (n : NodeId) : s.Leads { s with tree := s.tree.reset n } :=
  leads_change (.reset n)

lemma levelsNamed_of_scope?_eq (h : s'.scope? = s.scope?) (hs : s.LevelsNamed) :
    s'.LevelsNamed := fun ns hn => hs ns (h ▸ hn)

/-- What touches neither tree nor handles nor the nodes that a client keeps. -/
lemma leads_beside (ht : s'.tree = s.tree) (hh : s'.handles = s.handles)
    (hk : s'.client.nodes = s.client.nodes) (hl : s.LevelsNamed → s'.LevelsNamed) : s.Leads s' :=
  (Move.aside ht (fun h => Or.inl (hh ▸ h)) (fun h => Or.inl (hk ▸ h)) hl).leads

lemma Move.sound (h : s.Move s') (hs : s.Sound) : s'.Sound := by
  cases h with
  | change h =>
    have hle := h.next_le
    exact ⟨h.levelsSound hs.tree, Nat.lt_of_lt_of_le hs.made hle,
      fun hn => Nat.lt_of_lt_of_le (hs.handle hn) hle,
      fun hn => Nat.lt_of_lt_of_le (hs.kept hn) hle, hs.named⟩
  | aside ht hh hk hl =>
    refine ⟨ht ▸ hs.tree, ht ▸ hs.made, fun hn => ?_, fun hn => ?_, hl hs.named⟩
    · rw [ht]
      exact (hh hn).elim hs.handle id
    · rw [ht]
      exact (hk hn).elim hs.kept id

theorem Leads.sound (h : s.Leads s') (hs : s.Sound) : s'.Sound := by
  induction h with
  | refl => exact hs
  | tail _ h ih => exact h.sound ih

lemma Leads.next_le (h : s.Leads s') : s.tree.nodes.next ≤ s'.tree.nodes.next := by
  induction h with
  | refl => exact Nat.le_refl _
  | tail _ h ih =>
    refine Nat.le_trans ih ?_
    cases h with
    | change h => exact h.next_le
    | aside ht => exact Nat.le_of_eq (by rw [ht])

/-- A node that was made and is there was there before. -/
lemma Leads.contains (h : s.Leads s') (hn : n < s.tree.nodes.next) (hc : s'.tree.contains n) :
    s.tree.contains n := by
  induction h with
  | refl => exact hc
  | tail h h' ih =>
    have hlt := Nat.lt_of_lt_of_le hn (Leads.next_le h)
    refine ih ?_
    cases h' with
    | change h' => exact h'.contains hlt hc
    | aside ht => exact ht ▸ hc

/-- An entry that is new leads to a node that is new. -/
lemma Leads.child? {p c : NodeId} {k : String} (h : s.Leads s') (hs : s.Sound)
    (hk : s'.tree.child? p k = some c) :
    s.tree.child? p k = some c ∨ s.tree.nodes.next ≤ c := by
  induction h with
  | refl => exact Or.inl hk
  | tail h h' ih =>
    have hu := Leads.sound h hs
    cases h' with
    | change h' =>
      rcases h'.child? hu.tree.toWellShaped hk with hk | hc
      · exact ih hk
      · exact Or.inr (Nat.le_trans (Leads.next_le h) hc)
    | aside ht => exact ih (ht ▸ hk)

lemma Leads.baseline (h : s.Leads s') : s'.tree.baseline = s.tree.baseline := by
  induction h with
  | refl => rfl
  | tail _ h ih =>
    refine Eq.trans ?_ ih
    cases h with
    | change h => exact h.baseline
    | aside ht => simp [ht]

lemma Leads.strong (h : s.Leads s') : s'.tree.strong = s.tree.strong := by
  induction h with
  | refl => rfl
  | tail _ h ih =>
    refine Eq.trans ?_ ih
    cases h with
    | change h => exact h.strong
    | aside ht => simp [ht]

/-! ### New handles and nodes -/

/-- A handle may be made for any node that was made. -/
lemma leads_newHandle (hn : n < s.tree.nodes.next) :
    s.Leads { s with handles := s.handles.push n } := by
  have h : s.Move { s with handles := s.handles.push n } := by
    refine .aside rfl (fun {h m} hm => ?_) (fun hm => Or.inl hm) id
    have hm' : (s.handles.push n).get? h = some m := hm
    rw [Store.get?_push] at hm'
    split_ifs at hm'
    · exact Or.inr (Option.some.inj hm' ▸ hn)
    · exact Or.inl hm'
  exact h.leads

/-- The node at the end of a path, and all that had to be made on the way. -/
lemma leads_getOrCreate (hs : s.Sound) (hn : n < s.tree.nodes.next)
    (path : List String) :
    s.Leads { s with tree := (s.tree.getOrCreate n path).2 } ∧
      (s.tree.getOrCreate n path).1 < (s.tree.getOrCreate n path).2.nodes.next := by
  induction path generalizing s n with
  | nil => exact ⟨.refl s, hn⟩
  | cons k path ih =>
    rw [Tree.getOrCreate]
    cases hk : s.tree.child? n k with
    | some c => exact ih hs (Tree.lt_next_of_contains (hs.tree.present hk))
    | none =>
      have h : s.Leads { s with tree := s.tree.newChild n k } := leads_change (.newChild hn hk)
      have hc : s.tree.nodes.next < (s.tree.newChild n k).nodes.next :=
        Tree.lt_next_of_contains (Tree.contains_newChild.2 (Or.inl rfl))
      obtain ⟨h', hm⟩ := ih (s := { s with tree := s.tree.newChild n k }) (h.sound hs) hc
      exact ⟨h.trans h', hm⟩

/-! ### The end of things -/

/-- A node that nothing refers to is entered nowhere. -/
lemma child?_ne_of_not_mem_refs (h : .node n ∉ s.refs) (p : NodeId) (k : String) :
    s.tree.child? p k ≠ some n := by
  intro hk
  obtain ⟨a, ha⟩ := Option.isSome_iff_exists.1 (Tree.contains_of_child hk)
  refine h ?_
  rw [refs, List.mem_append]
  right
  refine List.mem_flatMap.2 ⟨(p, a), Store.mem_toList_iff.2 ha, ?_⟩
  have hn : n ∈ a.children.values := by
    rw [Tree.child?, Tree.node, ha] at hk
    exact List.mem_map.2 ⟨(k, n), Dict.mem_entries_iff.2 hk, rfl⟩
  simp [refsOfNode, hn]

lemma leads_destroy {r : Ref} (h : r ∉ s.refs) : s.Leads (s.destroy r) := by
  cases r with
  | node n => exact leads_change (.drop (child?_ne_of_not_mem_refs h))
  | handle i =>
    have h : s.Move (s.destroy (.handle i)) := by
      refine .aside rfl (fun {j n} hn => Or.inl ?_) (fun hn => Or.inl hn) id
      have hn' : (s.handles.erase i).get? j = some n := hn
      rw [Store.get?_erase] at hn'
      split_ifs at hn'
      exact hn'
    exact h.leads
  | sink k => exact leads_beside rfl rfl rfl id

lemma not_mem_refs_of_unowned? {r : Ref} (h : s.unowned? = some r) : r ∉ s.refs := by
  have := List.find?_some h
  simpa using this

lemma leads_removeChild {p c : NodeId} {k : String} (hk : s.tree.child? p k = some c) :
    s.Leads (s.removeChild p k c) :=
  (leads_change (.removeChild hk)).trans (leads_beside rfl rfl rfl id)

/-- One thing ends: nothing refers to it, or it is a child that is like new and to which only its
entry refers. -/
inductive End (s : Session) : Session → Prop
  | destroy {r : Ref} (hr : r ∉ s.refs) : End s (s.destroy r)
  | removeChild {p c : NodeId} {k : String} (hk : s.tree.child? p k = some c)
      (hr : s.removable c) : End s (s.removeChild p k c)

/-- Any number of ends. -/
def Ends : Session → Session → Prop := ReflTransGen End

lemma Ends.refl (s : Session) : s.Ends s := ReflTransGen.refl

lemma Ends.trans {s'' : Session} (h : s.Ends s') (h' : s'.Ends s'') : s.Ends s'' :=
  ReflTransGen.trans h h'

lemma End.ends (h : s.End s') : s.Ends s' := ReflTransGen.single h

lemma End.leads (h : s.End s') : s.Leads s' := by
  cases h with
  | destroy hr => exact leads_destroy hr
  | removeChild hk _ => exact leads_removeChild hk

lemma Ends.leads (h : s.Ends s') : s.Leads s' := by
  induction h with
  | refl => exact .refl s
  | tail _ h ih => exact ih.trans h.leads

/-- What holds before things end and outlives the end of each holds after it. -/
theorem Ends.induction {motive : Session → Prop} (h : s.Ends s') (hs : s.Sound) (start : motive s)
    (step : ∀ s s', s.Sound → s.End s' → motive s → motive s') : motive s' := by
  induction h with
  | refl => exact start
  | tail h h' ih => exact step _ _ ((Ends.leads h).sound hs) h' ih

lemma ends_settleWithin (fuel : Nat) (s : Session) : s.Ends (settleWithin fuel s) := by
  induction fuel generalizing s with
  | zero => exact .refl s
  | succ fuel ih =>
    rw [settleWithin]
    cases h : s.unowned? with
    | none => exact .refl s
    | some r => exact (End.destroy (not_mem_refs_of_unowned? h)).ends.trans (ih _)

lemma ends_settle (s : Session) : s.Ends s.settle := ends_settleWithin _ s

lemma leads_settle (s : Session) : s.Leads s.settle := (ends_settle s).leads

lemma ends_letGo (s : Session) (n : NodeId) : s.Ends (s.letGo n) := by
  rw [letGo]
  split_ifs with h
  · exact (End.destroy (List.count_eq_zero.1 h)).ends
  · exact .refl s

/-! ### Pruning -/

lemma ends_pruneAlong (path : List NodeId) (s : Session) : s.Ends (pruneAlong path s) := by
  fun_induction pruneAlong path s with
  | case1 n p path s node _ s₁ c hc hr ih =>
    exact (ends_letGo s n).trans ((End.removeChild hc hr).ends.trans ih)
  | case2 n p path s node _ s₁ => exact ends_letGo s n
  | case3 n p path s node _ s₁ => exact ends_letGo s n
  | case4 => exact .refl _
  | case5 => exact .refl _

lemma ends_prune (s : Session) (n : NodeId) : s.Ends (s.prune n) := by
  rw [prune]
  split_ifs
  · exact .refl s
  · exact (ends_pruneAlong _ s).trans (ends_settle _)

/-- To change a node in something that does not concern its place and its levels. -/
lemma leads_configure (s : Session) (n : NodeId) {f : Node → Node}
    (hf : Node.Setting f) : s.Leads (s.modifyNode n f) :=
  leads_change (.configure n hf.place hf.kept)

/-- The session with a handle struck off the list of its node. -/
def untrack (s : Session) (notice : Notice) : Session :=
  s.modifyNode notice.node fun a => { a with liveHandles := a.liveHandles.erase notice.handle }

lemma process_eq (s : Session) (notice : Notice) :
    s.process notice =
      if s.tree.contains notice.node then
        if (s.node notice.node).liveHandles.contains notice.handle &&
            !((s.untrack notice).node notice.node).hasLiveHandles then
          ((s.bump .handlesReclaimed).untrack notice).prune notice.node
        else (s.bump .handlesReclaimed).untrack notice
      else s.bump .handlesReclaimed := rfl

lemma leads_untrack (s : Session) (notice : Notice) : s.Leads (s.untrack notice) :=
  leads_configure s notice.node (Node.setting_live (List.erase · notice.handle))

lemma leads_process (s : Session) (notice : Notice) : s.Leads (s.process notice) := by
  have hb : s.Leads (s.bump .handlesReclaimed) := leads_beside rfl rfl rfl id
  rw [process_eq]
  split_ifs
  · exact hb.trans ((leads_untrack _ notice).trans (ends_prune _ _).leads)
  · exact hb.trans (leads_untrack _ notice)
  · exact hb

end Logging.Session
