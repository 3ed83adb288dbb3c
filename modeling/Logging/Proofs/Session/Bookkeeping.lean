import Logging.Proofs.Session.Steps
import Logging.Proofs.Tree.Entries

/-!
# The books on handles

Every node lists the handles that are for it, from the moment they are made until their end was
dealt with. The books are kept along with the notices that were dealt with so far, which are nowhere
in a session: together with those that wait they name each handle that ended once, and all deeds
leave the books in order (`Deed.booked`).
-/

namespace Logging.Session

variable {L : Licence} {s s' : Session} {n m : NodeId} {i : HandleId} {a : Notice}
  {dealt more rest : List Notice}

/-! ### Exact lists -/

/-- The nodes list their handles, those included whose end was not yet dealt with, and each handle
that ended was noticed once, be the notice dealt with or waiting. -/
structure Booked (s : Session) (dealt : List Notice) : Prop where
  listed : ∀ {n}, s.tree.contains n → ∀ i,
    i ∈ (s.node n).liveHandles ↔ s.handles.get? i = some n ∨ ⟨n, i⟩ ∈ s.notices
  nodup : ∀ {n}, s.tree.contains n → (s.node n).liveHandles.Nodup
  once : ((dealt ++ s.notices).map Notice.handle).Nodup
  ended : ∀ i, i ∈ (dealt ++ s.notices).map Notice.handle ↔
    i < s.handles.next ∧ ¬ s.handles.contains i
  total : s.handles.next = s.handles.count + s.notices.length + dealt.length
  made : ∀ {a}, a ∈ s.notices → a.node < s.tree.nodes.next

lemma Booked.of_notice (hb : s.Booked dealt) (ha : a ∈ s.notices) :
    a.handle < s.handles.next ∧ ¬ s.handles.contains a.handle :=
  (hb.ended a.handle).1 (List.mem_map.2 ⟨a, List.mem_append_right dealt ha, rfl⟩)

lemma Booked.lt_next (hb : s.Booked dealt) (hn : s.tree.contains n)
    (hi : i ∈ (s.node n).liveHandles) : i < s.handles.next :=
  ((hb.listed hn i).1 hi).elim Store.lt_next_of_get? fun h => (hb.of_notice h).1

lemma Booked.of_eq (hb : s.Booked dealt) (ht : s'.tree = s.tree) (hh : s'.handles = s.handles)
    (hn : s'.notices = s.notices) : s'.Booked dealt where
  listed hc i := by
    rw [hh, hn, node, ht]
    exact hb.listed (ht ▸ hc) i
  nodup hc := by
    rw [node, ht]
    exact hb.nodup (ht ▸ hc)
  once := hn ▸ hb.once
  ended i := by
    rw [hh, hn]
    exact hb.ended i
  total := by
    rw [hh, hn]
    exact hb.total
  made ha := by
    rw [ht]
    exact hb.made (hn ▸ ha)

/-- Nodes may go, and new ones have no handles. -/
lemma Booked.withTree (hb : s.Booked dealt) (hs : s.Sound) (hh : s'.handles = s.handles)
    (hn : s'.notices = s.notices) (hle : s.tree.nodes.next ≤ s'.tree.nodes.next)
    (hold : ∀ n, n < s.tree.nodes.next → s'.tree.contains n →
      s.tree.contains n ∧ (s'.node n).liveHandles = (s.node n).liveHandles)
    (hnew : ∀ n, s.tree.nodes.next ≤ n → (s'.node n).liveHandles = []) : s'.Booked dealt where
  listed {n} hc i := by
    rw [hh, hn]
    by_cases hlt : n < s.tree.nodes.next
    · obtain ⟨hc', hl⟩ := hold n hlt hc
      rw [hl]
      exact hb.listed hc' i
    · rw [hnew n (Nat.le_of_not_lt hlt)]
      refine ⟨fun hi => absurd hi List.not_mem_nil, ?_⟩
      rintro (hi | hi)
      · exact absurd (hs.handle hi) hlt
      · exact absurd (hb.made hi) hlt
  nodup {n} hc := by
    by_cases hlt : n < s.tree.nodes.next
    · obtain ⟨hc', hl⟩ := hold n hlt hc
      rw [hl]
      exact hb.nodup hc'
    · rw [hnew n (Nat.le_of_not_lt hlt)]
      exact List.nodup_nil
  once := hn ▸ hb.once
  ended i := by
    rw [hn, hh]
    exact hb.ended i
  total := by
    rw [hn, hh]
    exact hb.total
  made ha := Nat.lt_of_lt_of_le (hb.made (hn ▸ ha)) hle

lemma liveHandles_of_not_contains {t : Tree} (h : ¬ t.contains n) :
    (t.node n).liveHandles = [] := by
  rw [Tree.node_of_not_contains h]
  rfl

/-- A change of the tree that leaves every node that is left its handles. -/
lemma Booked.withLists (hb : s.Booked dealt) (hs : s.Sound) (hl : s.Leads s')
    (hh : s'.handles = s.handles) (hn : s'.notices = s.notices)
    (hlive : ∀ n, s'.tree.contains n → (s'.node n).liveHandles = (s.node n).liveHandles) :
    s'.Booked dealt := by
  refine hb.withTree hs hh hn hl.next_le (fun n hlt hc => ⟨hl.contains hlt hc, hlive n hc⟩) ?_
  intro n hle
  by_cases hc : s'.tree.contains n
  · rw [hlive n hc]
    exact liveHandles_of_not_contains fun h => Nat.not_lt.2 hle (Tree.lt_next_of_contains h)
  · exact liveHandles_of_not_contains hc

/-! ### What leaves the lists as they are -/

lemma liveHandles_configure (t : Tree) (n m : NodeId) {f : Node → Node} (hf : Node.Configures f) :
    ((t.modify n f).node m).liveHandles = (t.node m).liveHandles := by
  rw [Tree.node_modify]
  split_ifs
  · exact hf.live _
  · rfl

lemma liveHandles_setLevel {t : Tree} (ht : t.LevelsSound) (n m : NodeId) (l? : Option Level) :
    ((t.setLevel n l?).node m).liveHandles = (t.node m).liveHandles := by
  obtain ⟨l, v, hm⟩ := exists_withLevel_setLevel ht n m l?
  rw [hm]
  rfl

lemma liveHandles_reset {t : Tree} (ht : t.WellShaped) (n m : NodeId) :
    ((t.reset n).node m).liveHandles = (t.node m).liveHandles := by
  rcases Tree.reset_node_cases ht n m with ⟨v, h⟩ | h
  · rw [h]
    rfl
  · rw [h]

/-! ### Ends -/

/-- The end of a handle that there is. -/
lemma notices_destroy (hi : s.handles.get? i = some n) :
    (s.destroy (.handle i)).notices = s.notices ++ [⟨n, i⟩] := by
  show s.notices ++ (s.handles.get? i).toList.map _ = _
  rw [hi]
  rfl

lemma Booked.destroyHandle (hb : s.Booked dealt) (hs : s.Sound) (hi : s.handles.get? i = some n) :
    (s.destroy (.handle i)).Booked dealt := by
  have hget : ∀ j, (s.destroy (.handle i)).handles.get? j =
      if i = j then none else s.handles.get? j := Store.get?_erase s.handles i
  have hnext : (s.destroy (.handle i)).handles.next = s.handles.next := Store.next_erase _ _
  have hlt : i < s.handles.next := Store.lt_next_of_get? hi
  have hmap : (dealt ++ (s.destroy (.handle i)).notices).map Notice.handle =
      (dealt ++ s.notices).map Notice.handle ++ [i] := by
    rw [notices_destroy hi, ← List.append_assoc, List.map_append]
    rfl
  have hnot : i ∉ (dealt ++ s.notices).map Notice.handle := fun h =>
    ((hb.ended i).1 h).2 (by rw [Store.contains, hi]; rfl)
  constructor
  case listed =>
    intro m hm j
    rw [hget, notices_destroy hi, List.mem_append, List.mem_singleton, Notice.mk.injEq]
    refine (hb.listed hm j).trans ?_
    by_cases hij : i = j
    · subst hij
      simp [hi, or_comm, eq_comm]
    · simp [hij, Ne.symm hij]
  case nodup => exact hb.nodup
  case once =>
    rw [hmap, List.nodup_append]
    refine ⟨hb.once, List.nodup_singleton i, fun x hx y hy => ?_⟩
    obtain rfl := List.mem_singleton.1 hy
    rintro rfl
    exact hnot hx
  case ended =>
    intro j
    rw [hmap, hnext, Store.contains, hget, List.mem_append, List.mem_singleton]
    by_cases hij : i = j
    · subst hij
      simp [hlt]
    · rw [if_neg hij, or_iff_left (Ne.symm hij)]
      exact hb.ended j
  case total =>
    have hcount := s.handles.count_erase i
    rw [hi, Option.toList_some, List.length_singleton] at hcount
    have hcount' : (s.destroy (.handle i)).handles.count + 1 = s.handles.count := hcount
    have hlen : (s.destroy (.handle i)).notices.length = s.notices.length + 1 := by
      rw [notices_destroy hi, List.length_append, List.length_singleton]
    have htotal := hb.total
    omega
  case made =>
    intro a ha
    rw [notices_destroy hi, List.mem_append, List.mem_singleton] at ha
    rcases ha with ha | rfl
    · exact hb.made ha
    · exact hs.handle hi

lemma End.booked (h : s.End s') (hs : s.Sound) (hb : s.Booked dealt) : s'.Booked dealt := by
  have hl := h.leads
  cases h with
  | @removeChild p c k hc hr =>
    refine hb.withLists hs hl rfl rfl fun n hn => ?_
    show ((s.tree.removeChild p k c).node n).liveHandles = (s.tree.node n).liveHandles
    rw [Tree.removeChild, Tree.node_drop_of_ne (Tree.contains_drop.1 hn).1, Tree.strike,
      Tree.node_modify]
    split_ifs <;> rfl
  | @destroy r hr =>
    cases r with
    | sink k => exact hb.withLists hs hl rfl rfl fun _ _ => rfl
    | node x =>
      refine hb.withLists hs hl rfl rfl fun n hn => ?_
      show ((s.tree.drop x).node n).liveHandles = (s.tree.node n).liveHandles
      rw [Tree.node_drop_of_ne (Tree.contains_drop.1 hn).1]
    | handle i =>
      cases hi : s.handles.get? i with
      | some n => exact hb.destroyHandle hs hi
      | none =>
        refine hb.of_eq rfl (Store.erase_of_get? hi) ?_
        show s.notices ++ (s.handles.get? i).toList.map _ = s.notices
        rw [hi]
        exact List.append_nil _

lemma Ends.booked (h : s.Ends s') (hs : s.Sound) (hb : s.Booked dealt) : s'.Booked dealt :=
  h.induction (motive := fun s => s.Booked dealt) hs hb fun _ _ hs h hb => h.booked hs hb

/-- Ends are noticed after those that came before. -/
lemma End.notices (h : s.End s') : s.notices <+: s'.notices := by
  cases h with
  | removeChild => exact List.prefix_rfl
  | @destroy r hr =>
    cases r with
    | sink | node => exact List.prefix_rfl
    | handle i => exact List.prefix_append _ _

lemma Ends.notices (h : s.Ends s') : s.notices <+: s'.notices := by
  induction h with
  | refl => exact List.prefix_rfl
  | tail _ h ih => exact ih.trans h.notices

lemma End.metrics (h : s.End s') : s'.metrics.handlesReclaimed = s.metrics.handlesReclaimed := by
  cases h with
  | removeChild => rfl
  | @destroy r hr => cases r <;> rfl

lemma Ends.metrics (h : s.Ends s') : s'.metrics.handlesReclaimed = s.metrics.handlesReclaimed := by
  induction h with
  | refl => rfl
  | tail _ h ih => exact h.metrics.trans ih

/-! ### New nodes and handles -/

/-- What making the nodes of a path leaves of the lists. -/
lemma liveHandles_getOrCreate {t : Tree} (ht : t.WellShaped) (hn : n < t.nodes.next)
    (path : List String) (m : NodeId) :
    ((t.getOrCreate n path).2.node m).liveHandles = (t.node m).liveHandles := by
  refine Tree.getOrCreate_induction
    (motive := fun t' => (t'.node m).liveHandles = (t.node m).liveHandles) ht hn rfl ?_
  intro t' p k _ _ hp _ h
  rw [← h]
  by_cases hm : m = t'.nodes.next
  · subst hm
    rw [Tree.node_newChild_new hp, liveHandles_of_not_contains fun hc =>
      Nat.lt_irrefl _ (Tree.lt_next_of_contains hc)]
    rfl
  · rw [Tree.node_newChild_old hm]
    split_ifs <;> rfl

lemma Booked.getOrCreate (hb : s.Booked dealt) (hs : s.Sound) (hn : n < s.tree.nodes.next)
    (path : List String) :
    ({ s with tree := (s.tree.getOrCreate n path).2 } : Session).Booked dealt := by
  have hl := (leads_getOrCreate hs hn path).1
  have hlive := liveHandles_getOrCreate hs.tree.toWellShaped hn path
  exact hb.withLists hs hl rfl rfl fun m _ => hlive m

/-- The lists after one of them changed. -/
lemma liveHandles_modifyNode (s : Session) (n : NodeId) (f : List HandleId → List HandleId)
    (hm : s.tree.contains m) :
    ((s.modifyNode n fun a => { a with liveHandles := f a.liveHandles }).node m).liveHandles =
      if n = m then f (s.node m).liveHandles else (s.node m).liveHandles := by
  show ((s.tree.modify n _).node m).liveHandles = _
  rw [Tree.node_modify]
  by_cases h : n = m
  · rw [if_pos ⟨h, hm⟩, if_pos h]
    rfl
  · rw [if_neg fun h' => h h'.1, if_neg h]
    rfl

/-- A new handle goes on the list of its node. -/
lemma Booked.enlist (hb : s.Booked dealt) (n : NodeId) : (s.enlist n).Booked dealt := by
  have hget : ∀ i, (s.enlist n).handles.get? i =
      if i = s.handles.next then some n else s.handles.get? i := Store.get?_push s.handles n
  have hnext : (s.enlist n).handles.next = s.handles.next + 1 := Store.next_push _ _
  have hcontains : ∀ m, (s.enlist n).tree.contains m = s.tree.contains m := fun m =>
    Tree.contains_modify s.tree n m _
  have hnode : ∀ m, s.tree.contains m → ((s.enlist n).node m).liveHandles =
      if n = m then s.handles.next :: (s.node m).liveHandles else (s.node m).liveHandles :=
    fun m hm =>
      liveHandles_modifyNode { s with handles := s.handles.push n } n (List.cons s.handles.next) hm
  constructor
  case listed =>
    intro m hm i
    rw [hcontains] at hm
    rw [hget, hnode m hm]
    by_cases hi : i = s.handles.next
    · subst hi
      have hfresh : s.handles.next ∉ (s.node m).liveHandles := fun h =>
        Nat.lt_irrefl _ (hb.lt_next hm h)
      have hqueue : (⟨m, s.handles.next⟩ : Notice) ∉ s.notices := fun h =>
        Nat.lt_irrefl _ (hb.of_notice h).1
      show _ ↔ _ ∨ (⟨m, s.handles.next⟩ : Notice) ∈ s.notices
      by_cases h : n = m <;> simp [h, hfresh, hqueue]
    · rw [if_neg hi]
      refine Iff.trans ?_ (hb.listed hm i)
      by_cases h : n = m <;> simp [h, hi]
  case nodup =>
    intro m hm
    rw [hcontains] at hm
    rw [hnode m hm]
    split_ifs
    · exact List.nodup_cons.2 ⟨fun h => Nat.lt_irrefl _ (hb.lt_next hm h), hb.nodup hm⟩
    · exact hb.nodup hm
  case once => exact hb.once
  case ended =>
    intro i
    refine (hb.ended i).trans ?_
    rw [hnext, Store.contains, Store.contains, hget]
    by_cases hi : i = s.handles.next
    · simp [hi]
    · rw [if_neg hi]
      refine and_congr_left' ⟨Nat.lt_succ_of_lt, fun h => ?_⟩
      exact Nat.lt_of_le_of_ne (Nat.le_of_lt_succ h) hi
  case total =>
    have hcount : (s.enlist n).handles.count = s.handles.count + 1 := Store.count_push _ _
    have htotal := hb.total
    show (s.enlist n).handles.next = (s.enlist n).handles.count + s.notices.length + _
    omega
  case made =>
    intro a ha
    show a.node < (s.tree.modify n _).nodes.next
    rw [Tree.next_modify]
    exact hb.made ha

/-! ### Dealing with ends -/

/-- The oldest notice goes, and so does its handle from the list. -/
lemma Booked.untrack (hb : s.Booked dealt) (ha : s.notices = a :: rest) :
    (({ s with notices := rest } : Session).untrack a).Booked (dealt ++ [a]) := by
  have hcontains : ∀ m, (({ s with notices := rest } : Session).untrack a).tree.contains m =
      s.tree.contains m := fun m => Tree.contains_modify s.tree a.node m _
  have hnode : ∀ m, s.tree.contains m →
      ((({ s with notices := rest } : Session).untrack a).node m).liveHandles =
        if a.node = m then (s.node m).liveHandles.erase a.handle else (s.node m).liveHandles :=
    fun m hm => liveHandles_modifyNode { s with notices := rest } a.node (List.erase · a.handle) hm
  have hlog : dealt ++ [a] ++ rest = dealt ++ s.notices := by rw [ha, List.append_assoc]; rfl
  have hself : a ∈ s.notices := ha ▸ List.mem_cons_self
  have honce : a.handle ∉ rest.map Notice.handle := by
    have h := hb.once
    rw [ha, List.map_append, List.nodup_append, List.map_cons, List.nodup_cons] at h
    exact h.2.1.1
  constructor
  case listed =>
    intro m hm i
    rw [hcontains] at hm
    rw [hnode m hm]
    show _ ↔ s.handles.get? i = some m ∨ (⟨m, i⟩ : Notice) ∈ rest
    have hlist := hb.listed hm i
    rw [ha, List.mem_cons] at hlist
    by_cases hi : a = ⟨m, i⟩
    · subst hi
      have hget : s.handles.get? i ≠ some m := fun h =>
        (hb.of_notice hself).2 (by rw [Store.contains, h]; rfl)
      have hrest : (⟨m, i⟩ : Notice) ∉ rest := fun h => honce (List.mem_map.2 ⟨_, h, rfl⟩)
      simp [hget, hrest, (hb.nodup hm).mem_erase_iff]
    · have hlist' : i ∈ (s.node m).liveHandles ↔ s.handles.get? i = some m ∨ ⟨m, i⟩ ∈ rest := by
        rw [hlist, or_iff_right (Ne.symm hi)]
      split_ifs with h
      · have hne : i ≠ a.handle := by
          rintro rfl
          exact hi (by rw [← h])
        rw [(hb.nodup hm).mem_erase_iff, hlist']
        exact and_iff_right hne
      · exact hlist'
  case nodup =>
    intro m hm
    rw [hcontains] at hm
    rw [hnode m hm]
    split_ifs
    · exact (hb.nodup hm).erase _
    · exact hb.nodup hm
  case once =>
    show ((dealt ++ [a] ++ rest).map Notice.handle).Nodup
    rw [hlog]
    exact hb.once
  case ended =>
    show ∀ i, i ∈ (dealt ++ [a] ++ rest).map Notice.handle ↔ _
    rw [hlog]
    exact hb.ended
  case total =>
    have htotal := hb.total
    rw [ha, List.length_cons] at htotal
    show s.handles.next = s.handles.count + rest.length + (dealt ++ [a]).length
    rw [List.length_append, List.length_singleton]
    omega
  case made =>
    intro b hb'
    show b.node < (s.tree.modify a.node _).nodes.next
    rw [Tree.next_modify]
    exact hb.made (ha ▸ List.mem_cons_of_mem a hb')

lemma Booked.strikeOff (hb : s.Booked dealt) (ha : s.notices = a :: rest) :
    (({ s with notices := rest } : Session).strikeOff a).Booked (dealt ++ [a]) :=
  (hb.untrack ha).of_eq rfl rfl rfl

/-- What is dealt with on the way from one session to another: the notices that waited come first,
and each is counted unless the metrics start anew. -/
structure Deals (L : Licence) (s s' : Session) (more : List Notice) : Prop where
  order : s.notices <+: more ++ s'.notices
  counted : L.recount ∨
    s'.metrics.handlesReclaimed = s.metrics.handlesReclaimed + more.length

lemma Deals.refl (s : Session) : s.Deals L s [] := ⟨List.prefix_rfl, Or.inr rfl⟩

lemma Deals.trans {s'' : Session} {more' : List Notice} (h : s.Deals L s' more)
    (h' : s'.Deals L s'' more') : s.Deals L s'' (more ++ more') where
  order := by
    rw [List.append_assoc]
    exact h.order.trans ((List.prefix_append_right_inj more).2 h'.order)
  counted := by
    rw [List.length_append]
    have hc := h.counted
    have hc' := h'.counted
    by_cases hL : L.recount
    · exact Or.inl hL
    · rw [or_iff_right hL] at hc hc' ⊢
      omega

/-- Where nothing is dealt with. -/
lemma Deals.of_eq (hn : s'.notices = s.notices)
    (hm : s'.metrics.handlesReclaimed = s.metrics.handlesReclaimed) : s.Deals L s' [] :=
  ⟨hn ▸ List.prefix_rfl, Or.inr hm⟩

lemma Ends.deals (h : s.Ends s') : s.Deals L s' [] := ⟨h.notices, Or.inr h.metrics⟩

/-- A deed that deals with no end leaves the books as they are, and dealing with one adds its
notice. -/
theorem Deed.booked (h : s.Deed L s') (hs : s.Sound) (hb : s.Booked dealt) :
    ∃ more, s'.Booked (dealt ++ more) ∧ s.Deals L s' more := by
  have hl := h.leads hs
  have hnone : s'.Booked dealt → s.Deals L s' [] →
      ∃ more, s'.Booked (dealt ++ more) ∧ s.Deals L s' more := fun hb hd =>
    ⟨[], (List.append_nil dealt).symm ▸ hb, hd⟩
  cases h with
  | beside h =>
    refine hnone (hb.of_eq h.tree h.handles h.notices) ⟨?_, h.reclaimed⟩
    exact h.notices ▸ List.prefix_rfl
  | @configure n f hf _ =>
    exact hnone (hb.withLists hs hl rfl rfl fun m _ => liveHandles_configure s.tree n m hf)
      (.of_eq rfl rfl)
  | @setLevel n l? _ =>
    exact hnone (hb.withLists hs hl rfl rfl fun m _ => liveHandles_setLevel hs.tree n m l?)
      (.of_eq rfl rfl)
  | grow name _ hn => exact hnone (hb.getOrCreate hs hn _) (.of_eq rfl rfl)
  | grant name hn => exact hnone ((hb.getOrCreate hs hn _).enlist _) (.of_eq rfl rfl)
  | destroy hr =>
    have he : s.End _ := .destroy hr
    exact hnone (he.booked hs hb) he.ends.deals
  | @process a rest ha =>
    have hends := ends_process { s with notices := rest } a
    have hbooked := hends.booked ((leads_strikeOff s a rest).sound hs) (hb.strikeOff ha)
    refine ⟨[a], hbooked, ?_, Or.inr hends.metrics⟩
    have hwaited : s.notices = [a] ++ rest := ha
    rw [hwaited]
    exact (List.prefix_append_right_inj [a]).2 hends.notices
  | @reset n _ _ =>
    have hl := leads_reset s n
    have hreset : ({ s with tree := s.tree.reset n } : Session).Booked dealt :=
      hb.withLists hs hl rfl rfl fun m _ => liveHandles_reset hs.tree.toWellShaped n m
    have hends := ends_settle { s with tree := s.tree.reset n }
    exact hnone (hends.booked (hl.sound hs) hreset) ⟨hends.notices, Or.inr hends.metrics⟩
  | takeDown _ =>
    refine hnone (hb.withLists hs hl rfl rfl fun m _ => ?_) (.of_eq rfl rfl)
    show ((s.tree.takeDown Tree.root).node m).liveHandles = (s.tree.node m).liveHandles
    rcases Tree.takeDown_node_cases s.tree Tree.root m with h | h
    · rw [h]
    · rw [h]

theorem Course.booked (h : s.Course L s') (hs : s.Sound) (hb : s.Booked dealt) :
    ∃ more, s'.Booked (dealt ++ more) ∧ s.Deals L s' more := by
  induction h with
  | refl => exact ⟨[], (List.append_nil dealt).symm ▸ hb, .refl s⟩
  | tail h h' ih =>
    obtain ⟨more, hb', hd⟩ := ih
    obtain ⟨more', hb'', hd'⟩ := h'.booked ((Course.leads h hs).sound hs) hb'
    exact ⟨more ++ more', List.append_assoc dealt more more' ▸ hb'', hd.trans hd'⟩

/-! ### Handles that are alive -/

lemma booked_new (strong : Bool) (baseline : Level) (levels : List Level)
    (filters : List (String × NodeFilter)) : (new strong baseline levels filters).Booked [] := by
  have hget : ∀ i, (new strong baseline levels filters).handles.get? i = none := fun _ => rfl
  have hlive : ∀ n, ((new strong baseline levels filters).node n).liveHandles = [] := fun n =>
    Tree.field_new Node.liveHandles baseline.severity strong n rfl
  constructor
  case listed =>
    intro n hn i
    rw [hlive, hget]
    simp [new]
  case nodup =>
    intro n hn
    rw [hlive]
    exact List.nodup_nil
  case once => exact List.nodup_nil
  case ended =>
    exact fun i => ⟨fun h => absurd h List.not_mem_nil, fun h => absurd h.1 (Nat.not_lt_zero i)⟩
  case total => rfl
  case made => exact fun h => absurd h List.not_mem_nil

/-- A handle for a node is alive: it is there, and something has it. -/
def Alive (s : Session) (n : NodeId) (i : HandleId) : Prop :=
  s.handles.get? i = some n ∧ .handle i ∈ s.refs

/-- The books are exact, along with the notices that were dealt with so far. -/
structure Exact (s : Session) (dealt : List Notice) : Prop where
  /-- A node lists the handles that are alive and those whose notice waits, none of them twice. -/
  listed : ∀ n, s.tree.contains n → (s.node n).liveHandles.Nodup ∧ ∀ i,
    i ∈ (s.node n).liveHandles ↔ s.Alive n i ∨ ⟨n, i⟩ ∈ s.notices
  /-- No handle is noticed twice. -/
  once : ((dealt ++ s.notices).map Notice.handle).Nodup
  /-- A handle that was made is noticed if it is no longer alive, and not before. -/
  ended : ∀ i, i ∈ (dealt ++ s.notices).map Notice.handle ↔
    i < s.handles.next ∧ ∀ n, ¬ s.Alive n i
  /-- The handles there are alive. -/
  alive : ∀ n i, s.handles.get? i = some n → s.Alive n i
  /-- Handles are alive, noticed, or dealt with. -/
  total : s.handles.next = s.handles.count + s.notices.length + dealt.length

lemma Settled.alive_iff (hs : s.Settled) : s.Alive n i ↔ s.handles.get? i = some n := by
  refine ⟨And.left, fun h => ⟨h, hs (.handle i) ?_⟩⟩
  show (s.handles.get? i).isSome
  rw [h]
  rfl

lemma Booked.exact (hb : s.Booked dealt) (hs : s.Settled) : s.Exact dealt where
  listed n hn := ⟨hb.nodup hn, fun i => by rw [hs.alive_iff, hb.listed hn]⟩
  once := hb.once
  ended i := by
    rw [hb.ended, Store.contains, Bool.not_eq_true, Option.isSome_eq_false_iff,
      Option.isNone_iff_eq_none, Option.eq_none_iff_forall_ne_some]
    simp only [hs.alive_iff, ne_eq]
  alive n i := hs.alive_iff.2
  total := hb.total

/-- Once all notices are dealt with, a node lists handles if and only if one is alive. -/
lemma Booked.hasLiveHandles_iff (hb : s.Booked dealt) (hs : s.Settled) (hn : s.tree.contains n)
    (hnil : s.notices = []) : (s.node n).hasLiveHandles ↔ ∃ i, s.Alive n i := by
  have hlist : ∀ i, i ∈ (s.node n).liveHandles ↔ s.Alive n i := fun i => by
    rw [hb.listed hn, hs.alive_iff, hnil, or_iff_left List.not_mem_nil]
  simp only [Node.hasLiveHandles, Bool.not_eq_true', List.isEmpty_eq_false_iff_exists_mem, hlist]

/-- The books are exact after any steps, and the notices that wait are the next to be dealt with.
The metrics count what was dealt with, unless they start anew. After a pass over the ends, a node
lists handles if and only if one for it is alive. -/
theorem exact_steps [Pattern.Engine] (depth : Nat) (strong : Bool) (baseline : Level)
    (levels : List Level) (filters : List (String × NodeFilter)) (before after : List Step) :
    let s := ((new strong baseline levels filters).steps (Calls.within depth) before).2
    let s' := (s.steps (Calls.within depth) after).2
    (∃ dealt more, s.Exact dealt ∧ s'.Exact (dealt ++ more) ∧
      s.notices <+: more ++ s'.notices ∧
      (.resetMetrics ∉ before ++ after →
        s'.metrics.handlesReclaimed = (dealt ++ more).length ∧
        s'.handles.next = s'.handles.count + s'.notices.length + s'.metrics.handlesReclaimed)) ∧
    ∀ n, s'.reclaim.2.tree.contains n →
      ((s'.reclaim.2.node n).hasLiveHandles ↔ ∃ i, s'.reclaim.2.Alive n i) := by
  intro s s'
  -- metrics may start anew only if a step says so
  let L : Licence := { Licence.all with recount := .resetMetrics ∈ before ++ after }
  have hcalls : Run.CallsMove L (Calls.within depth) :=
    Run.callsMove (fun _ _ _ => trivial) depth
  have hadmits : ∀ steps : List Step, ∀ step ∈ steps, L.Admits step.actions :=
    fun _ _ _ => L.admits_of_callbacks trivial _
  have hpermits : ∀ s steps, steps ⊆ before ++ after → Permits L (Calls.within depth) s steps :=
    fun s steps h => permits_of_mem trivial (fun _ _ => trivial) trivial (fun hr => h hr) s
  have hs := sound_new strong baseline levels filters
  have hc := conduct_steps hcalls (hs.ready trivial) (hadmits _)
    (hpermits _ before (List.subset_append_left _ _))
  have hs' : s.Sound := hc.sound hs
  have hc' := conduct_steps hcalls (hs'.ready trivial) (hadmits _)
    (hpermits s after (List.subset_append_right _ _))
  obtain ⟨dealt, hb, hd⟩ := hc.course.booked hs (booked_new strong baseline levels filters)
  obtain ⟨more, hb', hd'⟩ := hc'.course.booked hs' hb
  obtain ⟨hg, hset⟩ := orderly_steps depth strong baseline levels filters before
  have hset' : s'.Settled := hc'.settled hg hset
  refine ⟨⟨dealt, more, hb.exact hset, hb'.exact hset', hd'.order, fun hr => ?_⟩, fun n hn => ?_⟩
  · have hcount := (hd.trans hd').counted.resolve_left hr
    rw [show (new strong baseline levels filters).metrics.handlesReclaimed = 0 from rfl,
      Nat.zero_add] at hcount
    exact ⟨hcount, hcount ▸ hb'.total⟩
  · obtain ⟨last, hb'', -⟩ := (course_reclaim (L := L) s').booked (hc'.sound hs') hb'
    exact hb''.hasLiveHandles_iff hset'.reclaim hn (notices_reclaim s')

end Logging.Session
