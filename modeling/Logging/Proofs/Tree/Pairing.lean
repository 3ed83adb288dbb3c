import Logging.Proofs.Tree.Changes

/-!
# Pairings of trees

Two trees can show the same although one of them has let go of nodes that the other one kept. Then
the nodes of the one can be paired with nodes of the other: paired nodes are alike, have paired
parents, and have paired children wherever the first one has a child at all. A child that only the
second one has is spare: nothing was set at it or below it. So a node that is made in the first
tree finds a partner there.
-/

namespace Logging

/-- Two nodes that show the same, apart from their parents and children. -/
structure Node.Alike (a b : Node) : Prop where
  name : a.name = b.name
  fullName : a.fullName = b.fullName
  sinks : a.sinks.sinks = b.sinks.sinks
  filter : a.filter? = b.filter?
  parentFilters : a.useParentFilters = b.useParentFilters
  parentSinks : a.useParentSinks = b.useParentSinks
  level : a.level? = b.level?
  effective : a.effective = b.effective
  attachments : a.attachments = b.attachments
  live : a.liveHandles = b.liveHandles

/-- Nothing was set on the node, and no handle is for it. -/
structure Node.Plain (a : Node) : Prop where
  sinks : a.sinks.sinks = []
  filter : a.filter? = none
  parentFilters : a.useParentFilters = false
  parentSinks : a.useParentSinks = true
  level : a.level? = none
  attachments : a.attachments = {}
  live : a.liveHandles = []

lemma Node.Alike.refl (a : Node) : a.Alike a := ⟨rfl, rfl, rfl, rfl, rfl, rfl, rfl, rfl, rfl, rfl⟩

lemma Node.Alike.trans {a b c : Node} (h : a.Alike b) (h' : b.Alike c) : a.Alike c :=
  ⟨h.name.trans h'.name, h.fullName.trans h'.fullName, h.sinks.trans h'.sinks,
    h.filter.trans h'.filter, h.parentFilters.trans h'.parentFilters,
    h.parentSinks.trans h'.parentSinks, h.level.trans h'.level, h.effective.trans h'.effective,
    h.attachments.trans h'.attachments, h.live.trans h'.live⟩

lemma Node.Plain.of_alike {a b : Node} (hb : b.Plain) (h : a.Alike b) : a.Plain :=
  ⟨h.sinks.trans hb.sinks, h.filter.trans hb.filter, h.parentFilters.trans hb.parentFilters,
    h.parentSinks.trans hb.parentSinks, h.level.trans hb.level,
    h.attachments.trans hb.attachments, h.live.trans hb.live⟩

lemma Node.Alike.blank {a b : Node} (h : a.Alike b) (v : Int) : (a.blank v).Alike (b.blank v) :=
  ⟨h.name, h.fullName, rfl, rfl, rfl, rfl, rfl, rfl, rfl, h.live⟩

lemma Node.Plain.blank {a : Node} (h : a.Plain) (v : Int) : (a.blank v).Plain :=
  ⟨rfl, rfl, rfl, rfl, rfl, rfl, h.live⟩

lemma Node.plain_default : (default : Node).Plain := ⟨rfl, rfl, rfl, rfl, rfl, rfl, rfl⟩

/-- A node that is like new is plain, and so is any node like it. -/
lemma Node.Alike.plain_of_isDefault {a b : Node} (h : a.Alike b) (ha : a.isDefault) : b.Plain := by
  simp only [isDefault, Bool.and_eq_true, Option.isNone_iff_eq_none, Bool.not_eq_true',
    SinkArray.isEmpty, List.isEmpty_iff, hasLiveHandles, Bool.not_eq_false'] at ha
  obtain ⟨⟨⟨⟨⟨⟨⟨hl, hf⟩, hs⟩, hpf⟩, hps⟩, -⟩, ha⟩, hh⟩ := ha
  have hatt : a.attachments = {} := by
    simp only [Attachments.isEmpty, Bool.and_eq_true, Option.isNone_iff_eq_none] at ha
    rcases hat : a.attachments with ⟨first?, second?⟩
    rw [hat] at ha
    obtain ⟨rfl, rfl⟩ := ha
    rfl
  constructor
  · rw [← h.sinks, hs]
  · rw [← h.filter, hf]
  · rw [← h.parentFilters, hpf]
  · rw [← h.parentSinks, hps]
  · rw [← h.level, hl]
  · rw [← h.attachments, hatt]
  · rw [← h.live, hh]

/-- Which nodes of two trees belong together, and which of the second have no partner yet. -/
structure Pairing where
  pair : NodeId → NodeId → Prop
  spare : NodeId → Prop

/-- The pairing is right for two trees. -/
structure Pairing.Fits (P : Pairing) (t u : Tree) : Prop where
  root : P.pair Tree.root Tree.root
  left : ∀ {n m}, P.pair n m → t.contains n
  right : ∀ {n m}, P.pair n m → u.contains m
  functional : ∀ {n m m'}, P.pair n m → P.pair n m' → m = m'
  injective : ∀ {n n' m}, P.pair n m → P.pair n' m → n = n'
  alike : ∀ {n m}, P.pair n m → (t.node n).Alike (u.node m)
  parent : ∀ {n m}, P.pair n m → Option.Rel P.pair (t.node n).parent? (u.node m).parent?
  entry : ∀ {n m k c}, P.pair n m → t.child? n k = some c → ∃ d, u.child? m k = some d ∧ P.pair c d
  extra : ∀ {n m k d}, P.pair n m → u.child? m k = some d → t.child? n k = none → P.spare d
  unpaired : ∀ {n d}, P.spare d → ¬ P.pair n d
  plain : ∀ {d}, P.spare d → (u.node d).Plain
  below : ∀ {d k e}, P.spare d → u.child? d k = some e → P.spare e
  baseline : t.baseline = u.baseline

namespace Pairing

variable {P : Pairing} {t u t' u' : Tree} {n m c d p q : NodeId} {k : String}

/-! ### Walks in paired trees -/

lemma Fits.eq_iff (h : P.Fits t u) (hn : P.pair n m) (hc : P.pair c d) : c = n ↔ d = m := by
  constructor
  · rintro rfl
    exact h.functional hc hn
  · rintro rfl
    exact h.injective hc hn

lemma Fits.inherited_eq (h : P.Fits t u) (hn : P.pair n m) : t.inherited n = u.inherited m := by
  have hp := h.parent hn
  rw [Tree.inherited, Tree.inherited]
  generalize (t.node n).parent? = a, (u.node m).parent? = b at hp
  cases hp with
  | some hp => exact (h.alike hp).effective
  | none => exact h.baseline

lemma Fits.childName_eq (h : P.Fits t u) (hn : P.pair n m) (k : String) :
    (t.node n).childName k = (u.node m).childName k := by
  have hr : (t.node n).isRoot = (u.node m).isRoot := by
    have hp := h.parent hn
    rw [Node.isRoot, Node.isRoot]
    generalize (t.node n).parent? = a, (u.node m).parent? = b at hp
    cases hp <;> rfl
  rw [Node.childName, Node.childName, hr, (h.alike hn).fullName]

/-- A way down in the first tree is there in the second. -/
lemma Fits.down {ok ok' : NodeId → Prop} (h : P.Fits t u)
    (hok : ∀ c d, P.pair c d → ok c → ok' d) (hn : P.pair n m) (hc : t.Down ok n c) :
    ∃ d, P.pair c d ∧ u.Down ok' m d := by
  induction hc with
  | child hk hc =>
    obtain ⟨d, hd, hp⟩ := h.entry hn hk
    exact ⟨d, hp, .child hd (hok _ _ hp hc)⟩
  | step _ hk hc ih =>
    obtain ⟨q, hq, hdown⟩ := ih
    obtain ⟨d, hd, hp⟩ := h.entry hq hk
    exact ⟨d, hp, .step hdown hd (hok _ _ hp hc)⟩

/-- A way down in the second tree is there in the first, or it ends at a spare node. -/
lemma Fits.down_of_right {ok ok' : NodeId → Prop} (h : P.Fits t u)
    (hok : ∀ c d, P.pair c d → ok' d → ok c) (hn : P.pair n m) (hd : u.Down ok' m d) :
    (∃ c, P.pair c d ∧ t.Down ok n c) ∨ P.spare d := by
  -- a child of a paired node is paired if the first tree has it, and else spare
  have hchild : ∀ {p q k d}, P.pair p q → u.child? q k = some d →
      (∃ c, t.child? p k = some c ∧ P.pair c d) ∨ P.spare d := fun {p q k d} hp hk => by
    cases hc : t.child? p k with
    | none => exact Or.inr (h.extra hp hk hc)
    | some c =>
      obtain ⟨d', hd', hc'⟩ := h.entry hp hc
      obtain rfl : d' = d := Option.some.inj (hd'.symm.trans hk)
      exact Or.inl ⟨c, rfl, hc'⟩
  induction hd with
  | child hk hd =>
    rcases hchild hn hk with ⟨c, hc, hp⟩ | hs
    · exact Or.inl ⟨c, hp, .child hc (hok _ _ hp hd)⟩
    · exact Or.inr hs
  | step _ hk hd ih =>
    rcases ih with ⟨p, hp, hdown⟩ | hs
    · rcases hchild hp hk with ⟨c, hc, hp⟩ | hs
      · exact Or.inl ⟨c, hp, .step hdown hc (hok _ _ hp hd)⟩
      · exact Or.inr hs
    · exact Or.inr (h.below hs hk)

/-- Paired nodes are below paired nodes on both sides or on neither. -/
lemma Fits.down_iff {ok ok' : NodeId → Prop} (h : P.Fits t u)
    (hok : ∀ c d, P.pair c d → (ok c ↔ ok' d)) (hn : P.pair n m) (hc : P.pair c d) :
    t.Down ok n c ↔ u.Down ok' m d := by
  constructor
  · intro hdown
    obtain ⟨d', hd', hdown⟩ := h.down (fun c d hp => (hok c d hp).1) hn hdown
    rwa [h.functional hc hd']
  · intro hdown
    rcases h.down_of_right (fun c d hp => (hok c d hp).2) hn hdown with ⟨c', hc', hdown⟩ | hs
    · rwa [h.injective hc hc']
    · exact absurd hc (h.unpaired hs)

lemma Fits.below_iff (h : P.Fits t u) (hn : P.pair n m) (hc : P.pair c d) :
    t.Below n c ↔ u.Below m d :=
  h.down_iff (fun _ _ _ => Iff.rfl) hn hc

lemma Fits.heir_iff (h : P.Fits t u) (hn : P.pair n m) (hc : P.pair c d) :
    t.Heir n c ↔ u.Heir m d :=
  h.down_iff (fun _ _ hp => by rw [(h.alike hp).level]) hn hc

/-- Walks up to the root meet paired nodes. -/
theorem Fits.lineage (h : P.Fits t u) (ht : t.WellShaped) (hu : u.WellShaped) (hn : P.pair n m) :
    List.Forall₂ P.pair (t.lineage n) (u.lineage m) := by
  induction n using Nat.strongRecOn generalizing m with
  | ind n ih =>
    have hp := h.parent hn
    rw [Tree.lineage.eq_1 t n, Tree.lineage.eq_1 u m]
    revert hp
    rcases hnp : (t.node n).parent? with _ | p <;> rcases hmp : (u.node m).parent? with _ | q
    · intro _
      exact .cons hn .nil
    · intro hp
      cases hp
    · intro hp
      cases hp
    · rintro ⟨hp⟩
      have hpn := ht.parent_older hnp
      have hqm := hu.parent_older hmp
      simp only [hpn, hqm, if_true]
      exact .cons hn (ih p hpn hp)

/-! ### Changes of both trees -/

/-- Trees that keep their shapes and go on to show the same. -/
lemma Fits.of_sameShape (h : P.Fits t u) (ht : t.SameShape t') (hu : u.SameShape u')
    (ha : ∀ {n m}, P.pair n m → (t'.node n).Alike (u'.node m))
    (hs : ∀ {d}, P.spare d → (u'.node d).Plain) (hb : t'.baseline = u'.baseline) :
    P.Fits t' u' where
  root := h.root
  left hp := by
    rw [ht.contains_eq]
    exact h.left hp
  right hp := by
    rw [hu.contains_eq]
    exact h.right hp
  functional := h.functional
  injective := h.injective
  alike := ha
  parent hp := by
    rw [(ht.place _).parent, (hu.place _).parent]
    exact h.parent hp
  entry hp hk := by
    rw [ht.child?] at hk
    rw [hu.child?]
    exact h.entry hp hk
  extra hp hk hn := by
    rw [hu.child?] at hk
    rw [ht.child?] at hn
    exact h.extra hp hk hn
  unpaired := h.unpaired
  plain := hs
  below hd hk := by
    rw [hu.child?] at hk
    exact h.below hd hk
  baseline := hb

/-- To change two paired nodes in the same way. -/
theorem Fits.configure (h : P.Fits t u) (hn : P.pair n m) {f g : Node → Node}
    (hf : ∀ a, (f a).SamePlace a) (hg : ∀ a, (g a).SamePlace a)
    (ha : (f (t.node n)).Alike (g (u.node m))) : P.Fits (t.modify n f) (u.modify m g) := by
  have ht := Tree.sameShape_modify t n hf
  have hu := Tree.sameShape_modify u m hg
  refine h.of_sameShape ht hu (fun {c d} hp => ?_) (fun {d} hd => ?_) h.baseline
  · rw [Tree.node_modify, Tree.node_modify]
    by_cases hc : n = c
    · subst hc
      obtain rfl := h.functional hn hp
      rw [if_pos ⟨rfl, h.left hn⟩, if_pos ⟨rfl, h.right hn⟩]
      exact ha
    · have hd : m ≠ d := fun hd => hc ((h.eq_iff hp hn).2 hd)
      rw [if_neg fun hc' => hc hc'.1, if_neg fun hd' => hd hd'.1]
      exact h.alike hp
  · rw [Tree.node_modify, if_neg]
    · exact h.plain hd
    · rintro ⟨rfl, -⟩
      exact h.unpaired hd hn

/-- A change of the first tree that does not show. -/
lemma Fits.configure_left (h : P.Fits t u) {f : Node → Node} (hf : ∀ a, (f a).SamePlace a)
    (ha : ∀ m, P.pair n m → (f (t.node n)).Alike (u.node m)) : P.Fits (t.modify n f) u := by
  have ht := Tree.sameShape_modify t n hf
  have hu : u.SameShape u := ⟨fun _ => rfl, fun _ => ⟨rfl, rfl, rfl, rfl⟩⟩
  refine h.of_sameShape ht hu (fun {c d} hp => ?_) h.plain h.baseline
  rw [Tree.node_modify]
  split_ifs with hc
  · obtain ⟨rfl, -⟩ := hc
    exact ha d hp
  · exact h.alike hp

/-- A change of the second tree that does not show. -/
lemma Fits.configure_right (h : P.Fits t u) {g : Node → Node} (hg : ∀ a, (g a).SamePlace a)
    (ha : ∀ n, P.pair n m → (t.node n).Alike (g (u.node m)))
    (hs : P.spare m → (g (u.node m)).Plain) : P.Fits t (u.modify m g) := by
  have ht : t.SameShape t := ⟨fun _ => rfl, fun _ => ⟨rfl, rfl, rfl, rfl⟩⟩
  have hu := Tree.sameShape_modify u m hg
  refine h.of_sameShape ht hu (fun {c d} hp => ?_) (fun {d} hd => ?_) h.baseline
  · rw [Tree.node_modify]
    split_ifs with hc
    · obtain ⟨rfl, -⟩ := hc
      exact ha c hp
    · exact h.alike hp
  · rw [Tree.node_modify]
    split_ifs with hc
    · obtain ⟨rfl, -⟩ := hc
      exact hs hd
    · exact h.plain hd

theorem Fits.setLevel (h : P.Fits t u) (ht : t.LevelsSound) (hu : u.LevelsSound)
    (hn : P.pair n m) (l? : Option Level) : P.Fits (t.setLevel n l?) (u.setLevel m l?) := by
  have hv : t.settled n l? = u.settled m l? := by
    simp [Tree.settled, h.inherited_eq hn]
  refine h.of_sameShape (Tree.sameShape_setLevel t n l?) (Tree.sameShape_setLevel u m l?)
    (fun {c d} hp => ?_) (fun {d} hd => ?_) ?_
  · by_cases hc : c = n
    · obtain rfl : d = m := (h.eq_iff hn hp).1 hc
      subst hc
      have ha := h.alike hp
      rw [Tree.node_setLevel_self ht (h.left hn), Tree.node_setLevel_self hu (h.right hn), hv]
      exact { ha with level := rfl, effective := rfl }
    · have hd : d ≠ m := fun hd => hc ((h.eq_iff hn hp).2 hd)
      by_cases hh : t.Heir n c
      · rw [Tree.node_setLevel_heir ht hh,
          Tree.node_setLevel_heir hu ((h.heir_iff hn hp).1 hh), hv]
        exact { h.alike hp with effective := rfl }
      · rw [Tree.node_setLevel_other hc hh,
          Tree.node_setLevel_other hd fun hh' => hh ((h.heir_iff hn hp).2 hh')]
        exact h.alike hp
  · have hne : d ≠ m := by
      rintro rfl
      exact h.unpaired hd hn
    by_cases hh : u.Heir m d
    · rw [Tree.node_setLevel_heir hu hh]
      exact { h.plain hd with }
    · rw [Tree.node_setLevel_other hne hh]
      exact h.plain hd
  · rw [Tree.baseline_setLevel, Tree.baseline_setLevel]
    exact h.baseline

/-- A reset reaches paired nodes alike, and takes the spare ones below along. -/
theorem Fits.reset (h : P.Fits t u) (ht : t.WellShaped) (hu : u.WellShaped) (hn : P.pair n m) :
    P.Fits (t.reset n) (u.reset m) where
  root := h.root
  left hp := by
    rw [Tree.contains_reset]
    exact h.left hp
  right hp := by
    rw [Tree.contains_reset]
    exact h.right hp
  functional := h.functional
  injective := h.injective
  alike {c d} hp := by
    by_cases hc : c = n
    · obtain rfl : d = m := (h.eq_iff hn hp).1 hc
      subst hc
      rw [Tree.node_reset_self ht (h.left hn), Tree.node_reset_self hu (h.right hn),
        h.inherited_eq hn]
      exact (h.alike hn).blank _
    · have hd : d ≠ m := fun hd => hc ((h.eq_iff hn hp).2 hd)
      by_cases hb : t.Below n c
      · rw [Tree.node_reset_below ht hb, Tree.node_reset_below hu ((h.below_iff hn hp).1 hb),
          h.baseline]
        exact (h.alike hp).blank _
      · rw [Tree.node_reset_other ht hc hb,
          Tree.node_reset_other hu hd fun hb' => hb ((h.below_iff hn hp).2 hb')]
        exact h.alike hp
  parent {c d} hp := by
    have hpt : ((t.reset n).node c).parent? = (t.node c).parent? := by
      rcases Tree.reset_node_cases ht n c with ⟨v, hc⟩ | hc <;> rw [hc]
      rfl
    have hpu : ((u.reset m).node d).parent? = (u.node d).parent? := by
      rcases Tree.reset_node_cases hu m d with ⟨v, hd⟩ | hd <;> rw [hd]
      rfl
    rw [hpt, hpu]
    exact h.parent hp
  entry {p q k c} hp hk := by
    obtain ⟨hk, hpn, hb⟩ := (Tree.child?_reset ht).1 hk
    obtain ⟨d, hd, hc⟩ := h.entry hp hk
    refine ⟨d, (Tree.child?_reset hu).2 ⟨hd, ?_, ?_⟩, hc⟩
    · exact fun hq => hpn ((h.eq_iff hn hp).2 hq)
    · exact fun hb' => hb ((h.below_iff hn hp).2 hb')
  extra {p q k d} hp hk hnone := by
    obtain ⟨hk, hqm, hb⟩ := (Tree.child?_reset hu).1 hk
    refine h.extra hp hk (Option.eq_none_iff_forall_ne_some.2 fun c hc => ?_)
    have hc' : (t.reset n).child? p k = some c := by
      refine (Tree.child?_reset ht).2 ⟨hc, ?_, ?_⟩
      · exact fun hpn => hqm ((h.eq_iff hn hp).1 hpn)
      · exact fun hb' => hb ((h.below_iff hn hp).1 hb')
    rw [hnone] at hc'
    cases hc'
  unpaired := h.unpaired
  plain {d} hd := by
    rcases Tree.reset_node_cases hu m d with ⟨v, hd'⟩ | hd' <;> rw [hd']
    · exact (h.plain hd).blank v
    · exact h.plain hd
  below hd hk := h.below hd ((Tree.child?_reset hu).1 hk).1
  baseline := by
    rw [Tree.baseline_reset, Tree.baseline_reset]
    exact h.baseline

/-! ### New nodes -/

/-- The pairing with one more pair. -/
def join (P : Pairing) (c d : NodeId) : Pairing where
  pair a b := P.pair a b ∨ a = c ∧ b = d
  spare e := P.spare e ∧ e ≠ d

/-- The pairing with one more spare node. -/
def withSpare (P : Pairing) (d : NodeId) : Pairing where
  pair := P.pair
  spare e := P.spare e ∨ e = d

/-- A child that only the second tree gets is spare. -/
lemma Fits.newChild_right (h : P.Fits t u) (hn : P.pair n m) (hk : u.child? m k = none) :
    (P.withSpare u.nodes.next).Fits t (u.newChild m k) := by
  have hm : m < u.nodes.next := Tree.lt_next_of_contains (h.right hn)
  have hfresh : ¬ u.contains u.nodes.next := fun hc =>
    Nat.lt_irrefl _ (Tree.lt_next_of_contains hc)
  have old : ∀ {a b}, P.pair a b → b ≠ u.nodes.next := fun {a b} hp hb => hfresh (hb ▸ h.right hp)
  have spare_ne : ∀ {e}, P.spare e → e ≠ m := by
    rintro e he rfl
    exact h.unpaired he hn
  constructor
  case root => exact h.root
  case left => exact h.left
  case right => exact fun hp => Tree.contains_newChild.2 (Or.inr (h.right hp))
  case functional => exact h.functional
  case injective => exact h.injective
  case alike =>
    intro a b hp
    rw [Tree.node_newChild_old (old hp)]
    split_ifs
    · exact { h.alike hp with }
    · exact h.alike hp
  case parent =>
    intro a b hp
    rw [(Tree.kept_newChild (old hp)).parent]
    exact h.parent hp
  case entry =>
    intro a b j c hp hc
    obtain ⟨d, hd, hcd⟩ := h.entry hp hc
    refine ⟨d, ?_, hcd⟩
    rw [Tree.child?_newChild hm, if_neg]
    · exact hd
    · rintro ⟨rfl, -, rfl⟩
      rw [hk] at hd
      cases hd
  case extra =>
    intro a b j d hp hd hnone
    rcases Tree.child?_newChild_cases hm hd with ⟨-, -, rfl⟩ | hd
    · exact Or.inr rfl
    · exact Or.inl (h.extra hp hd hnone)
  case unpaired =>
    rintro a e (he | rfl) hp
    · exact h.unpaired he hp
    · exact old hp rfl
  case plain =>
    intro e he
    by_cases hen : e = u.nodes.next
    · subst hen
      rw [Tree.node_newChild_new hm]
      exact ⟨rfl, rfl, rfl, rfl, rfl, rfl, rfl⟩
    · have he := he.resolve_right hen
      rw [Tree.node_newChild_old hen, if_neg fun hc => spare_ne he hc.1.symm]
      exact h.plain he
  case below =>
    intro e j e' he hk'
    rcases Tree.child?_newChild_cases hm hk' with ⟨rfl, -, -⟩ | hk'
    · rcases he with he | he
      · exact absurd rfl (spare_ne he)
      · exact absurd he (Nat.ne_of_lt hm)
    · rcases he with he | rfl
      · exact Or.inl (h.below he hk')
      · exact absurd (Tree.contains_of_child hk') hfresh
  case baseline => exact h.baseline

/-- A child that the first tree gets pairs up with the one that the second has for the segment. -/
lemma Fits.newChild_left (h : P.Fits t u) (hu : u.LevelsSound) (hn : P.pair n m)
    (hk : t.child? n k = none) (hd : u.child? m k = some d) :
    (P.join t.nodes.next d).Fits (t.newChild n k) u := by
  have hnn : n < t.nodes.next := Tree.lt_next_of_contains (h.left hn)
  have hfresh : ¬ t.contains t.nodes.next := fun hc =>
    Nat.lt_irrefl _ (Tree.lt_next_of_contains hc)
  have old : ∀ {a b}, P.pair a b → a ≠ t.nodes.next := fun {a b} hp ha => hfresh (ha ▸ h.left hp)
  have hspare : P.spare d := h.extra hn hd hk
  constructor
  case root => exact Or.inl h.root
  case left =>
    rintro a b (hp | ⟨rfl, rfl⟩)
    · exact Tree.contains_newChild.2 (Or.inr (h.left hp))
    · exact Tree.contains_newChild.2 (Or.inl rfl)
  case right =>
    rintro a b (hp | ⟨rfl, rfl⟩)
    · exact h.right hp
    · exact hu.present hd
  case functional =>
    rintro a b b' (hp | ⟨rfl, rfl⟩) (hp' | ⟨ha, rfl⟩)
    · exact h.functional hp hp'
    · exact absurd ha (old hp)
    · exact absurd rfl (old hp')
    · rfl
  case injective =>
    rintro a a' b (hp | ⟨rfl, rfl⟩) (hp' | ⟨rfl, hb⟩)
    · exact h.injective hp hp'
    · exact absurd (hb ▸ hp) (h.unpaired hspare)
    · exact absurd hp' (h.unpaired hspare)
    · rfl
  case alike =>
    rintro a b (hp | ⟨rfl, rfl⟩)
    · rw [Tree.node_newChild_old (old hp)]
      split_ifs
      · exact { h.alike hp with }
      · exact h.alike hp
    · have hplain := h.plain hspare
      have heff : t.effective n = u.effective b := by
        rw [hu.inherit hd hplain.level]
        exact (h.alike hn).effective
      rw [Tree.node_newChild_new hnn]
      constructor
      · exact (hu.name_eq hd).symm
      · exact (h.childName_eq hn k).trans (hu.fullName_eq hd).symm
      · exact hplain.sinks.symm
      · exact hplain.filter.symm
      · exact hplain.parentFilters.symm
      · exact hplain.parentSinks.symm
      · exact hplain.level.symm
      · exact heff
      · exact hplain.attachments.symm
      · exact hplain.live.symm
  case parent =>
    rintro a b (hp | ⟨rfl, rfl⟩)
    · rw [(Tree.kept_newChild (old hp)).parent]
      have hpar := h.parent hp
      generalize (t.node a).parent? = x, (u.node b).parent? = y at hpar
      cases hpar with
      | some hpar => exact .some (Or.inl hpar)
      | none => exact .none
    · rw [Tree.node_newChild_new hnn, hu.parent_eq hd]
      exact .some (Or.inl hn)
  case entry =>
    intro a b j c hp hc
    rcases Tree.child?_newChild_cases hnn hc with ⟨rfl, rfl, rfl⟩ | hc
    · rcases hp with hp | ⟨ha, -⟩
      · obtain rfl := h.functional hn hp
        exact ⟨d, hd, Or.inr ⟨rfl, rfl⟩⟩
      · exact absurd ha (Nat.ne_of_lt hnn)
    · rcases hp with hp | ⟨rfl, -⟩
      · obtain ⟨d', hd', hcd⟩ := h.entry hp hc
        exact ⟨d', hd', Or.inl hcd⟩
      · exact absurd (Tree.contains_of_child hc) hfresh
  case extra =>
    rintro a b j e (hp | ⟨rfl, rfl⟩) he hnone
    · have hne : ¬ (n = a ∧ t.contains a ∧ k = j) := by
        intro hc
        rw [Tree.child?_newChild hnn, if_pos hc] at hnone
        cases hnone
      rw [Tree.child?_newChild hnn, if_neg hne] at hnone
      refine ⟨h.extra hp he hnone, ?_⟩
      rintro rfl
      obtain ⟨rfl, rfl⟩ := hu.entry_unique he hd
      exact hne ⟨h.injective hn hp, h.left hp, rfl⟩
    · exact ⟨h.below hspare he, hu.ne_parent he⟩
  case unpaired =>
    rintro a e ⟨he, hne⟩ (hp | ⟨-, rfl⟩)
    · exact h.unpaired he hp
    · exact hne rfl
  case plain => exact fun he => h.plain he.1
  case below =>
    rintro e j e' ⟨he, -⟩ hk'
    refine ⟨h.below he hk', ?_⟩
    rintro rfl
    obtain ⟨rfl, -⟩ := hu.entry_unique hk' hd
    exact h.unpaired he hn
  case baseline => exact h.baseline

/-- A pairing that keeps all pairs while the first tree gets new, plain nodes. -/
structure Grows (P P' : Pairing) (t t' : Tree) : Prop where
  kept : ∀ {a b}, P.pair a b → P'.pair a b
  cases : ∀ {a b}, P'.pair a b →
    P.pair a b ∧ (t'.node a).Alike (t.node a) ∨ (t'.node a).Plain

lemma Grows.refl (P : Pairing) (t : Tree) : P.Grows P t t :=
  ⟨fun hp => hp, fun hp => Or.inl ⟨hp, .refl _⟩⟩

lemma Grows.trans {P' P'' : Pairing} {t'' : Tree} (h : P.Grows P' t t')
    (h' : P'.Grows P'' t' t'') : P.Grows P'' t t'' := by
  refine ⟨fun hp => h'.kept (h.kept hp), fun hp => ?_⟩
  rcases h'.cases hp with ⟨hp, ha⟩ | hpl
  · rcases h.cases hp with ⟨hp, ha'⟩ | hpl
    · exact Or.inl ⟨hp, ha.trans ha'⟩
    · exact Or.inr (hpl.of_alike ha)
  · exact Or.inr hpl

lemma Fits.grows_join (h : P.Fits t u) (hn : P.pair n m) (k : String) (d : NodeId) :
    P.Grows (P.join t.nodes.next d) t (t.newChild n k) := by
  have hnn : n < t.nodes.next := Tree.lt_next_of_contains (h.left hn)
  refine ⟨Or.inl, ?_⟩
  rintro a b (hp | ⟨rfl, rfl⟩)
  · have ha : a ≠ t.nodes.next := Nat.ne_of_lt (Tree.lt_next_of_contains (h.left hp))
    refine Or.inl ⟨hp, ?_⟩
    rw [Tree.node_newChild_old ha]
    split_ifs
    · exact { Node.Alike.refl (t.node a) with }
    · exact .refl _
  · rw [Tree.node_newChild_new hnn]
    exact Or.inr ⟨rfl, rfl, rfl, rfl, rfl, rfl, rfl⟩

/-- The nodes at the end of a path pair up, whichever of the nodes on it were there before. -/
theorem Fits.getOrCreate (h : P.Fits t u) (hu : u.LevelsSound) (hn : P.pair n m)
    (path : List String) :
    ∃ P' : Pairing, P'.Fits (t.getOrCreate n path).2 (u.getOrCreate m path).2 ∧
      P.Grows P' t (t.getOrCreate n path).2 ∧
      P'.pair (t.getOrCreate n path).1 (u.getOrCreate m path).1 := by
  induction path generalizing P t u n m with
  | nil => exact ⟨P, h, .refl P t, hn⟩
  | cons k path ih =>
    rw [Tree.getOrCreate, Tree.getOrCreate]
    cases hk : t.child? n k with
    | some c =>
      obtain ⟨d, hd, hc⟩ := h.entry hn hk
      rw [hd]
      exact ih h hu hc
    | none =>
      cases hd : u.child? m k with
      | some d =>
        have h' := h.newChild_left hu hn hk hd
        obtain ⟨P', hf, hg, hp⟩ := ih h' hu (Or.inr ⟨rfl, rfl⟩)
        exact ⟨P', hf, (h.grows_join hn k d).trans hg, hp⟩
      | none =>
        have hm : m < u.nodes.next := Tree.lt_next_of_contains (h.right hn)
        have hd' : (u.newChild m k).child? m k = some u.nodes.next := by
          rw [Tree.child?_newChild hm, if_pos ⟨rfl, h.right hn, rfl⟩]
        have h' := (h.newChild_right hn hd).newChild_left (hu.newChild hm k) hn hk hd'
        obtain ⟨P', hf, hg, hp⟩ := ih h' (hu.newChild hm k) (Or.inr ⟨rfl, rfl⟩)
        have hj := (h.newChild_right hn hd).grows_join hn k u.nodes.next
        have hj' : P.Grows ((P.withSpare u.nodes.next).join t.nodes.next u.nodes.next) t
            (t.newChild n k) := ⟨hj.kept, hj.cases⟩
        exact ⟨P', hf, hj'.trans hg, hp⟩

/-! ### Nodes that go -/

/-- The pairing without a node of the first tree. -/
def withoutLeft (P : Pairing) (c : NodeId) : Pairing where
  pair a b := P.pair a b ∧ a ≠ c
  spare := P.spare

/-- The pairing without a node of the second tree. -/
def withoutRight (P : Pairing) (d : NodeId) : Pairing where
  pair a b := P.pair a b ∧ b ≠ d
  spare := P.spare

/-- The pairing without a node of the first tree, whose partner is spare from then on. -/
def release (P : Pairing) (c : NodeId) : Pairing where
  pair a b := P.pair a b ∧ a ≠ c
  spare e := P.spare e ∨ P.pair c e

/-- Nothing in a tree leads to the node. -/
structure Unlinked (t : Tree) (n : NodeId) : Prop where
  child : ∀ p k, t.child? p k ≠ some n
  parent : ∀ a, t.contains a → (t.node a).parent? ≠ some n

lemma rel_parent_left {c : NodeId} {x y : Option NodeId} (h : Option.Rel P.pair x y)
    (hx : x ≠ some c) : Option.Rel (P.withoutLeft c).pair x y := by
  cases h with
  | some h => exact .some ⟨h, fun hc => hx (hc ▸ rfl)⟩
  | none => exact .none

lemma rel_parent_right {d : NodeId} {x y : Option NodeId} (h : Option.Rel P.pair x y)
    (hy : y ≠ some d) : Option.Rel (P.withoutRight d).pair x y := by
  cases h with
  | some h => exact .some ⟨h, fun hd => hy (hd ▸ rfl)⟩
  | none => exact .none

/-- The first tree may let go of a node to which nothing leads. -/
theorem Fits.drop_left (h : P.Fits t u) (hc : Unlinked t c) (hr : Tree.root ≠ c) :
    (P.withoutLeft c).Fits (t.drop c) u := by
  constructor
  case root => exact ⟨h.root, hr⟩
  case left => exact fun hp => Tree.contains_drop.2 ⟨hp.2.symm, h.left hp.1⟩
  case right => exact fun hp => h.right hp.1
  case functional => exact fun hp hp' => h.functional hp.1 hp'.1
  case injective => exact fun hp hp' => h.injective hp.1 hp'.1
  case alike =>
    intro a b hp
    rw [Tree.node_drop_of_ne hp.2.symm]
    exact h.alike hp.1
  case parent =>
    intro a b hp
    rw [Tree.node_drop_of_ne hp.2.symm]
    exact rel_parent_left (h.parent hp.1) (hc.parent a (h.left hp.1))
  case entry =>
    intro a b j c' hp hk
    rw [Tree.child?_drop, if_neg hp.2.symm] at hk
    obtain ⟨d, hd, hcd⟩ := h.entry hp.1 hk
    refine ⟨d, hd, hcd, ?_⟩
    rintro rfl
    exact hc.child a j hk
  case extra =>
    intro a b j d hp hd hnone
    rw [Tree.child?_drop, if_neg hp.2.symm] at hnone
    exact h.extra hp.1 hd hnone
  case unpaired => exact fun he hp => h.unpaired he hp.1
  case plain => exact h.plain
  case below => exact h.below
  case baseline => exact h.baseline

/-- The second tree may let go of a node to which nothing leads. -/
theorem Fits.drop_right (h : P.Fits t u) (hd : Unlinked u d) (hr : Tree.root ≠ d) :
    (P.withoutRight d).Fits t (u.drop d) := by
  constructor
  case root => exact ⟨h.root, hr⟩
  case left => exact fun hp => h.left hp.1
  case right => exact fun hp => Tree.contains_drop.2 ⟨hp.2.symm, h.right hp.1⟩
  case functional => exact fun hp hp' => h.functional hp.1 hp'.1
  case injective => exact fun hp hp' => h.injective hp.1 hp'.1
  case alike =>
    intro a b hp
    rw [Tree.node_drop_of_ne hp.2.symm]
    exact h.alike hp.1
  case parent =>
    intro a b hp
    rw [Tree.node_drop_of_ne hp.2.symm]
    exact rel_parent_right (h.parent hp.1) (hd.parent b (h.right hp.1))
  case entry =>
    intro a b j c hp hk
    obtain ⟨d', hd', hcd⟩ := h.entry hp.1 hk
    have hne : d' ≠ d := by
      rintro rfl
      exact hd.child b j hd'
    refine ⟨d', ?_, hcd, hne⟩
    rw [Tree.child?_drop, if_neg hp.2.symm]
    exact hd'
  case extra =>
    intro a b j d' hp hd' hnone
    rw [Tree.child?_drop, if_neg hp.2.symm] at hd'
    exact h.extra hp.1 hd' hnone
  case unpaired => exact fun he hp => h.unpaired he hp.1
  case plain =>
    intro e he
    by_cases hed : d = e
    · have hgone : ¬ (u.drop d).contains e := fun hce => (Tree.contains_drop.1 hce).1 hed
      rw [Tree.node_of_not_contains hgone]
      exact Node.plain_default
    · rw [Tree.node_drop_of_ne hed]
      exact h.plain he
  case below =>
    intro e j e' he hk
    rw [Tree.child?_drop] at hk
    split_ifs at hk
    exact h.below he hk
  case baseline => exact h.baseline

/-- The first tree may remove a child that is like new, where nothing but its entry leads to it.
The partner of the child is as good as new then. -/
theorem Fits.removeChild (h : P.Fits t u) (ht : t.WellShaped) (hk : t.child? p k = some c)
    (hd : (t.node c).isDefault) (hpar : ∀ a, t.contains a → (t.node a).parent? ≠ some c) :
    (P.release c).Fits (t.removeChild p k c) u := by
  have hchild : ∀ {q j}, q ≠ c → (t.removeChild p k c).child? q j =
      if p = q ∧ k = j then none else t.child? q j := fun {q j} hq => by
    rw [Tree.removeChild, Tree.child?_drop, if_neg (Ne.symm hq), Tree.child?_strike]
  have hnode : ∀ {a}, a ≠ c → ((t.removeChild p k c).node a).Alike (t.node a) ∧
      ((t.removeChild p k c).node a).parent? = (t.node a).parent? := fun {a} ha => by
    rw [Tree.removeChild, Tree.node_drop_of_ne (Ne.symm ha), Tree.strike, Tree.node_modify]
    split_ifs
    · exact ⟨{ Node.Alike.refl (t.node a) with }, rfl⟩
    · exact ⟨.refl _, rfl⟩
  constructor
  case root => exact ⟨h.root, (ht.ne_root hk).symm⟩
  case left =>
    intro a b hp
    refine Tree.contains_drop.2 ⟨hp.2.symm, ?_⟩
    rw [Tree.strike, Tree.contains_modify]
    exact h.left hp.1
  case right => exact fun hp => h.right hp.1
  case functional => exact fun hp hp' => h.functional hp.1 hp'.1
  case injective => exact fun hp hp' => h.injective hp.1 hp'.1
  case alike => exact fun hp => (hnode hp.2).1.trans (h.alike hp.1)
  case parent =>
    intro a b hp
    rw [(hnode hp.2).2]
    exact rel_parent_left (h.parent hp.1) (hpar a (h.left hp.1))
  case entry =>
    intro a b j c' hp hc
    rw [hchild hp.2] at hc
    split_ifs at hc with hne
    obtain ⟨d, hd, hcd⟩ := h.entry hp.1 hc
    refine ⟨d, hd, hcd, ?_⟩
    rintro rfl
    exact hne (ht.entry_unique hk hc)
  case extra =>
    intro a b j d hp hd hnone
    rw [hchild hp.2] at hnone
    split_ifs at hnone with he
    · obtain ⟨rfl, rfl⟩ := he
      obtain ⟨d', hd', hcd⟩ := h.entry hp.1 hk
      obtain rfl : d' = d := Option.some.inj (hd'.symm.trans hd)
      exact Or.inr hcd
    · exact Or.inl (h.extra hp.1 hd hnone)
  case unpaired =>
    rintro a e (he | he) hp
    · exact h.unpaired he hp.1
    · exact hp.2 (h.injective hp.1 he)
  case plain =>
    rintro e (he | he)
    · exact h.plain he
    · exact (h.alike he).plain_of_isDefault hd
  case below =>
    rintro e j e' (he | he) hk'
    · exact Or.inl (h.below he hk')
    · exact Or.inl (h.extra he hk' (Node.children_of_isDefault hd j))
  case baseline => exact h.baseline

/-! ### New trees -/

/-- The roots belong together, and nothing else is there. -/
def roots : Pairing where
  pair n m := n = Tree.root ∧ m = Tree.root
  spare _ := False

lemma fits_new (b : Int) (strong strong' : Bool) :
    roots.Fits (Tree.new b strong) (Tree.new b strong') where
  root := ⟨rfl, rfl⟩
  left := by
    rintro n m ⟨rfl, -⟩
    rfl
  right := by
    rintro n m ⟨-, rfl⟩
    rfl
  functional hp hp' := hp.2.trans hp'.2.symm
  injective hp hp' := hp.1.trans hp'.1.symm
  alike := by
    rintro n m ⟨rfl, rfl⟩
    rw [Tree.node_new, Tree.node_new]
    exact .refl _
  parent := by
    rintro n m ⟨rfl, rfl⟩
    rw [Tree.node_new, Tree.node_new]
    exact .none
  entry _ hk := by
    rw [Tree.child?_new] at hk
    cases hk
  extra _ hk := by
    rw [Tree.child?_new] at hk
    cases hk
  unpaired := False.elim
  plain := False.elim
  below := False.elim
  baseline := rfl

end Pairing

end Logging
