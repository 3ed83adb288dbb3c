import Mathlib.Data.List.Forall2
import Logging.Proofs.Session.LiveNames
import Logging.Proofs.Session.Quiet
import Logging.Proofs.Session.Things
import Logging.Session.Describe

/-!
# Sessions that show the same

Two sessions are alike if their trees are paired, if their handles are for paired nodes, and if all
that a client or a running call can get hold of is the same. They may differ in the numbers of
nodes, in what nobody can get hold of, and in how many nodes were pruned.
-/

namespace Logging

/-- Two clients that hold the same, but for arrays of sinks, which know whose they are. -/
structure Client.Alike (c d : Client) : Prop where
  handles : c.handles = d.handles
  nodes : c.nodes = d.nodes
  sinks : c.sinks = d.sinks
  filters : c.filters = d.filters
  keys : c.keys = d.keys
  keyCount : c.keyCount = d.keyCount
  walks : c.walks = d.walks
  levels : c.levels = d.levels

/-- The counters, but for that of pruned nodes. -/
def Metrics.withoutPruned (m : Metrics) : Metrics := { m with nodesPruned := 0 }

lemma Metrics.withoutPruned_bump {m m' : Metrics} (h : m.withoutPruned = m'.withoutPruned)
    (c : Counter) : (m.bump c).withoutPruned = (m'.bump c).withoutPruned := by
  have hget : ∀ k, m.withoutPruned.get k = m'.withoutPruned.get k := fun k => by rw [h]
  have h1 : m.published = m'.published := hget .published
  have h2 : m.belowLevel = m'.belowLevel := hget .belowLevel
  have h3 : m.filtered = m'.filtered := hget .filtered
  have h4 : m.sinkFailures = m'.sinkFailures := hget .sinkFailures
  have h5 : m.handlesReclaimed = m'.handlesReclaimed := hget .handlesReclaimed
  cases c <;> simp only [Metrics.bump, withoutPruned, h1, h2, h3, h4, h5]

namespace Session

/-- A sink that can be got hold of: it is in use, the client holds it, or a paired node has it. -/
def Shown (s : Session) (P : Pairing) (k : SinkId) : Prop :=
  .sink k ∈ s.inUse ∨ (∃ id, s.client.sinks.get? id = some k) ∨
    ∃ n m, P.pair n m ∧ k ∈ (s.node n).sinks.sinks

/-- The end of one handle, noticed in two sessions. Where its nodes are not paired, they may have
new partners, but those never had the handle. -/
structure SameEnd (P : Pairing) (s : Session) (a b : Notice) : Prop where
  handle : a.handle = b.handle
  made : a.handle < s.handles.next
  paired : P.pair a.node b.node ∨ ∀ n m, P.pair n m → n = a.node ∨ m = b.node →
    a.handle ∉ (s.node n).liveHandles

/-- The sessions show the same. -/
structure Alike (P : Pairing) (s u : Session) : Prop where
  tree : P.Fits s.tree u.tree
  handles : ∀ h, Option.Rel P.pair (s.handles.get? h) (u.handles.get? h)
  nextHandle : s.handles.next = u.handles.next
  nextSink : s.sinks.next = u.sinks.next
  sinks : ∀ k, s.Shown P k → s.sinks.get? k = u.sinks.get? k
  notices : List.Forall₂ (SameEnd P s) s.notices u.notices
  metrics : s.metrics.withoutPruned = u.metrics.withoutPruned
  scope : s.scope? = u.scope?
  client : s.client.Alike u.client
  inUse : s.inUse = u.inUse
  journal : s.journal = u.journal

variable {P P' : Pairing} {s u : Session} {t t' : Tree} {n m c p : NodeId} {k : String}

/-- An end stays the same while the handles on lists stay, and further ones are made. -/
lemma SameEnd.mono {s' : Session} {a b : Notice} (h : SameEnd P s a b) (ht : s'.tree = s.tree)
    (hn : s.handles.next ≤ s'.handles.next) : SameEnd P s' a b := by
  have hnode : ∀ n, s'.node n = s.node n := by
    intro n
    simp [Session.node, ht]
  refine ⟨h.handle, Nat.lt_of_lt_of_le h.made hn, ?_⟩
  simp only [hnode]
  exact h.paired

lemma Alike.ends (h : Alike P s u) {s' : Session} (ht : s'.tree = s.tree)
    (hn : s.handles.next ≤ s'.handles.next) :
    List.Forall₂ (SameEnd P s') s.notices u.notices :=
  h.notices.imp fun _ _ hab => hab.mono ht hn

/-! ### What is the same in both sessions -/

lemma Alike.handle_cases (h : Alike P s u) (i : HandleId) :
    (s.handles.get? i = none ∧ u.handles.get? i = none) ∨
      ∃ n m, s.handles.get? i = some n ∧ u.handles.get? i = some m ∧ P.pair n m := by
  have hr := h.handles i
  generalize s.handles.get? i = x, u.handles.get? i = y at hr
  cases hr with
  | none => exact Or.inl ⟨rfl, rfl⟩
  | some hp => exact Or.inr ⟨_, _, rfl, rfl, hp⟩

lemma Alike.contains_handle (h : Alike P s u) (i : HandleId) :
    s.handles.contains i = u.handles.contains i := by
  rcases h.handle_cases i with ⟨hs, hu⟩ | ⟨n, m, hs, hu, -⟩ <;> simp [Store.contains, hs, hu]

/-- The nodes of one handle are paired. -/
lemma Alike.pair_nodeOf (h : Alike P s u) (i : HandleId) : P.pair (s.nodeOf i) (u.nodeOf i) := by
  rw [nodeOf, nodeOf]
  rcases h.handle_cases i with ⟨hs, hu⟩ | ⟨n, m, hs, hu, hp⟩
  · rw [hs, hu]
    exact h.tree.root
  · rw [hs, hu]
    exact hp

/-- A paired node has the same sinks on both sides. -/
lemma Alike.sink_eq (h : Alike P s u) {k : SinkId} (hk : s.Shown P k) : s.sink k = u.sink k := by
  simp [sink, h.sinks k hk]

lemma Alike.sinkNames_eq (h : Alike P s u) (hn : P.pair n m) :
    s.sinkNames (s.node n).sinks = u.sinkNames (u.node m).sinks := by
  have hs : (s.node n).sinks.sinks = (u.node m).sinks.sinks := (h.tree.alike hn).sinks
  rw [sinkNames, sinkNames, ← hs]
  apply List.map_congr_left
  intro k hk
  simp [h.sink_eq (Or.inr (Or.inr ⟨n, m, hn, hk⟩))]

lemma Alike.sameNames (h : Alike P s u) : s.SameNames u :=
  ⟨h.scope, h.client.handles, h.client.sinks, h.client.filters, h.client.levels⟩

lemma mem_refs_of_shown {k : SinkId} (h : Alike P s u) (hk : s.Shown P k) : .sink k ∈ s.refs := by
  rcases hk with hk | ⟨id, hk⟩ | ⟨n, m, hp, hk⟩
  · exact mem_refs_of_inUse hk
  · exact mem_refs_of_clientSink hk
  · exact mem_refs_of_nodeSinks (h.tree.left hp) hk

lemma mem_refs_right_of_shown {k : SinkId} (h : Alike P s u) (hk : s.Shown P k) :
    .sink k ∈ u.refs := by
  rcases hk with hk | ⟨id, hk⟩ | ⟨n, m, hp, hk⟩
  · rw [h.inUse] at hk
    exact mem_refs_of_inUse hk
  · rw [h.client.sinks] at hk
    exact mem_refs_of_clientSink hk
  · have hs : (s.node n).sinks.sinks = (u.node m).sinks.sinks := (h.tree.alike hp).sinks
    rw [hs] at hk
    exact mem_refs_of_nodeSinks (h.tree.right hp) hk

/-! ### Changes of the trees -/

/-- A pairing that is right after a change of the trees, and gives up no node of a handle. The nodes
that it pairs anew are plain. -/
structure Follows (P P' : Pairing) (s u : Session) (t : Tree) : Prop where
  held : ∀ {i n m}, s.handles.get? i = some n → u.handles.get? i = some m → P.pair n m →
    P'.pair n m
  cases : ∀ {n m}, P'.pair n m →
    (P.pair n m ∧
      (∀ i ∈ (t.node n).liveHandles, i ∈ (s.node n).liveHandles ∨ s.handles.next ≤ i) ∧
      ∀ k ∈ (t.node n).sinks.sinks, s.Shown P k) ∨
    (t.node n).Plain
  lost : ∀ {n m}, P.pair n m → P'.pair n m ∨ ∀ {x y}, P'.pair x y → x ≠ n ∧ y ≠ m

theorem Alike.withTrees (h : Alike P s u) (hf : P'.Fits t t') (hg : Follows P P' s u t) :
    Alike P' { s with tree := t } { u with tree := t' } where
  tree := hf
  handles i := by
    show Option.Rel P'.pair (s.handles.get? i) (u.handles.get? i)
    rcases h.handle_cases i with ⟨hs, hu⟩ | ⟨n, m, hs, hu, hp⟩
    · rw [hs, hu]
      exact .none
    · rw [hs, hu]
      exact .some (hg.held hs hu hp)
  nextHandle := h.nextHandle
  nextSink := h.nextSink
  sinks k hk := by
    refine h.sinks k ?_
    rcases hk with hk | hk | ⟨n, m, hp, hk⟩
    · exact Or.inl hk
    · exact Or.inr (Or.inl hk)
    · rcases hg.cases hp with ⟨-, -, hs⟩ | hpl
      · exact hs k hk
      · have hnil : (t.node n).sinks.sinks = [] := hpl.sinks
        have hk' : k ∈ (t.node n).sinks.sinks := hk
        rw [hnil] at hk'
        cases hk'
  notices := by
    refine h.notices.imp fun a b hab => ⟨hab.handle, hab.made, ?_⟩
    have hstale : (∀ n m, P.pair n m → n = a.node ∨ m = b.node →
        a.handle ∉ (s.node n).liveHandles) → ∀ n m, P'.pair n m → n = a.node ∨ m = b.node →
        a.handle ∉ (t.node n).liveHandles := by
      intro hs n m hp hor hmem
      rcases hg.cases hp with ⟨hp, hl, -⟩ | hpl
      · rcases hl _ hmem with hmem | hle
        · exact hs n m hp hor hmem
        · exact absurd hab.made (Nat.not_lt.2 hle)
      · rw [hpl.live] at hmem
        cases hmem
    rcases hab.paired with hp | hs
    · rcases hg.lost hp with hp | hlost
      · exact Or.inl hp
      · apply Or.inr
        intro n m hp' hor
        have hne := hlost hp'
        exact absurd hor (not_or.2 hne)
    · exact Or.inr (hstale hs)
  metrics := h.metrics
  scope := h.scope
  client := h.client
  inUse := h.inUse
  journal := h.journal

/-- The tree of the first session alone changes. -/
lemma Alike.withTree_left (h : Alike P s u) (hf : P'.Fits t u.tree) (hg : Follows P P' s u t) :
    Alike P' { s with tree := t } u := h.withTrees hf hg

lemma Alike.withTree_right (h : Alike P s u) (hf : P'.Fits s.tree t')
    (hg : Follows P P' s u s.tree) : Alike P' s { u with tree := t' } := h.withTrees hf hg

/-- The same pairs, whose nodes get no new handles and only sinks that are shown already. -/
lemma follows_same (hc : ∀ {n m}, P.pair n m →
    (∀ i ∈ (t.node n).liveHandles, i ∈ (s.node n).liveHandles ∨ s.handles.next ≤ i) ∧
      ∀ k ∈ (t.node n).sinks.sinks, s.Shown P k) : Follows P P s u t :=
  ⟨fun _ _ hp => hp, fun hp => Or.inl ⟨hp, hc hp⟩, Or.inl⟩

/-- Paired nodes that keep their handles and sinks. -/
lemma follows_of_eq (hc : ∀ {n m}, P.pair n m →
    (t.node n).liveHandles = (s.node n).liveHandles ∧
      (t.node n).sinks.sinks = (s.node n).sinks.sinks) : Follows P P s u t := by
  refine follows_same fun {n m} hp => ?_
  obtain ⟨hl, hs⟩ := hc hp
  rw [hl, hs]
  exact ⟨fun i hi => Or.inl hi, fun k hk => Or.inr (Or.inr ⟨n, m, hp, hk⟩)⟩

lemma follows_grows (hg : P.Grows P' s.tree t) : Follows P P' s u t where
  held _ _ hp := hg.kept hp
  cases {n m} hp := by
    rcases hg.cases hp with ⟨hp, ha⟩ | hpl
    · refine Or.inl ⟨hp, fun i hi => Or.inl ?_, fun k hk => Or.inr (Or.inr ⟨n, m, hp, ?_⟩)⟩
      · rwa [ha.live] at hi
      · rwa [ha.sinks] at hk
    · exact Or.inr hpl
  lost hp := Or.inl (hg.kept hp)

/-- Some pairs fewer, while the nodes of the others stay as they are. -/
lemma follows_fewer (h : Alike P s u) (hsub : ∀ {n m}, P'.pair n m → P.pair n m)
    (hheld : ∀ {i n m}, s.handles.get? i = some n → u.handles.get? i = some m → P.pair n m →
      P'.pair n m)
    (ha : ∀ {n m}, P'.pair n m → (t.node n).Alike (s.node n)) : Follows P P' s u t where
  held := hheld
  cases {n m} hp := by
    refine Or.inl ⟨hsub hp, fun i hi => Or.inl ?_, fun k hk => ?_⟩
    · rwa [(ha hp).live] at hi
    · rw [(ha hp).sinks] at hk
      exact Or.inr (Or.inr ⟨n, m, hsub hp, hk⟩)
  lost {n m} hp := by
    by_cases hp' : P'.pair n m
    · exact Or.inl hp'
    · refine Or.inr fun {x y} hxy => ⟨?_, ?_⟩
      · rintro rfl
        obtain rfl := h.tree.functional (hsub hxy) hp
        exact hp' hxy
      · rintro rfl
        obtain rfl := h.tree.injective (hsub hxy) hp
        exact hp' hxy

/-! ### Tame sessions -/

/-- The session has its namespace, and nothing that was given to it calls back. -/
structure Tame (s : Session) : Prop extends FiltersQuiet s where
  sound : s.Sound
  present : s.scope?.isSome
  node : ∀ n f, (s.node n).filter? = some f → f.Quiet
  sink : ∀ k b, s.sinks.get? k = some b → b.allActions.all Action.isQuiet
  hook : ∀ ns, s.scope? = some ns → ∀ h ∈ ns.hooks, h.actions.all Action.isQuiet

lemma Tame.quiet_sink (hs : s.Tame) (k : SinkId) : (s.sink k).allActions.all Action.isQuiet := by
  rw [Session.sink]
  cases hk : s.sinks.get? k with
  | none => rfl
  | some b => exact hs.sink k b hk

/-- In a tame session handles are kept by the client and by running calls only. -/
lemma Tame.handle_mem_refs_iff (hs : s.Tame) {i : HandleId} :
    .handle i ∈ s.refs ↔ .handle i ∈ s.inUse ∨ ∃ id, s.client.handles.get? id = some i := by
  constructor
  · intro hi
    rcases mem_refs_iff.1 hi with hi | hi | ⟨ns, hns, hi⟩ | ⟨j, n, -, hi⟩ | ⟨j, b, hb, hi⟩ |
      ⟨n, hn, hi⟩
    · exact Or.inl hi
    · -- neither nodes nor sinks nor quiet filters keep handles
      right
      simp only [refsOfClient, refsOfSinks, List.mem_append, List.mem_map, List.mem_flatMap,
        Dict.mem_values_iff] at hi
      rcases hi with ((((⟨j, hj, hji⟩ | ⟨_, _, hji⟩) | ⟨_, _, hji⟩) | ⟨_, _, _, _, hji⟩) |
        ⟨f, ⟨id, hf⟩, hi⟩) | ⟨_, _, _, _, hji⟩
      · cases hji
        exact hj
      · cases hji
      · cases hji
      · cases hji
      · rw [refsOfFilter_of_quiet (hs.held id f hf)] at hi
        cases hi
      · cases hji
    · simp only [refsOfNamespace, List.mem_append, List.mem_cons, List.mem_flatMap,
        Dict.mem_values_iff] at hi
      rcases hi with (hi | ⟨f, ⟨id, hf⟩, hi⟩) | hi
      · cases hi
      · rw [refsOfFilter_of_quiet (hs.named ns id f hns hf)] at hi
        cases hi
      · rw [refsOfHooks_of_quiet (hs.hook ns hns)] at hi
        cases hi
    · cases hi
    · rw [refsOfActions_of_quiet (hs.sink j b hb)] at hi
      cases hi
    · rcases mem_refsOfNode_iff.1 hi with ⟨_, _, hi⟩ | ⟨_, _, _, hi⟩ | ⟨_, _, hi⟩ | ⟨f, hf, hi⟩
      · cases hi
      · cases hi
      · cases hi
      · rw [refsOfFilter_of_quiet (hs.node n f hf)] at hi
        cases hi
  · rintro (hi | ⟨id, hi⟩)
    · exact mem_refs_of_inUse hi
    · exact mem_refs_of_clientHandle hi

/-- A tame session stays tame when its tree changes, if no node gets a filter that is not quiet. -/
lemma Tame.withTree (hs : s.Tame) (hl : s.Leads { s with tree := t })
    (hf : ∀ n f, (t.node n).filter? = some f → f.Quiet) :
    ({ s with tree := t } : Session).Tame where
  toFiltersQuiet := ⟨hs.named, hs.held⟩
  sound := hl.sound hs.sound
  present := hs.present
  node := hf
  sink := hs.sink
  hook := hs.hook

/-- The filters of nodes are quiet, and are left alone by most changes. -/
lemma Tame.each (hs : s.Tame) : s.tree.Each fun a => ∀ f ∈ a.filter?, f.Quiet := hs.node

lemma Tame.destroy (hs : s.Tame) {r : Ref} (hr : r ∉ s.refs) : (s.destroy r).Tame := by
  have hsound := (leads_destroy hr).sound hs.sound
  cases r with
  | node n =>
    have hquiet := hs.each.drop (Node.ofContents_filter _) n
    exact hs.withTree (leads_destroy hr) hquiet
  | handle i => exact { hs with sound := hsound }
  | sink k =>
    refine { hs with sound := hsound, sink := fun j b hb => ?_ }
    have hb' : (s.sinks.erase k).get? j = some b := hb
    rw [Store.get?_erase] at hb'
    split_ifs at hb'
    exact hs.sink j b hb'

/-- A node that nothing refers to is not linked to. -/
lemma unlinked_of_not_mem_refs (hn : .node n ∉ s.refs) : Pairing.Unlinked s.tree n where
  child := child?_ne_of_not_mem_refs hn
  parent _ ha hp := hn (mem_refs_of_parent ha hp)

/-- The namespace refers to the root. -/
lemma Tame.ne_root (hs : s.Tame) (hn : .node n ∉ s.refs) : Tree.root ≠ n := by
  rintro rfl
  obtain ⟨ns, hns⟩ := Option.isSome_iff_exists.1 hs.present
  refine hn (mem_refs_of_scope hns ?_)
  simp [refsOfNamespace]

end Session

end Logging
