import Mathlib.Tactic.Common
import Logging.Proofs.Expression.Reader
import Logging.Proofs.Session.Courses
import Logging.Proofs.Tree.Contents
import Logging.Session.Build

/-!
# What callbacks may do

Predicates, sinks and hooks are handed to a session along with all that they will ever do. A filter
that is read has but the predicates of filters that it names, and one that is built has those that
are described besides (`Session.exists_of_mem_predicates`). So the session knows at any time what
callbacks may do, and a licence may let them do everything, or everything but to reset nodes and to
close the namespace (`Session.Heeds`).
-/

namespace Logging

/-! ### Predicates of filters -/

namespace Filter

variable {π : Type}

lemma mem_predicatesList_iff {p : π} {fs : List (Filter π)} :
    p ∈ predicatesList fs ↔ ∃ f ∈ fs, p ∈ f.predicates := by
  induction fs with
  | nil => simp [predicatesList]
  | cons f fs ih => simp [predicatesList, ih]

lemma predicates_registeredAs (name : String) (f : Filter π) :
    (f.registeredAs name).predicates = f.predicates := by
  cases f <;> rfl

/-- All that the predicates of a filter do. -/
def actions {η σ : Type} (f : Filter (Predicate η σ)) : List (Action η σ) :=
  f.predicates.flatMap Predicate.actions

end Filter

namespace Expression.Expr

variable {π : Type} [Pattern.Engine] {names : Resolver π}

mutual

/-- The predicates of a filter that an expression stands for are those of filters it names. -/
lemma predicates_of_denote? (e : Expr) {f : Filter π} (hf : e.denote? names = some f) {p : π}
    (hp : p ∈ f.predicates) : ∃ n g, names.filter? n = some g ∧ p ∈ g.predicates := by
  cases e with
  | accept | deny =>
    cases hf
    cases hp
  | not e =>
    obtain ⟨g, hg, rfl⟩ := Option.map_eq_some_iff.1 hf
    exact predicates_of_denote? e hg hp
  | all es | any es =>
    obtain ⟨gs, hg, rfl⟩ := Option.map_eq_some_iff.1 hf
    exact predicates_of_denoteList? es hg hp
  | levels ns | levelChange n | «match» q | substitute q r everywhere =>
    obtain ⟨g, hg, rfl⟩ := Option.map_eq_some_iff.1 hf
    cases hp
  | levelRange min minIn max maxIn =>
    obtain ⟨l, hmin, hf⟩ := Option.bind_eq_some_iff.1 hf
    obtain ⟨l', hmax, hf⟩ := Option.bind_eq_some_iff.1 hf
    cases hf
    cases hp
  | ident n =>
    obtain ⟨g, hg, rfl⟩ := Option.map_eq_some_iff.1 hf
    rw [Filter.predicates_registeredAs] at hp
    exact ⟨n, g, hg, hp⟩

lemma predicates_of_denoteList? (es : List Expr) {fs : List (Filter π)}
    (hf : denoteList? names es = some fs) {p : π} (hp : p ∈ Filter.predicatesList fs) :
    ∃ n g, names.filter? n = some g ∧ p ∈ g.predicates := by
  cases es with
  | nil =>
    cases hf
    cases hp
  | cons e es =>
    obtain ⟨g, hg, hf⟩ := Option.bind_eq_some_iff.1 hf
    obtain ⟨gs, hgs, hf⟩ := Option.bind_eq_some_iff.1 hf
    cases hf
    rcases List.mem_append.1 hp with hp | hp
    · exact predicates_of_denote? e hg hp
    · exact predicates_of_denoteList? es hgs hp

end

end Expression.Expr

/-! ### Actions -/

namespace Action

variable {η σ η' σ' ε : Type}

/-- What is left of an action without its references. -/
def shape : Action η σ → Action Unit Unit
  | note text => .note text
  | log _ l message => .log () l message
  | setLevel _ l? => .setLevel () l?
  | addSink _ _ => .addSink () ()
  | removeSink _ _ => .removeSink () ()
  | reset _ => .reset ()
  | touch name => .touch name
  | reclaim => .reclaim
  | close => .close
  | addHook text => .addHook text
  | abort => .abort

/-- The action neither resets a node nor closes the namespace. -/
def isMild : Action η σ → Bool
  | reset _ | close => false
  | _ => true

lemma isMild_shape (a : Action η σ) : a.shape.isMild = a.isMild := by
  cases a <;> rfl

end Action

namespace Session

lemma exists_ok_of_bind {ε α β : Type} {x : Except ε α} {g : α → Except ε β} {b : β}
    (h : (x >>= g) = .ok b) : ∃ a, x = .ok a ∧ g a = .ok b := by
  cases x with
  | error e => cases h
  | ok a => exact ⟨a, rfl, h⟩

lemma eq_ok_of_held {α : Type} {d : Dict String α} {id : String} {a : α}
    (h : held d id = .ok a) : d.get? id = some a := by
  rw [held] at h
  cases hd : d.get? id with
  | none =>
    rw [hd] at h
    cases h
  | some b =>
    rw [hd] at h
    cases h
    rfl

end Session

open Session

namespace Action

variable {η σ η' σ' ε : Type}

/-- To resolve the references of an action leaves its shape. -/
lemma shape_of_resolve {handle : η → Except ε η'} {sink : σ → Except ε σ'} {a : Action η σ}
    {b : Action η' σ'} (h : a.resolve handle sink = .ok b) : b.shape = a.shape := by
  cases a with
  | note | touch | reclaim | close | addHook | abort =>
    cases h
    rfl
  | log | setLevel | reset =>
    obtain ⟨_, -, h⟩ := exists_ok_of_bind h
    cases h
    rfl
  | addSink | removeSink =>
    obtain ⟨_, -, h⟩ := exists_ok_of_bind h
    obtain ⟨_, -, h⟩ := exists_ok_of_bind h
    cases h
    rfl

end Action

namespace FilterSpec

mutual

/-- The predicates that are described, from left to right. -/
def predicates : FilterSpec → List (Predicate String String)
  | not f => f.predicates
  | all fs => predicatesList fs
  | any fs => predicatesList fs
  | named _ p => [p]
  | _ => []

def predicatesList : List FilterSpec → List (Predicate String String)
  | [] => []
  | f :: fs => f.predicates ++ predicatesList fs

end

/-- All that the predicates which are described do. -/
def actions (spec : FilterSpec) : List (Action String String) :=
  spec.predicates.flatMap Predicate.actions

end FilterSpec

namespace Session

variable {s s' : Session} {f : NodeFilter} {actions : List (Action String String)}
  {bound : List BoundAction} {p : BoundPredicate}

/-! ### Building filters -/

lemma exists_of_mem_bindActions (hb : s.bindActions actions = .ok bound) {b : BoundAction}
    (h : b ∈ bound) : ∃ a ∈ actions, b.shape = a.shape := by
  induction actions generalizing bound with
  | nil =>
    cases hb
    cases h
  | cons a actions ih =>
    rw [bindActions, List.mapM_cons] at hb
    obtain ⟨b', hb', hb⟩ := exists_ok_of_bind hb
    obtain ⟨bs, hbs, hb⟩ := exists_ok_of_bind (x := s.bindActions actions) hb
    cases hb
    rcases List.mem_cons.1 h with rfl | h
    · exact ⟨a, List.mem_cons_self, Action.shape_of_resolve hb'⟩
    · obtain ⟨a', ha', h⟩ := ih hbs h
      exact ⟨a', List.mem_cons_of_mem a ha', h⟩

/-- The filter goes by a name, in the namespace or with the client. -/
inductive NamesFilter (s : Session) (f : NodeFilter) : Prop
  | registered {ns : Namespace} {name : String} (hns : s.scope? = some ns)
      (h : ns.filters.get? name = some f)
  | kept {id : String} (h : s.client.filters.get? id = some f)

/-- Filters are named by the namespace and by the client. -/
lemma NamesFilter.of_eq (h : s'.NamesFilter f) (hn : s'.scope? = s.scope?)
    (hf : s'.client.filters = s.client.filters) : s.NamesFilter f := by
  cases h with
  | registered hns h => exact .registered (hn ▸ hns) h
  | kept h => exact .kept (hf ▸ h)

lemma namesFilter_of_filter? {name : String} (h : s.resolver.filter? name = some f) :
    s.NamesFilter f := by
  obtain ⟨ns, hns, h⟩ := Option.bind_eq_some_iff.1 h
  exact .registered hns h

variable [Pattern.Engine]

mutual

/-- A predicate of a filter that is built is that of a filter with a name, or one that is
described. -/
lemma exists_of_mem_predicates (spec : FilterSpec) {f : NodeFilter}
    (h : s.buildFilter spec = .ok f) {p : BoundPredicate} (hp : p ∈ f.predicates) :
    (∃ g, s.NamesFilter g ∧ p ∈ g.predicates) ∨
      ∃ q ∈ spec.predicates, s.bindActions q.actions = .ok p.actions := by
  cases spec with
  | expression text =>
    rw [buildFilter, parseFilter] at h
    cases hparse : Expression.parse s.resolver text with
    | error e =>
      rw [hparse] at h
      cases h
    | ok g =>
      rw [hparse] at h
      cases h
      obtain ⟨_, -, e, -, hf⟩ := Expression.parse_eq_ok_iff.1 hparse
      obtain ⟨n, g, hg, hp⟩ := Expression.Expr.predicates_of_denote? e hf hp
      exact Or.inl ⟨g, namesFilter_of_filter? hg, hp⟩
  | accept | deny | levels | levelRange | levelChange =>
    cases h
    cases hp
  | not spec =>
    obtain ⟨g, hg, h⟩ := exists_ok_of_bind h
    cases h
    exact exists_of_mem_predicates spec hg hp
  | all specs | any specs =>
    obtain ⟨gs, hgs, h⟩ := exists_ok_of_bind h
    cases h
    exact exists_of_mem_predicatesList specs hgs hp
  | «match» q | substitute q =>
    obtain ⟨_, -, h⟩ := exists_ok_of_bind h
    cases h
    cases hp
  | registered name =>
    rw [buildFilter] at h
    cases hf : s.scope?.bind fun ns => ns.filters.get? name with
    | none =>
      rw [hf] at h
      cases h
    | some g =>
      rw [hf] at h
      obtain rfl : g = f := Except.ok.inj h
      exact Or.inl ⟨g, namesFilter_of_filter? hf, hp⟩
  | kept id => exact Or.inl ⟨f, .kept (eq_ok_of_held h), hp⟩
  | named name q =>
    obtain ⟨q', hq, h⟩ := exists_ok_of_bind h
    obtain ⟨actions, ha, hq⟩ := exists_ok_of_bind hq
    cases hq
    cases h
    obtain rfl := List.mem_singleton.1 hp
    exact Or.inr ⟨q, List.mem_cons_self, ha⟩

lemma exists_of_mem_predicatesList (specs : List FilterSpec) {fs : List NodeFilter}
    (h : s.buildFilters specs = .ok fs) {p : BoundPredicate}
    (hp : p ∈ Filter.predicatesList fs) : (∃ g, s.NamesFilter g ∧ p ∈ g.predicates) ∨
      ∃ q ∈ FilterSpec.predicatesList specs, s.bindActions q.actions = .ok p.actions := by
  cases specs with
  | nil =>
    cases h
    cases hp
  | cons spec specs =>
    obtain ⟨g, hg, h⟩ := exists_ok_of_bind h
    obtain ⟨gs, hgs, h⟩ := exists_ok_of_bind h
    cases h
    rcases List.mem_append.1 hp with hp | hp
    · refine (exists_of_mem_predicates spec hg hp).imp_right ?_
      exact fun ⟨q, hq, h⟩ => ⟨q, List.mem_append_left _ hq, h⟩
    · refine (exists_of_mem_predicatesList specs hgs hp).imp_right ?_
      exact fun ⟨q, hq, h⟩ => ⟨q, List.mem_append_right _ hq, h⟩

end

omit [Pattern.Engine]

/-! ### What a licence lets callbacks do -/

variable {L M : Licence} {η σ : Type}

/-- The actions are within a licence for callbacks. -/
def Licence.Admits (L : Licence) (actions : List (Action η σ)) : Prop :=
  ∀ a ∈ actions, a.isMild ∨ L.callbacks

lemma Licence.admits_of_callbacks (h : L.callbacks) (actions : List (Action η σ)) :
    L.Admits actions := fun _ _ => Or.inr h

lemma Licence.admits_nil : L.Admits ([] : List (Action η σ)) := nofun

lemma Licence.Admits.mono {as bs : List (Action η σ)} (h : L.Admits as) (hs : bs ⊆ as) :
    L.Admits bs := fun a ha => h a (hs ha)

lemma Licence.Admits.of_bindActions (h : L.Admits actions)
    (hb : s.bindActions actions = .ok bound) :
    L.Admits bound := by
  intro b hm
  obtain ⟨a, ha, hshape⟩ := exists_of_mem_bindActions hb hm
  rw [← Action.isMild_shape, hshape, Action.isMild_shape]
  exact h a ha

lemma Licence.Admits.of_mem (h : L.Admits f.actions) (hp : p ∈ f.predicates) :
    L.Admits p.actions :=
  h.mono fun _ ha => List.mem_flatMap.2 ⟨p, hp, ha⟩

/-- The callbacks of a session do no more than the licence lets them. -/
structure Heeds (L : Licence) (s : Session) : Prop where
  node : s.tree.Each fun a => ∀ f ∈ a.filter?, L.Admits f.actions
  filter : ∀ {f}, s.NamesFilter f → L.Admits f.actions
  sink : ∀ {k b}, s.sinks.get? k = some b → L.Admits b.allActions
  hook : ∀ {ns h}, s.scope? = some ns → h ∈ ns.hooks → L.Admits h.actions

/-- A filter that is built does what filters with names do and what is described. -/
lemma Heeds.admits_of_buildFilter [Pattern.Engine] (hs : s.Heeds L) {spec : FilterSpec}
    (hspec : L.Admits spec.actions) (h : s.buildFilter spec = .ok f) : L.Admits f.actions := by
  intro a ha
  obtain ⟨p, hp, ha⟩ := List.mem_flatMap.1 ha
  obtain ⟨g, hg, hp⟩ | ⟨q, hq, hb⟩ := exists_of_mem_predicates spec h hp
  · exact (hs.filter hg).of_mem hp a ha
  · have hmore : L.Admits q.actions := hspec.mono fun _ hb => List.mem_flatMap.2 ⟨q, hq, hb⟩
    exact hmore.of_bindActions hb a ha

/-- Where callbacks may do everything, they do no more. -/
lemma heeds_of_callbacks (h : L.callbacks) (s : Session) : s.Heeds L where
  node _ _ _ := L.admits_of_callbacks h _
  filter _ := L.admits_of_callbacks h _
  sink _ := L.admits_of_callbacks h _
  hook _ _ := L.admits_of_callbacks h _

/-- Only what it says of callbacks is of account. -/
lemma Heeds.of_callbacks (hs : s.Heeds L) (h : L.callbacks → M.callbacks) : s.Heeds M where
  node n f hf a ha := (hs.node n f hf a ha).imp_right h
  filter hf a ha := (hs.filter hf a ha).imp_right h
  sink hb a ha := (hs.sink hb a ha).imp_right h
  hook hns hh a ha := (hs.hook hns hh a ha).imp_right h

lemma Heeds.sink_actions (hs : s.Heeds L) (k : SinkId) : L.Admits (s.sink k).allActions := by
  rw [Session.sink]
  cases hk : s.sinks.get? k with
  | none => exact Licence.admits_nil
  | some b => exact hs.sink hk

/-- What is not about callbacks. -/
lemma Heeds.of_eq (hs : s.Heeds L) (ht : s'.tree = s.tree) (hk : s'.sinks = s.sinks)
    (hn : s'.scope? = s.scope?) (hf : s'.client.filters = s.client.filters) : s'.Heeds L where
  node := ht ▸ hs.node
  filter h := hs.filter (h.of_eq hn hf)
  sink h := hs.sink (hk ▸ h)
  hook h := hs.hook (hn ▸ h)

/-- A change of nodes that gives them no filters but such as are within the licence. -/
lemma Heeds.withTree (hs : s.Heeds L) {t : Tree}
    (ht : t.Each fun a => ∀ f ∈ a.filter?, L.Admits f.actions) :
    ({ s with tree := t } : Session).Heeds L where
  node := ht
  filter h := hs.filter (h.of_eq rfl rfl)
  sink := hs.sink
  hook := hs.hook

lemma Heeds.configure (hs : s.Heeds L) (n : NodeId) {g : Node → Node}
    (hg : ∀ f ∈ (g (s.node n)).filter?, (s.node n).filter? = some f ∨ L.Admits f.actions) :
    (s.modifyNode n g).Heeds L :=
  hs.withTree <| hs.node.modify n fun h f hf => (hg f hf).elim (h f) id

/-- A handle that is granted is nothing to callbacks, and new nodes have no filters. -/
lemma Heeds.grant (hs : s.Heeds L) (n : NodeId) (name : String) : (s.grant n name).Heeds L := by
  have hgrow := hs.withTree (hs.node.getOrCreate (Node.ofContents_filter _) n (Path.ofString name))
  have hpush : Heeds L { s with
      tree := (s.tree.getOrCreate n (Path.ofString name)).2
      handles := s.handles.push (s.tree.getOrCreate n (Path.ofString name)).1 } :=
    hgrow.of_eq rfl rfl rfl rfl
  exact hpush.configure _ fun _ => Or.inl

/-- A change of the namespace that gives it no callbacks but such as are within the licence. -/
lemma Heeds.withScope (hs : s.Heeds L) {g : Namespace → Namespace}
    (hf : ∀ ns name f, (g ns).filters.get? name = some f →
      (∃ name, ns.filters.get? name = some f) ∨ L.Admits f.actions)
    (hh : ∀ ns, ∀ h ∈ (g ns).hooks, h ∈ ns.hooks ∨ L.Admits h.actions) :
    ({ s with scope? := s.scope?.map g } : Session).Heeds L where
  node := hs.node
  filter h := by
    cases h with
    | kept h => exact hs.filter (.kept h)
    | registered hns h =>
      obtain ⟨ns, hscope, rfl⟩ := Option.map_eq_some_iff.1 hns
      exact (hf ns _ _ h).elim (fun ⟨_, h⟩ => hs.filter (.registered hscope h)) id
  sink := hs.sink
  hook hns h := by
    obtain ⟨ns, hscope, rfl⟩ := Option.map_eq_some_iff.1 hns
    exact (hh ns _ h).elim (hs.hook hscope) id

lemma Heeds.pushSink (hs : s.Heeds L) {b : BoundSink} (hb : L.Admits b.allActions) :
    ({ s with sinks := s.sinks.push b } : Session).Heeds L where
  node := hs.node
  filter h := hs.filter (h.of_eq rfl rfl)
  sink {k c} hc := by
    have hc' : (s.sinks.push b).get? k = some c := hc
    rw [Store.get?_push] at hc'
    split_ifs at hc'
    · exact Option.some.inj hc' ▸ hb
    · exact hs.sink hc'
  hook := hs.hook

lemma Heeds.takeDown (hs : s.Heeds L) :
    ({ s with tree := s.tree.takeDown Tree.root, scope? := none } : Session).Heeds L where
  node := hs.node.takeDown (Node.ofContents_filter _) Tree.root
  filter h := by
    cases h with
    | registered hns => cases hns
    | kept h => exact hs.filter (.kept h)
  sink := hs.sink
  hook := nofun

lemma Heeds.destroy (hs : s.Heeds L) (r : Ref) : (s.destroy r).Heeds L := by
  cases r with
  | node n => exact hs.withTree (hs.node.drop (Node.ofContents_filter _) n)
  | handle i => exact hs.of_eq rfl rfl rfl rfl
  | sink k =>
    refine ⟨hs.node, fun h => hs.filter (h.of_eq rfl rfl), fun {j b} hb => ?_, hs.hook⟩
    have hb' : (s.sinks.erase k).get? j = some b := hb
    rw [Store.get?_erase] at hb'
    split_ifs at hb'
    exact hs.sink hb'

/-- Nothing ends in a change of the contents of nodes. -/
lemma Ends.each {P : Node → Prop} (hP : Node.OfContents P) (h : s.Ends s')
    (ht : s.tree.Each P) : s'.tree.Each P := by
  induction h with
  | refl => exact ht
  | tail _ h ih =>
    cases h with
    | @destroy r =>
      cases r with
      | node n => exact ih.drop hP n
      | handle i => exact ih
      | sink k => exact ih
    | @removeChild p c k => exact ih.removeChild hP p k c

lemma Ends.heeds (h : s.Ends s') (hs : s.Heeds L) : s'.Heeds L := by
  induction h with
  | refl => exact hs
  | tail _ h ih =>
    cases h with
    | destroy => exact ih.destroy _
    | @removeChild p c k =>
      have hremoved := ih.withTree (ih.node.removeChild (Node.ofContents_filter _) p k c)
      exact hremoved.of_eq rfl rfl rfl rfl

lemma Heeds.settle (hs : s.Heeds L) : s.settle.Heeds L := (ends_settle s).heeds hs

lemma Heeds.reclaim (hs : s.Heeds L) : s.reclaim.2.Heeds L := by
  refine reclaimWithin_induction (motive := Heeds L) (fun s a rest _ h => ?_) _ hs
  have hstrike : (({ s with notices := rest } : Session).strikeOff a).Heeds L :=
    (h.withTree (h.node.modify a.node fun hf => hf)).of_eq rfl rfl rfl rfl
  exact (ends_process _ a).heeds hstrike

end Session

end Logging
