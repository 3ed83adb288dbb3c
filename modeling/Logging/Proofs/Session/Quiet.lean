import Mathlib.Tactic.Common
import Logging.Proofs.Session.Runs
import Logging.Session.Callbacks

/-!
# Quiet callbacks

A callback is quiet if it does not call back: it tells things, and may break off the call that it
runs in. What it answers and tells is then the same in every session (`Run.Detached`), and it keeps
no handle and no sink alive. Filters that are built from quiet parts are quiet, those that are read
from an expression included, as an expression can but name filters that are there.
-/

namespace Logging

/-- The action does not use the tree. -/
def Action.isQuiet {η σ : Type} : Action η σ → Bool
  | note _ | abort => true
  | _ => false

lemma Action.isQuiet_shape {η σ : Type} (a : Action η σ) : a.shape.isQuiet = a.isQuiet := by
  cases a <;> rfl

/-- The actions of the filter's predicates do not use the tree. -/
def Filter.Quiet {η σ : Type} (f : Filter (Predicate η σ)) : Prop :=
  ∀ p ∈ f.predicates, p.actions.all Action.isQuiet

open Session

/-! ### References -/

lemma Action.refs_of_isQuiet {a : BoundAction} (h : a.isQuiet) :
    a.handles = [] ∧ a.sinks = [] := by
  cases a with
  | note | abort => exact ⟨rfl, rfl⟩
  | _ => cases h

lemma Session.refsOfActions_of_quiet {actions : List BoundAction}
    (h : actions.all Action.isQuiet) : refsOfActions actions = [] := by
  apply List.flatMap_eq_nil_iff.2
  intro a ha
  obtain ⟨hh, hs⟩ := Action.refs_of_isQuiet (List.all_eq_true.1 h a ha)
  rw [hh, hs]
  rfl

/-- All that a sink may do is quiet if what it does with records is, and what it does when it is
flushed. -/
lemma Sink.quiet_iff {η σ : Type} {sink : Sink η σ} : sink.allActions.all Action.isQuiet ↔
    sink.actions.all Action.isQuiet ∧ sink.flushActions.all Action.isQuiet := by
  rw [allActions, List.all_append, Bool.and_eq_true]

lemma Session.refsOfFilter_of_quiet {f : NodeFilter} (h : f.Quiet) : refsOfFilter f = [] :=
  List.flatMap_eq_nil_iff.2 fun p hp => refsOfActions_of_quiet (h p hp)

lemma Session.refsOfHooks_of_quiet {hooks : List BoundHook}
    (h : ∀ k ∈ hooks, k.actions.all Action.isQuiet) : refsOfHooks hooks = [] :=
  List.flatMap_eq_nil_iff.2 fun k hk => refsOfActions_of_quiet (h k hk)

/-! ### Quiet filters -/

namespace Filter

variable {η σ : Type} {f : Filter (Predicate η σ)} {fs : List (Filter (Predicate η σ))}

lemma quiet_all_iff : (all fs).Quiet ↔ ∀ f ∈ fs, f.Quiet := by
  simp only [Quiet, predicates, mem_predicatesList_iff]
  exact ⟨fun h f hf p hp => h p ⟨f, hf, hp⟩, fun h p ⟨f, hf, hp⟩ => h f hf p hp⟩

lemma quiet_any_iff : (any fs).Quiet ↔ ∀ f ∈ fs, f.Quiet := quiet_all_iff

lemma quiet_of_predicates_eq_nil (h : f.predicates = []) : f.Quiet := by
  intro p hp
  rw [h] at hp
  cases hp

end Filter

/-! ### Building quiet filters -/

namespace FilterSpec

mutual

/-- The predicates that are described do not use the tree. -/
def isQuiet : FilterSpec → Bool
  | not f => f.isQuiet
  | all fs => isQuietList fs
  | any fs => isQuietList fs
  | named _ p => p.actions.all Action.isQuiet
  | _ => true

def isQuietList : List FilterSpec → Bool
  | [] => true
  | f :: fs => f.isQuiet && isQuietList fs

end

mutual

lemma quiet_of_mem (spec : FilterSpec) (h : spec.isQuiet) {q : Predicate String String}
    (hq : q ∈ spec.predicates) : q.actions.all Action.isQuiet := by
  cases spec with
  | not spec => exact quiet_of_mem spec h hq
  | all specs | any specs => exact quiet_of_mem_list specs h hq
  | named _ p =>
    obtain rfl := List.mem_singleton.1 hq
    exact h
  | _ => cases hq

lemma quiet_of_mem_list (specs : List FilterSpec) (h : isQuietList specs)
    {q : Predicate String String} (hq : q ∈ predicatesList specs) :
    q.actions.all Action.isQuiet := by
  cases specs with
  | nil => cases hq
  | cons spec specs =>
    rw [isQuietList, Bool.and_eq_true] at h
    rcases List.mem_append.1 hq with hq | hq
    · exact quiet_of_mem spec h.1 hq
    · exact quiet_of_mem_list specs h.2 hq

end

end FilterSpec

namespace Session

variable {s : Session}

lemma quiet_of_bindActions {actions : List (Action String String)} {bound : List BoundAction}
    (h : actions.all Action.isQuiet) (hb : s.bindActions actions = .ok bound) :
    bound.all Action.isQuiet := by
  refine List.all_eq_true.2 fun b hm => ?_
  obtain ⟨a, ha, hshape⟩ := exists_of_mem_bindActions hb hm
  rw [← Action.isQuiet_shape, hshape, Action.isQuiet_shape]
  exact List.all_eq_true.1 h a ha

/-- All filters that the namespace has and the client holds are quiet. -/
structure FiltersQuiet (s : Session) : Prop where
  named : ∀ ns id f, s.scope? = some ns → ns.filters.get? id = some f → f.Quiet
  held : ∀ id f, s.client.filters.get? id = some f → f.Quiet

/-- What is built from a quiet description is quiet. -/
lemma quiet_of_buildFilter [Pattern.Engine] (hs : s.FiltersQuiet) (spec : FilterSpec)
    (hq : spec.isQuiet) {f : NodeFilter} (h : s.buildFilter spec = .ok f) : f.Quiet := by
  intro p hp
  obtain ⟨g, hg, hp⟩ | ⟨q, hmem, hb⟩ := exists_of_mem_predicates spec h hp
  · cases hg with
    | registered hns hg => exact hs.named _ _ g hns hg p hp
    | kept hg => exact hs.held _ g hg p hp
  · exact quiet_of_bindActions (spec.quiet_of_mem hq hmem) hb

/-! ### What filters are built from -/

/-- Two sessions in which names stand for the same. -/
structure SameNames (s s' : Session) : Prop where
  scope : s.scope? = s'.scope?
  handles : s.client.handles = s'.client.handles
  sinks : s.client.sinks = s'.client.sinks
  filters : s.client.filters = s'.client.filters
  levels : s.client.levels = s'.client.levels

variable {s' : Session}

lemma SameNames.parseFilter [Pattern.Engine] (h : s.SameNames s') (text : String) :
    s.parseFilter text = s'.parseFilter text := by
  have hr : s.resolver = s'.resolver := by
    rw [resolver, resolver, h.scope, levelAlive, levelAlive, h.levels]
  simp [Session.parseFilter, hr]

lemma SameNames.bindActions (h : s.SameNames s') (actions : List (Action String String)) :
    s.bindActions actions = s'.bindActions actions := by
  rw [Session.bindActions, Session.bindActions, h.handles, h.sinks]

mutual

lemma SameNames.buildFilter [Pattern.Engine] (h : s.SameNames s') (spec : FilterSpec) :
    s.buildFilter spec = s'.buildFilter spec := by
  cases spec with
  | expression text => rw [Session.buildFilter, Session.buildFilter, h.parseFilter]
  | not spec => rw [Session.buildFilter, Session.buildFilter, SameNames.buildFilter h spec]
  | all specs => rw [Session.buildFilter, Session.buildFilter, SameNames.buildFilters h specs]
  | any specs => rw [Session.buildFilter, Session.buildFilter, SameNames.buildFilters h specs]
  | registered name => rw [Session.buildFilter, Session.buildFilter, h.scope]
  | kept id => rw [Session.buildFilter, Session.buildFilter, h.filters]
  | named name p =>
    rw [Session.buildFilter, Session.buildFilter, bindPredicate, bindPredicate, h.bindActions]
  | accept | deny | levels | levelRange | levelChange | «match» | substitute =>
    simp [Session.buildFilter]

lemma SameNames.buildFilters [Pattern.Engine] (h : s.SameNames s') (specs : List FilterSpec) :
    s.buildFilters specs = s'.buildFilters specs := by
  cases specs with
  | nil => rw [Session.buildFilters, Session.buildFilters]
  | cons spec specs =>
    rw [Session.buildFilters, Session.buildFilters, SameNames.buildFilter h spec,
      SameNames.buildFilters h specs]

end

/-- The session after some more was told. -/
def told (s : Session) (events : List Event) : Session := { s with journal := s.journal ++ events }

lemma told_nil (s : Session) : s.told [] = s := by
  simp [told]

lemma told_append (s : Session) (es fs : List Event) : s.told (es ++ fs) = (s.told es).told fs := by
  rw [told, told, told, List.append_assoc]

end Session

/-! ### Calls that do not look at the session -/

namespace Run

variable {α β : Type}

/-- The call answers the same and tells the same in every session, and changes nothing else. -/
def Detached (x : Run α) : Prop := ∃ a es, ∀ s : Session, x.run s = (a, s.told es)

lemma detached_pure (a : α) : Detached (pure a : Run α) :=
  ⟨.ok a, [], fun s => by rw [told_nil]; rfl⟩

lemma detached_stop (e : Stop) : Detached (stop e : Run α) :=
  ⟨.error e, [], fun s => by rw [told_nil]; rfl⟩

lemma detached_emit (e : Event) : Detached (emit e) := ⟨.ok (), [e], fun _ => rfl⟩

lemma Detached.bind {x : Run α} {f : α → Run β} (hx : Detached x) (hf : ∀ a, Detached (f a)) :
    Detached (x >>= f) := by
  obtain ⟨r, es, hx⟩ := hx
  cases r with
  | error e =>
    refine ⟨.error e, es, fun s => ?_⟩
    simp [run_bind, hx]
  | ok a =>
    obtain ⟨r, fs, hf⟩ := hf a
    refine ⟨r, es ++ fs, fun s => ?_⟩
    rw [run_bind, hx, told_append]
    exact hf _

lemma Detached.ite {p : Prop} [Decidable p] {x y : Run α} (hx : Detached x) (hy : Detached y) :
    Detached (if p then x else y) := by
  split_ifs
  · exact hx
  · exact hy

variable {calls : Calls}

lemma detached_performAll (calls : Calls) {actions : List BoundAction}
    (h : actions.all Action.isQuiet) : Detached (Action.performAll calls actions) := by
  induction actions with
  | nil => exact detached_pure _
  | cons a actions ih =>
    rw [List.all_cons, Bool.and_eq_true] at h
    have ha : Detached (Action.perform calls a) := by
      cases a with
      | note text => exact detached_emit _
      | abort => exact detached_stop _
      | _ => cases h.1
    exact ha.bind fun _ => ih h.2

/-- Quiet predicates, sinks and hooks behave the same in every session. -/
structure CallsDetached (calls : Calls) : Prop where
  predicate : ∀ p r, p.actions.all Action.isQuiet → Detached (calls.predicate p r)
  publish : ∀ (b : BoundSink) r, b.allActions.all Action.isQuiet →
    ∃ a es, ∀ s k, s.sink k = b → (calls.publish k r).run s = (a, s.told es)
  flush : ∀ b : BoundSink, b.allActions.all Action.isQuiet →
    ∃ a es, ∀ s k, s.sink k = b → (calls.flush k).run s = (a, s.told es)
  hook : ∀ h, h.actions.all Action.isQuiet → Detached (calls.hook h)

theorem callsDetached_within (depth : Nat) : CallsDetached (Calls.within depth) := by
  cases depth with
  | zero =>
    have hstop : ∀ {γ : Type} (s : Session), (stop .exhausted : Run γ).run s =
        (.error .exhausted, s.told []) := fun s => by rw [told_nil]; rfl
    exact ⟨fun _ _ _ => detached_stop _, fun _ _ _ => ⟨_, _, fun s _ _ => hstop s⟩,
      fun _ _ => ⟨_, _, fun s _ _ => hstop s⟩, fun _ _ => detached_stop _⟩
  | succ depth =>
    constructor
    case predicate => exact fun p r hp => (detached_performAll _ hp).bind fun _ => detached_pure _
    case hook => exact fun h hq => detached_performAll _ hq
    case publish =>
      intro b r hb
      have h : Detached (b.publish (Calls.within depth) r) := by
        refine Detached.ite (detached_pure _) ((detached_emit _).bind fun _ => ?_)
        exact (detached_performAll _ (Sink.quiet_iff.1 hb).1).bind fun _ => detached_pure _
      obtain ⟨a, es, h⟩ := h
      refine ⟨a, es, fun s k hk => ?_⟩
      subst hk
      exact h s
    case flush =>
      intro b hb
      have h : Detached (b.flush (Calls.within depth)) := by
        refine Detached.ite (detached_pure _) ((detached_emit _).bind fun _ => ?_)
        exact (detached_performAll _ (Sink.quiet_iff.1 hb).2).bind fun _ => detached_pure _
      obtain ⟨a, es, h⟩ := h
      refine ⟨a, es, fun s k hk => ?_⟩
      subst hk
      exact h s

mutual

lemma detached_evaluate (hcalls : CallsDetached calls) (f : NodeFilter) (hf : f.Quiet)
    (r : Record) : Detached (f.evaluate calls.predicate r) := by
  cases f with
  | not f => exact (detached_evaluate hcalls f hf r).bind fun _ => detached_pure _
  | all fs => exact detached_evaluateAll hcalls fs (Filter.quiet_all_iff.1 hf) r
  | any fs => exact detached_evaluateAny hcalls fs (Filter.quiet_any_iff.1 hf) r
  | named name p => exact hcalls.predicate p r (hf p (List.mem_singleton.2 rfl))
  | reference name f => exact detached_evaluate hcalls f hf r
  | accept | deny | levels | levelRange | levelChange | «match» | substitute =>
    exact detached_pure _

lemma detached_evaluateAll (hcalls : CallsDetached calls) (fs : List NodeFilter)
    (hf : ∀ f ∈ fs, f.Quiet) (r : Record) :
    Detached (Filter.evaluateAll calls.predicate fs r) := by
  cases fs with
  | nil => exact detached_pure _
  | cons f fs =>
    have htail : ∀ g ∈ fs, g.Quiet := fun g hg => hf g (List.mem_cons_of_mem f hg)
    apply (detached_evaluate hcalls f (hf f List.mem_cons_self) r).bind
    intro o
    exact Detached.ite (detached_evaluateAll hcalls fs htail o.2) (detached_pure _)

lemma detached_evaluateAny (hcalls : CallsDetached calls) (fs : List NodeFilter)
    (hf : ∀ f ∈ fs, f.Quiet) (r : Record) :
    Detached (Filter.evaluateAny calls.predicate fs r) := by
  cases fs with
  | nil => exact detached_pure _
  | cons f fs =>
    have htail : ∀ g ∈ fs, g.Quiet := fun g hg => hf g (List.mem_cons_of_mem f hg)
    apply (detached_evaluate hcalls f (hf f List.mem_cons_self) r).bind
    intro o
    exact Detached.ite (detached_pure _) (detached_evaluateAny hcalls fs htail o.2)

end

end Run

end Logging
