import Mathlib.Tactic.Common
import Logging.Proofs.Expression.RoundTrip
import Logging.Proofs.Session.Steps

/-!
# Filters of a session as texts

In every session the levels go by their names. So what the session reads is expressible, and writing
a filter and reading it are inverse to each other. Patterns are known by their texts there: these
are compiled anew when a filter is read, and work as before if they were compiled to begin with.
-/

namespace Logging

namespace Session

variable {m : Type → Type} [Monad m] {s : Session} {text : String} {f : NodeFilter}

lemma parseFilter_eq_ok_iff [Pattern.Engine] :
    s.parseFilter text = .ok f ↔ Expression.parse s.resolver text = .ok f := by
  rw [parseFilter]
  cases Expression.parse s.resolver text with
  | error e =>
    constructor
    · intro h
      cases h
    · intro h
      cases h
  | ok g => simp only [Except.mapError, Except.ok.injEq]

lemma levelsNamed_resolver (h : s.LevelsNamed) : Filter.LevelsNamed s.resolver := by
  intro n l hl
  obtain ⟨ns, hns, hl⟩ := Option.bind_eq_some_iff.1 hl
  exact (h ns hns).name_of_find? hl

/-- Writing and reading filters are inverse, for all filters that can be written. -/
structure RoundTrips [Pattern.Engine] (m : Type → Type) [Monad m] (s : Session) : Prop where
  expressible : ∀ text f, s.parseFilter text = .ok f → f.Expressible m s.resolver
  reread : ∀ f : NodeFilter, f.Expressible m s.resolver →
    ∃ g, s.parseFilter f.render = .ok g ∧ g.observed m = f.observed m ∧ g.render = f.render ∧
      (f.Compiled → g.behaviour m = f.behaviour m)
  injective : ∀ f g : NodeFilter, f.Expressible m s.resolver → g.Expressible m s.resolver →
    f.render = g.render → f.observed m = g.observed m
  /-- A filter that was read is the very same when it is written and read again. -/
  stable : ∀ text f, s.parseFilter text = .ok f → s.parseFilter f.render = .ok f
  /-- The patterns of what is read are what their texts are compiled to. -/
  compiled : ∀ text f, s.parseFilter text = .ok f → f.Compiled
  /-- So are those that a client makes. -/
  made : ∀ text p, compilePattern text = .ok p → Filter.PatternCompiled p

lemma patternCompiled_of_compilePattern [Pattern.Engine] {p : Pattern}
    (h : compilePattern text = .ok p) : Filter.PatternCompiled p := by
  rw [compilePattern] at h
  cases hp : Pattern.Engine.compile? text with
  | none =>
    rw [hp] at h
    cases h
  | some q =>
    rw [hp] at h
    obtain rfl := Except.ok.inj h
    rwa [Filter.PatternCompiled, Pattern.Engine.source_of_compile? hp]

lemma roundTrips_of_levelsNamed [Pattern.Engine] (h : s.LevelsNamed) : s.RoundTrips m := by
  have hread : ∀ text f, s.parseFilter text = .ok f → f.Expressible m s.resolver ∧ f.Compiled ∧
      Expression.parse s.resolver f.render = .ok f := fun _ _ hf =>
    Filter.expressible_of_parse (levelsNamed_resolver h) (parseFilter_eq_ok_iff.1 hf)
  exact
    { expressible := fun text f hf => (hread text f hf).1
      reread := fun f hf => by
        obtain ⟨g, hg, ho, hb⟩ := Filter.exists_parse_render hf
        refine ⟨g, parseFilter_eq_ok_iff.2 hg, ho, ?_, hb⟩
        rw [← Filter.render_observed (m := m) g, ho, Filter.render_observed]
      injective := fun _ _ hf hg hr => Filter.observed_eq_of_render_eq hf hg hr
      stable := fun text f hf => parseFilter_eq_ok_iff.2 (hread text f hf).2.2
      compiled := fun text f hf => (hread text f hf).2.1
      made := fun _ _ => patternCompiled_of_compilePattern }

/-- In any session that steps lead to, filters can be written and read again. -/
theorem roundTrips_steps [Pattern.Engine] (m : Type → Type) [Monad m] (depth : Nat) (strong : Bool)
    (baseline : Level) (levels : List Level) (filters : List (String × NodeFilter))
    (steps : List Step) :
    RoundTrips m ((new strong baseline levels filters).steps (Calls.within depth) steps).2 :=
  roundTrips_of_levelsNamed (sound_steps depth strong baseline levels filters steps).named

end Session

end Logging
