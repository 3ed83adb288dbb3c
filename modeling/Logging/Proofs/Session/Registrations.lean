import Mathlib.Tactic.Common
import Logging.Proofs.Session.Hooks
import Logging.Proofs.Session.NamedFilters
import Logging.Proofs.Session.Standing

/-!
# Where named filters come from

Which filters go by names is up to the client. No callback changes it, however deep it is nested,
and of the steps only those do that register or unregister filters or drop the namespace. So what a
name stands for was there from the start, or a step registered it under this name
(`Session.names_steps`).
-/

namespace Logging

/-- The filters that go by names, while there is a namespace. -/
def Session.filters? (s : Session) : Option (Dict String NodeFilter) :=
  s.scope?.map Namespace.filters

open Session

namespace Run

variable {α β : Type} {x : Run α}

/-! ### Calls -/

def KeepsFilters (x : Run α) : Prop := ∀ s : Session, (x.run s).2.filters? = s.filters?

lemma keepsFilters_of_scope (h : ∀ s : Session, (x.run s).2.scope? = s.scope?) :
    KeepsFilters x := fun s => congrArg (Option.map Namespace.filters) (h s)

lemma Silent.keepsFilters (h : Silent x) : KeepsFilters x :=
  keepsFilters_of_scope fun s => (h s).scope

lemma keepsFilters_modifyNamespace (f : Namespace → Namespace)
    (hf : ∀ ns, (f ns).filters = ns.filters) : KeepsFilters (modifyNamespace f) := by
  intro s
  show (s.scope?.map f).map Namespace.filters = s.scope?.map Namespace.filters
  rw [Option.map_map]
  exact congrArg (fun g => s.scope?.map g) (funext hf)

lemma KeepsFilters.borrowing {call : Run α} (h : KeepsFilters call) (refs : List Ref) :
    KeepsFilters (borrowing refs call) := by
  intro s
  have hsettle := (Session.silent_settle (regain (call.run (lend s refs)).2 s.inUse)).scope
  rw [run_borrowing]
  exact (congrArg (Option.map Namespace.filters) hsettle).trans (h (lend s refs))

lemma composes_keepsFilters : Composes @KeepsFilters where
  silent := Silent.keepsFilters
  bind := kept_bind Session.filters?
  borrowing refs h := h.borrowing refs
  emit _ := keepsFilters_of_scope fun _ => rfl
  refused k o name message? f := keepsFilters_of_scope fun s => by
    rw [run_refused]
    rfl

lemma carries_keepsFilters : Carries @KeepsFilters := by
  have hemit (e : Event) : KeepsFilters (emit e) := keepsFilters_of_scope fun _ => rfl
  have haddHook := composes_keepsFilters.addHook keepsFilters_modifyNamespace fun _ => hemit _
  exact {
    toComposes := composes_keepsFilters
    logRecord := fun hcalls => composes_keepsFilters.logRecord hcalls
      (fun _ => keepsFilters_of_scope fun _ => rfl) (hemit _)
    changeLevels := fun _ => keepsFilters_modifyNamespace _ fun _ => rfl
    addHook := haddHook
    offerHook := composes_keepsFilters.offerHook haddHook fun _ => hemit _
    close := fun hcalls =>
      composes_keepsFilters.close hcalls keepsFilters_modifyNamespace fun _ => hemit _ }

end Run

/-! ### Steps -/

open Run

/-- Filters go by names as before after all steps that are not about this, whatever they call. -/
theorem Step.keepsFilters_take [Pattern.Engine] (depth : Nat) {step : Step}
    (hfilters : step.SparesFilters) (hdrop : step ≠ .dropNamespace) : KeepsFilters
    (step.take (Calls.within depth)) := by
  by_cases hstep : step.KeepsStanding
  · exact carries_keepsFilters.take (carries_keepsFilters.callsIn_within depth) hstep hfilters hdrop
  · refine composes_keepsFilters.take _ (fun f => keepsFilters_of_scope fun s => ?_)
      (keepsFilters_of_scope fun _ => rfl) hstep
    exact (Session.silent_settle { s with client := f s.client }).scope

namespace Session

variable {s s' : Session} {depth : Nat} {name : String} {spec : FilterSpec} {f g : NodeFilter}

/-- A name stands for a filter. -/
def Names (s : Session) (name : String) (f : NodeFilter) : Prop :=
  s.resolver.filter? name = some f

lemma names_iff : s.Names name f ↔ ∃ d, s.filters? = some d ∧ d.get? name = some f := by
  simp only [Names, resolver, filters?, Option.bind_eq_some_iff, Option.map_eq_some_iff]
  constructor
  · rintro ⟨ns, hns, h⟩
    exact ⟨_, ⟨ns, hns, rfl⟩, h⟩
  · rintro ⟨_, ⟨ns, hns, rfl⟩, h⟩
    exact ⟨ns, hns, h⟩

lemma Names.scope (h : s.Names name f) : s.scope?.isSome := by
  obtain ⟨ns, hns, -⟩ := Option.bind_eq_some_iff.1 h
  exact Option.isSome_of_mem hns

lemma run_registerFilter_error [Pattern.Engine] {e : BuildError} (calls : Calls) (name : String)
    (hb : s.buildFilter spec = .error e) :
    (((Step.registerFilter name spec).take calls).run s).2 = s := by
  have hget : (get : Run Session).run s = (.ok s, s) := rfl
  rw [Step.take, run_bind, Run.buildFilter, run_bind, hget]
  simp only [hb]
  cases e <;> rfl

lemma filters?_settle (s : Session) : s.settle.filters? = s.filters? :=
  congrArg (Option.map Namespace.filters) (silent_settle s).scope

lemma filters?_withFilter (s : Session) (name : String) (f : NodeFilter) :
    (s.withFilter name f).settle.filters? = s.filters?.map (·.insert name f) := by
  rw [filters?_settle]
  cases hns : s.scope? <;> simp [filters?, withFilter, hns]

lemma filters?_unregisterFilter [Pattern.Engine] (calls : Calls) (s : Session) (name : String) :
    (((Step.unregisterFilter name).take calls).run s).2.filters? =
      s.filters?.map (·.erase name) := by
  rw [Step.take, run_bind, run_theNamespace]
  cases hns : s.scope? with
  | none => simp [filters?, hns]
  | some ns =>
    change (Session.settle { s with scope? := s.scope?.map fun ns =>
      { ns with filters := ns.filters.erase name } }).filters? = _
    rw [filters?_settle]
    simp [filters?, hns]

/-- What a name stands for after a step it stood for before, or the step registered it. -/
theorem names_step [Pattern.Engine] {step : Step}
    (h : (s.step (Calls.within depth) step).2.Names name f) :
    s.Names name f ∨ ∃ spec, step = .registerFilter name spec ∧ s.buildFilter spec = .ok f := by
  let s₀ : Session := { s with journal := [] }
  have hsame : s.SameNames s₀ := ⟨rfl, rfl, rfl, rfl, rfl⟩
  obtain ⟨d, hd, hf⟩ := names_iff.1 h
  replace hd : ((step.take (Calls.within depth)).run s₀).2.filters? = some d := hd
  by_cases hdrop : step = .dropNamespace
  · subst hdrop
    have hscope := h.scope
    rw [(step_dropNamespace (Calls.within depth) s).2] at hscope
    cases hscope
  have hspares : step.SparesFilters → s.filters? = some d := fun h =>
    (Step.keepsFilters_take depth h hdrop s₀).symm.trans hd
  cases step with
  | registerFilter k spec =>
    cases hb : s₀.buildFilter spec with
    | error e =>
      rw [run_registerFilter_error _ _ hb] at hd
      exact Or.inl (names_iff.2 ⟨d, hd, hf⟩)
    | ok g =>
      rw [run_registerFilter _ _ hb, filters?_withFilter] at hd
      obtain ⟨d', hd', rfl⟩ := Option.map_eq_some_iff.1 hd
      rw [Dict.get?_insert] at hf
      split_ifs at hf with hk
      · cases hf
        exact Or.inr ⟨spec, hk ▸ rfl, (hsame.buildFilter spec).trans hb⟩
      · exact Or.inl (names_iff.2 ⟨d', hd', hf⟩)
  | unregisterFilter k =>
    rw [filters?_unregisterFilter] at hd
    obtain ⟨d', hd', rfl⟩ := Option.map_eq_some_iff.1 hd
    rw [Dict.get?_erase] at hf
    split_ifs at hf
    exact Or.inl (names_iff.2 ⟨d', hd', hf⟩)
  | _ => exact Or.inl (names_iff.2 ⟨d, hspares trivial, hf⟩)

lemma steps_append [Pattern.Engine] (calls : Calls) (s : Session) (before after : List Step) :
    (s.steps calls (before ++ after)).2 = ((s.steps calls before).2.steps calls after).2 := by
  induction before generalizing s with
  | nil => rfl
  | cons step more ih => exact ih _

/-- What a name stands for after some steps it stood for before, or one of them registered it. -/
theorem names_steps [Pattern.Engine] (s : Session) (steps : List Step)
    (h : (s.steps (Calls.within depth) steps).2.Names name f) :
    s.Names name f ∨ ∃ before spec after, steps = before ++ .registerFilter name spec :: after ∧
      (s.steps (Calls.within depth) before).2.buildFilter spec = .ok f := by
  induction steps generalizing s with
  | nil => exact Or.inl h
  | cons step more ih =>
    obtain hn | ⟨before, spec, after, rfl, hb⟩ := ih (s.step (Calls.within depth) step).2 h
    · obtain hn | ⟨spec, rfl, hb⟩ := names_step hn
      · exact Or.inl hn
      · exact Or.inr ⟨[], spec, more, rfl, hb⟩
    · exact Or.inr ⟨step :: before, spec, after, rfl, hb⟩

lemma mem_of_names_new {strong : Bool} {baseline : Level} {levels : List Level}
    {filters : List (String × NodeFilter)} (h : (new strong baseline levels filters).Names name f) :
    (name, f) ∈ filters := Dict.mem_of_get?_ofList h

end Session

end Logging
