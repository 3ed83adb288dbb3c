import Mathlib.Tactic.Common
import Logging.Pattern.Compiled
import Logging.Proofs.Level.Writes
import Logging.Proofs.Session.Steps

/-!
# Baseline of a configured session

The settings of a session name its baseline. The level is chosen from the settings alone, before
any of the listed levels is registered, while its name stands for what was registered under it
last. So the two may differ: a name may be listed more than once, and a standard level that is
listed anew may be chosen in other letters than its own (`baseline_ofSettings`).
-/

namespace Logging

/-! ### The choice of the baseline -/

namespace Settings

variable {settings : Settings} {b l : Level}

/-- The baseline is the first level that is listed under the name given, or else a standard one. -/
lemma baselineLevel_eq_ok_iff :
    settings.baselineLevel = .ok b ↔
      settings.levels.find? (·.name == settings.baseline) = some b ∨
        settings.levels.find? (·.name == settings.baseline) = none ∧
          Level.ofName settings.baseline = .ok b := by
  rw [baselineLevel]
  cases settings.levels.find? (·.name == settings.baseline) with
  | some l => simp
  | none => cases Level.ofName settings.baseline <;> simp

/-- The last level that is listed under the name of another. -/
def lastListed? (settings : Settings) (b : Level) : Option Level :=
  (settings.levels.filter (·.name = b.name)).getLast?

/-- The level that the name of the baseline `b` stands for in a session of the settings. -/
def registered (settings : Settings) (b : Level) : Level := (settings.lastListed? b).getD b

lemma mem_of_lastListed? (h : settings.lastListed? b = some l) :
    l ∈ settings.levels ∧ l.name = b.name := by
  simpa using List.mem_of_getLast? h

lemma name_registered (settings : Settings) (b : Level) :
    (settings.registered b).name = b.name := by
  rw [registered]
  cases hl : settings.lastListed? b with
  | none => rfl
  | some l => exact (mem_of_lastListed? hl).2

lemma severity_registered_iff :
    (settings.registered b).severity = b.severity ↔
      ∀ l, settings.lastListed? b = some l → l.severity = b.severity := by
  rw [registered]
  cases settings.lastListed? b <;> simp

/-- Only the baseline is listed under its name, if any is. -/
lemma registered_eq_self (hb : settings.baselineLevel = .ok b)
    (hnodup : (settings.levels.map Level.name).Nodup) (hname : b.name = settings.baseline) :
    settings.registered b = b := by
  rw [registered]
  cases hlast : settings.lastListed? b with
  | none => rfl
  | some l =>
    obtain ⟨hl, hln⟩ := mem_of_lastListed? hlast
    obtain hfirst | ⟨hnone, -⟩ := baselineLevel_eq_ok_iff.1 hb
    · exact List.inj_on_of_nodup_map hnodup hl (List.mem_of_find?_eq_some hfirst) hln
    · have hne := List.find?_eq_none.1 hnone l hl
      simp [hln, hname] at hne

end Settings

/-! ### The baseline in a session -/

namespace Session

variable {s : Session} {ns : Namespace} {settings : Settings} {b l : Level} {name : String}

/-- What a session of the settings says of its baseline `b` and of the level that the name of the
baseline stands for. -/
structure Baseline [Pattern.Engine] (calls : Calls) (s : Session) (settings : Settings)
    (b : Level) : Prop where
  reported : (s.step calls .settings).1.answer = .ok (.settings settings.strongChildren b.severity)
  root : s.tree.effective Tree.root = b.severity
  resolves : (s.step calls (.levelForName b.name)).1.answer = .ok (.level (settings.registered b))
  name : (settings.registered b).name = b.name
  /-- They agree just if the last level that is listed under the name does. -/
  agree_iff : (settings.registered b).severity = b.severity ↔
    ∀ l, settings.lastListed? b = some l → l.severity = b.severity
  /-- They are the same if no name is listed twice and the baseline is spelled as its level is. -/
  same : (settings.levels.map Level.name).Nodup → b.name = settings.baseline →
    settings.registered b = b

lemma answer_levelForName [Pattern.Engine] (calls : Calls) (hs : s.scope? = some ns)
    (hl : ns.levels.find? s.levelAlive name = some l) :
    (s.step calls (.levelForName name)).1.answer = .ok (.level l) := by
  have hget : ns.levels.get s.levelAlive name = .ok l := by
    rw [LevelRegistry.get, hl]
  have hrun : ((Step.levelForName name).take calls).run { s with journal := [] } =
      (Run.ofExcept (ns.levels.get s.levelAlive name) >>= fun l =>
        (Pure.pure (.level l) : Run Answer)).run { s with journal := [] } := by
    rw [Step.take, Run.run_bind, Run.run_theNamespace]
    simp only [hs]
    rfl
  rw [step, hrun, hget]
  rfl

/-- The baseline is registered before the listed levels are, so it stands back behind them. -/
lemma find?_new (strong : Bool) (settings : Settings) (b : Level)
    (filters : List (String × NodeFilter)) :
    ∃ ns, (new strong b settings.levels filters).scope? = some ns ∧
      ns.levels.find? (new strong b settings.levels filters).levelAlive b.name =
        some (settings.registered b) := by
  refine ⟨_, rfl, ?_⟩
  have halive : (new strong b settings.levels filters).levelAlive = fun _ => false := rfl
  rw [halive, List.foldl_cons, LevelRegistry.find?_foldl_register, LevelRegistry.find?_register,
    if_pos rfl, Settings.registered, Settings.lastListed?]
  cases (settings.levels.filter (·.name = b.name)).getLast? <;> rfl

/-- The baseline of a configured session is the level that its settings choose, and it is in effect
at the root. The name of the level resolves as well, but to what was listed last under it. -/
theorem baseline_ofSettings [Pattern.Engine] (calls : Calls) (hs : ofSettings settings = .ok s) :
    ∃ b, settings.baselineLevel = .ok b ∧ s.Baseline calls settings b := by
  rw [ofSettings] at hs
  cases hb : settings.baselineLevel with
  | error f =>
    rw [hb] at hs
    cases hs
  | ok b =>
    rw [hb] at hs
    cases hs
    obtain ⟨ns, hns, hl⟩ := find?_new settings.strongChildren settings b []
    refine ⟨b, rfl, rfl, ?_, answer_levelForName calls hns hl, settings.name_registered b,
      Settings.severity_registered_iff, Settings.registered_eq_self hb⟩
    exact (Tree.levelsSound_new b.severity settings.strongChildren).base rfl rfl

open scoped Pattern.Searching in
/-- A standard level under its second name and in other letters, where a level is listed that has
this second name as its own. -/
theorem baseline_ofSettings_warning :
    ∃ s, ofSettings { baseline := "Warning", levels := [⟨"WARNING", 850⟩] } = .ok s ∧
      s.Baseline (Calls.within 0) { baseline := "Warning", levels := [⟨"WARNING", 850⟩] } .warn := by
  have hs : ofSettings { baseline := "Warning", levels := [⟨"WARNING", 850⟩] } =
    .ok (new true .warn [⟨"WARNING", 850⟩] []) := rfl
  obtain ⟨b, hb, h⟩ := baseline_ofSettings (Calls.within 0) hs
  cases hb
  exact ⟨_, hs, h⟩

open scoped Pattern.Searching in
/-- The baseline is the standard level, while its name stands for the level that is listed. Where a
name is listed twice, the first level is the baseline and the name stands for the second. -/
theorem baseline_ne_level :
    (∃ s, ofSettings { baseline := "info", levels := [⟨"INFO", 5⟩] } = .ok s ∧
      Settings.baselineLevel { baseline := "info", levels := [⟨"INFO", 5⟩] } = .ok .info ∧
      s.tree.baseline = 800 ∧ s.tree.effective Tree.root = 800 ∧
      (s.step (Calls.within 0) (.levelForName "INFO")).1.answer = .ok (.level ⟨"INFO", 5⟩)) ∧
    ∃ s, ofSettings { baseline := "X", levels := [⟨"X", 1⟩, ⟨"X", 2⟩] } = .ok s ∧
      Settings.baselineLevel { baseline := "X", levels := [⟨"X", 1⟩, ⟨"X", 2⟩] } = .ok ⟨"X", 1⟩ ∧
      s.tree.baseline = 1 ∧ s.tree.effective Tree.root = 1 ∧
      (s.step (Calls.within 0) (.levelForName "X")).1.answer = .ok (.level ⟨"X", 2⟩) :=
  ⟨⟨_, rfl, rfl, rfl, rfl, rfl⟩, _, rfl, rfl, rfl, rfl, rfl⟩

end Session

end Logging
