import Mathlib.Tactic.Common
import Logging.Proofs.Session.Steps

/-!
# Effective levels in every session

A new session is sound, its steps are made of moves, and moves keep it sound. So whatever a client
did, the effective levels in the tree are those that the explicit levels and the baseline make.
-/

namespace Logging

namespace Session

/-- The effective levels of a tree are what its explicit levels and the baseline make them. -/
structure EffectiveLevels (t : Tree) (baseline : Int) : Prop where
  own : ∀ n l, t.contains n → (t.node n).level? = some l → t.effective n = l.severity
  inherited : ∀ p k c, t.child? p k = some c → (t.node c).level? = none →
    t.effective c = t.effective p
  root : t.contains Tree.root → (t.node Tree.root).level? = none →
    t.effective Tree.root = baseline
  /-- At the end of a path from the root the nearest explicit level is in effect. -/
  nearest : ∀ path n, t.contains n → t.find? Tree.root path = some n →
    t.effective n = ((t.nearestLevel? path).map Level.severity).getD baseline

lemma effectiveLevels_of_levelsSound {t : Tree} (ht : t.LevelsSound) :
    EffectiveLevels t t.baseline := by
  refine ⟨fun n l _ hl => ht.own hl, fun p k c hk hl => ht.inherit hk hl, ht.base, ?_⟩
  intro path n hn h
  refine ht.effective_eq_nearest ?_ h
  cases path with
  | nil =>
    cases h
    exact hn
  | cons k path =>
    obtain ⟨c, hk, -⟩ := Option.bind_eq_some_iff.1 h
    exact Tree.contains_of_child hk

/-- Effective levels are right after any steps, in either mode of retention, whatever filters,
sinks and hooks do and however deep they are nested. -/
theorem effectiveLevels_steps [Pattern.Engine] (depth : Nat) (strong : Bool) (baseline : Level)
    (levels : List Level) (filters : List (String × NodeFilter)) (steps : List Step) :
    EffectiveLevels
      ((new strong baseline levels filters).steps (Calls.within depth) steps).2.tree
      baseline.severity := by
  have hs := sound_new strong baseline levels filters
  have h := leads_steps depth hs steps
  have hb : _ = baseline.severity := h.baseline
  rw [← hb]
  exact effectiveLevels_of_levelsSound (h.sound hs).tree

end Session

end Logging
