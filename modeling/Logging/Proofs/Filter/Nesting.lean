import Mathlib.Order.MinMax
import Mathlib.Tactic.Common
import Logging.Filter.Evaluate

/-!
# Nesting of evaluations

While a filter is evaluated, its parts are, and so is what a name in it stands for. So evaluations
are nested in each other, and `Filter.evaluateNested` tells how deep. That is no more than the
height of the filter, whatever the record, where all that names stand for counts as well
(`Filter.exists_evaluateNested`).
-/

namespace Logging.Filter

variable {π : Type}

/-! ### Counting evaluations -/

section

variable {m : Type → Type} [Monad m] (call : π → Record → m Outcome)

mutual

/-- Evaluate a filter, and tell how many evaluations were nested in each other, its own included. -/
def evaluateNested : Filter π → Record → m (Outcome × Nat)
  | not f, r => do
    let ((verdict, r), depth) ← evaluateNested f r
    pure ((!verdict, r), depth + 1)
  | all fs, r => do
    let (outcome, depth) ← evaluateAllNested fs r
    pure (outcome, depth + 1)
  | any fs, r => do
    let (outcome, depth) ← evaluateAnyNested fs r
    pure (outcome, depth + 1)
  | reference _ f, r => do
    let (outcome, depth) ← evaluateNested f r
    pure (outcome, depth + 1)
  | f, r => do
    let outcome ← f.evaluate call r
    pure (outcome, 1)

def evaluateAllNested : List (Filter π) → Record → m (Outcome × Nat)
  | [], r => pure ((true, r), 0)
  | f :: fs, r => do
    let ((verdict, r), depth) ← evaluateNested f r
    if verdict then
      let (outcome, rest) ← evaluateAllNested fs r
      pure (outcome, max depth rest)
    else
      pure ((false, r), depth)

def evaluateAnyNested : List (Filter π) → Record → m (Outcome × Nat)
  | [], r => pure ((false, r), 0)
  | f :: fs, r => do
    let ((verdict, r), depth) ← evaluateNested f r
    if verdict then
      pure ((true, r), depth)
    else
      let (outcome, rest) ← evaluateAnyNested fs r
      pure (outcome, max depth rest)

end

variable [LawfulMonad m]

mutual

/-- Counting makes no difference to what comes of the evaluation. -/
theorem outcome_evaluateNested (f : Filter π) (r : Record) :
    Prod.fst <$> f.evaluateNested call r = f.evaluate call r := by
  cases f with
  | not f =>
    simp [evaluateNested, evaluate, ← outcome_evaluateNested f r]
  | all fs => simp [evaluateNested, evaluate, ← outcome_evaluateAllNested fs r]
  | any fs => simp [evaluateNested, evaluate, ← outcome_evaluateAnyNested fs r]
  | reference name f => simp [evaluateNested, evaluate, ← outcome_evaluateNested f r]
  | accept | deny | levels | levelRange | levelChange | «match» | substitute | named =>
    simp [evaluateNested]

theorem outcome_evaluateAllNested (fs : List (Filter π)) (r : Record) :
    Prod.fst <$> evaluateAllNested call fs r = evaluateAll call fs r := by
  cases fs with
  | nil => simp [evaluateAllNested, evaluateAll]
  | cons f fs =>
    simp only [evaluateAllNested, evaluateAll, ← outcome_evaluateNested f r, map_bind, bind_map_left]
    apply bind_congr
    rintro ⟨⟨_ | _, r'⟩, d⟩
    · simp
    · simp [← outcome_evaluateAllNested fs r']

theorem outcome_evaluateAnyNested (fs : List (Filter π)) (r : Record) :
    Prod.fst <$> evaluateAnyNested call fs r = evaluateAny call fs r := by
  cases fs with
  | nil => simp [evaluateAnyNested, evaluateAny]
  | cons f fs =>
    simp only [evaluateAnyNested, evaluateAny, ← outcome_evaluateNested f r, map_bind, bind_map_left]
    apply bind_congr
    rintro ⟨⟨_ | _, r'⟩, d⟩
    · simp [← outcome_evaluateAnyNested fs r']
    · simp

end

end

/-! ### How deep a filter is -/

mutual

/-- How many filters lie within each other, where a name lies around what it stands for. -/
def height : Filter π → Nat
  | not f => f.height + 1
  | all fs => heightList fs + 1
  | any fs => heightList fs + 1
  | reference _ f => f.height + 1
  | _ => 1

def heightList : List (Filter π) → Nat
  | [] => 0
  | f :: fs => max f.height (heightList fs)

end

mutual

/-- How many names lie within each other. -/
def hops : Filter π → Nat
  | not f => f.hops
  | all fs => hopsList fs
  | any fs => hopsList fs
  | reference _ f => f.hops + 1
  | _ => 0

def hopsList : List (Filter π) → Nat
  | [] => 0
  | f :: fs => max f.hops (hopsList fs)

end

section

variable {m : Type → Type} [Monad m] [LawfulMonad m] (call : π → Record → m Outcome)

mutual

/-- A filter without predicates has no effects, and its evaluations are nested no deeper than it is
high. -/
theorem exists_evaluateNested (f : Filter π) (hf : f.predicates = []) (r : Record) :
    ∃ o d, f.evaluateNested call r = pure (o, d) ∧ d ≤ f.height := by
  cases f with
  | not f =>
    obtain ⟨o, d, he, hd⟩ := exists_evaluateNested f hf r
    exact ⟨(!o.1, o.2), d + 1, by simp [evaluateNested, he], Nat.succ_le_succ hd⟩
  | all fs =>
    obtain ⟨o, d, he, hd⟩ := exists_evaluateAllNested fs hf r
    exact ⟨o, d + 1, by simp [evaluateNested, he], Nat.succ_le_succ hd⟩
  | any fs =>
    obtain ⟨o, d, he, hd⟩ := exists_evaluateAnyNested fs hf r
    exact ⟨o, d + 1, by simp [evaluateNested, he], Nat.succ_le_succ hd⟩
  | reference name f =>
    obtain ⟨o, d, he, hd⟩ := exists_evaluateNested f hf r
    exact ⟨o, d + 1, by simp [evaluateNested, he], Nat.succ_le_succ hd⟩
  | named name p => cases hf
  | accept | deny | levels | levelRange | levelChange | «match» | substitute =>
    exact ⟨_, 1, pure_bind _ _, Nat.le_refl 1⟩

theorem exists_evaluateAllNested (fs : List (Filter π)) (hf : predicatesList fs = [])
    (r : Record) : ∃ o d, evaluateAllNested call fs r = pure (o, d) ∧ d ≤ heightList fs := by
  cases fs with
  | nil => exact ⟨_, 0, rfl, Nat.le_refl 0⟩
  | cons f fs =>
    obtain ⟨hf, hfs⟩ := List.append_eq_nil_iff.1 hf
    obtain ⟨⟨verdict, r'⟩, d, he, hd⟩ := exists_evaluateNested f hf r
    cases verdict with
    | false => exact ⟨(false, r'), d, by simp [evaluateAllNested, he], le_max_of_le_left hd⟩
    | true =>
      obtain ⟨o, d', he', hd'⟩ := exists_evaluateAllNested fs hfs r'
      exact ⟨o, max d d', by simp [evaluateAllNested, he, he'], max_le_max hd hd'⟩

theorem exists_evaluateAnyNested (fs : List (Filter π)) (hf : predicatesList fs = [])
    (r : Record) : ∃ o d, evaluateAnyNested call fs r = pure (o, d) ∧ d ≤ heightList fs := by
  cases fs with
  | nil => exact ⟨_, 0, rfl, Nat.le_refl 0⟩
  | cons f fs =>
    obtain ⟨hf, hfs⟩ := List.append_eq_nil_iff.1 hf
    obtain ⟨⟨verdict, r'⟩, d, he, hd⟩ := exists_evaluateNested f hf r
    cases verdict with
    | true => exact ⟨(true, r'), d, by simp [evaluateAnyNested, he], le_max_of_le_left hd⟩
    | false =>
      obtain ⟨o, d', he', hd'⟩ := exists_evaluateAnyNested fs hfs r'
      exact ⟨o, max d d', by simp [evaluateAnyNested, he, he'], max_le_max hd hd'⟩

end

end

end Logging.Filter
