import Logging.Filter.Basic
import Logging.Record.Basic

/-!
# Evaluating filters

A filter is evaluated on a record, and gives its verdict and the record as it is then. How a
predicate is called is left open: it may have effects of its own, in any monad, and so the laws of
filters hold whatever the predicates do. A change stands even where the part that made it goes on
to reject.
-/

namespace Logging.Filter

/-- The verdict on a record, with the record as it was left. -/
abbrev Outcome := Bool × Record

/-- Whether a severity lies between two levels, each end included or not. -/
def inRange (min : Level) (minIncluded : Bool) (max : Level) (maxIncluded : Bool) (s : Int) :
    Bool :=
  (if minIncluded then min.severity ≤ s else min.severity < s) &&
    (if maxIncluded then s ≤ max.severity else s < max.severity)

variable {π : Type} {m : Type → Type} [Monad m] (call : π → Record → m Outcome)

mutual

/-- Evaluate a filter on a record, with `call` for the predicates in it. -/
def evaluate : Filter π → Record → m Outcome
  | accept, r => pure (true, r)
  | deny, r => pure (false, r)
  | not f, r => do
    let (verdict, r) ← evaluate f r
    pure (!verdict, r)
  | all fs, r => evaluateAll fs r
  | any fs, r => evaluateAny fs r
  | levels ls, r => pure (ls.any (·.severity == r.severity), r)
  | levelRange min minIn max maxIn, r => pure (inRange min minIn max maxIn r.severity, r)
  | levelChange l, r => pure (true, { r with level := l })
  | «match» p, r => pure (p.isMatch r.message, r)
  | substitute p replacement everywhere, r =>
    pure (true, { r with message := p.replace everywhere replacement r.message })
  | named _ p, r => call p r
  | reference _ f, r => evaluate f r

/-- Evaluate filters in turn up to the first rejection. -/
def evaluateAll : List (Filter π) → Record → m Outcome
  | [], r => pure (true, r)
  | f :: fs, r => do
    let (verdict, r) ← evaluate f r
    if verdict then evaluateAll fs r else pure (false, r)

/-- Evaluate filters in turn up to the first acceptance. -/
def evaluateAny : List (Filter π) → Record → m Outcome
  | [], r => pure (false, r)
  | f :: fs, r => do
    let (verdict, r) ← evaluate f r
    if verdict then pure (true, r) else evaluateAny fs r

end

end Logging.Filter
