import Logging.Level.Basic
import Logging.Pattern.Engine

/-!
# Filters

A filter accepts or rejects a record and may change it on the way. The kinds of filters are
fixed, apart from predicates that a program registers under a name: these are of a type `π` of
which this module knows nothing.

A filter that was looked up under a name keeps that name and what it stands for.
-/

namespace Logging

inductive Filter (π : Type)
  | accept
  | deny
  | not (inner : Filter π)
  /-- Accepts if every part does; the first rejection ends it. -/
  | all (parts : List (Filter π))
  /-- Accepts if some part does; the first acceptance ends it. -/
  | any (parts : List (Filter π))
  /-- Accepts the severities of the listed levels. -/
  | levels (levels : List Level)
  | levelRange (min : Level) (minIncluded : Bool) (max : Level) (maxIncluded : Bool)
  /-- Gives the record another level. -/
  | levelChange (level : Level)
  | «match» (pattern : Pattern)
  /-- Changes the message where the pattern matches, once or everywhere. -/
  | substitute (pattern : Pattern) (replacement : String) (everywhere : Bool)
  /-- A predicate of the program, under its name. -/
  | named (name : String) (predicate : π)
  /-- A reference by name to a filter, with what it stands for. -/
  | reference (name : String) (inner : Filter π)

namespace Filter

variable {π : Type}

instance : Inhabited (Filter π) := ⟨accept⟩

/-- The filter as it is looked up under a name. -/
def registeredAs (name : String) : Filter π → Filter π
  | named _ p => named name p
  | reference _ f => reference name f
  | f => reference name f

mutual

/-- The predicates that occur in a filter, from left to right. -/
def predicates : Filter π → List π
  | not f => f.predicates
  | all fs => predicatesList fs
  | any fs => predicatesList fs
  | named _ p => [p]
  | reference _ f => f.predicates
  | _ => []

def predicatesList : List (Filter π) → List π
  | [] => []
  | f :: fs => f.predicates ++ predicatesList fs

end

end Filter

end Logging
