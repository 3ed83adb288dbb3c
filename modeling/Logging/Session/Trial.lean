import Logging.Pattern.Compiled
import Logging.Session.Step

/-!
# Starting sessions and trying filters

A session is started from what a client asks for. A trial of a filter registers named filters,
makes the filter, and shows how it is written, whether what is written can be read again, and what
it makes of some records. Here the engine of patterns is chosen.
-/

namespace Logging

/-- What a client asks of a new namespace. -/
structure Request where
  strong : Bool := true
  baseline : Level := .info
  levels : List Level := []
  filters : List (String × FilterSpec) := []

/-- What a trial of a filter shows. -/
structure Trial where
  written : String
  described : String
  /-- How the filter that is read from what is written is written. -/
  reread : Except Fault String
  results : List (Filter.Outcome × List Event)

namespace Run

variable {α : Type}

/-- Register filters in order. -/
def registerAll [Pattern.Engine] (calls : Calls) (filters : List (String × FilterSpec)) :
    Run Unit :=
  filters.forM fun f => do
    let _ ← (Step.registerFilter f.1 f.2).take calls

/-- Evaluate a filter on records in turn, each with what happened on the way. -/
def evaluateAll (calls : Calls) (f : NodeFilter) :
    List Record → Run (List (Filter.Outcome × List Event))
  | [] => return []
  | r :: rs => do
    modify fun s => { s with journal := [] }
    let outcome ← borrowing (Session.refsOfFilter f) (f.evaluate calls.predicate r)
    let journal := (← get).journal
    return (outcome, journal) :: (← evaluateAll calls f rs)

def tryFilter [Pattern.Engine] (calls : Calls) (filters : List (String × FilterSpec))
    (spec : FilterSpec) (records : List Record) : Run Trial := do
  registerAll calls filters
  let f ← buildFilter spec
  let results ← evaluateAll calls f records
  let written := f.render
  return {
    written
    described := f.describe
    reread := ((← get).parseFilter written).map Filter.render
    results }

end Run

namespace Request

open scoped Pattern.Searching

/-- A session with the namespace that was asked for. -/
def start (r : Request) (calls : Calls) : Except Stop Session :=
  match (Run.registerAll calls r.filters).run (Session.new r.strong r.baseline r.levels []) with
  | (.ok (), s) => .ok { s with journal := [] }
  | (.error e, _) => .error e

/-- Take steps in a new session. -/
def takeSteps (r : Request) (calls : Calls) (steps : List Step) : Except Stop (List Report) :=
  (r.start calls).map fun s => (s.steps calls steps).1

/-- Try a filter in a new session. -/
def tryFilter (r : Request) (calls : Calls) (filters : List (String × FilterSpec))
    (spec : FilterSpec) (records : List Record) : Except Stop Trial := do
  let s ← r.start calls
  ((Run.tryFilter calls filters spec records).run s).1

end Request

end Logging
