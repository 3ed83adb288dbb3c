import Logging.Session.Delivery

/-!
# Running callbacks

Actions use the tree through the same calls as a program from outside, and so may lead to further
callbacks. `Calls.within` bounds how deep they are nested; beyond the bound a call stops.

An action that needs the namespace does nothing once that was dropped.
-/

namespace Logging

namespace Action

/-- Do what an action says. -/
def perform (calls : Calls) : BoundAction → Run Unit
  | note text => Run.emit (.noted text)
  | log h l message => Run.log calls h l message
  | setLevel h level? => do Run.setLevel (← Run.nodeOf h) level?
  | addSink h k => do Run.addSink (← Run.nodeOf h) k
  | removeSink h k => do Run.emit (.sinkRemoved (← Run.removeSink (← Run.nodeOf h) k))
  | reset h => do Run.reset (← Run.nodeOf h)
  | touch name => inNamespace (Run.logger name fun _ => Run.emit (.touched name))
  | reclaim => inNamespace do Run.emit (.reclaimed (← Run.reclaim))
  | close => inNamespace (Run.close calls)
  | addHook text => inNamespace do
    let closed := (← get).scope?.any (·.closed)
    if closed then
      Run.emit (.hookAdded (some .closed))
    else
      Run.addHook [.note text]
      Run.emit (.hookAdded none)
  | abort => Run.stop .aborted
where
  inNamespace (call : Run Unit) : Run Unit := do
    if (← get).scope?.isSome then call

def performAll (calls : Calls) (actions : List BoundAction) : Run Unit :=
  actions.forM (perform calls)

end Action

namespace Predicate

/-- Call a predicate: its verdict comes first, then its actions, then its changes to
the record. -/
def run (calls : Calls) (p : BoundPredicate) (r : Record) : Run Filter.Outcome := do
  Action.performAll calls p.actions
  return (p.accepts r, p.edit r)

end Predicate

namespace Sink

/-- What a bare sink says to a record. -/
def bareFault? (sink : BoundSink) (r : Record) : Option Fault :=
  if occursIn "fail".toList r.message.toList then some (.sink sink.name "refused") else none

def publish (calls : Calls) (sink : BoundSink) (r : Record) : Run (Option Fault) := do
  if sink.bare then
    return sink.bareFault? r
  else
    Run.emit (.published sink.name r.level r.message r.loggerName)
    Action.performAll calls sink.actions
    return sink.publishFault?

def flush (calls : Calls) (sink : BoundSink) : Run (Option Fault) := do
  if sink.bare then
    return none
  else
    Run.emit (.flushed sink.name)
    Action.performAll calls sink.flushActions
    return sink.flushFault?

end Sink

namespace Calls

/-- Calls that run what a program gave to the tree, with further calls nested at most `depth`
deep. -/
def within : (depth : Nat) → Calls
  | 0 => {
    predicate := fun _ _ => Run.stop .exhausted
    publish := fun _ _ => Run.stop .exhausted
    flush := fun _ => Run.stop .exhausted
    hook := fun _ => Run.stop .exhausted }
  | depth + 1 => {
    predicate := fun p r => p.run (within depth) r
    publish := fun k r => do ((← get).sink k).publish (within depth) r
    flush := fun k => do ((← get).sink k).flush (within depth)
    hook := fun h => Action.performAll (within depth) h.actions }

/-- How deep callbacks may be nested. -/
def maxDepth : Nat := 2000

/-- The calls of a session. -/
def all : Calls := within maxDepth

end Calls

end Logging
