import Logging.Filter.Evaluate
import Logging.Session.Run

/-!
# Delivery of records

A record that is logged passes a gate of levels, then the filters of its node and perhaps of the
nodes above, and is then delivered to the sinks of the node and perhaps of the nodes above. What
predicates, sinks and hooks do is left open here: `Calls` says how to call them.
-/

namespace Logging

/-- How to call the code that a program gave to the tree. -/
structure Calls where
  predicate : BoundPredicate → Record → Run Filter.Outcome
  /-- Give a record to a sink; the answer is what went wrong. -/
  publish : SinkId → Record → Run (Option Fault)
  flush : SinkId → Run (Option Fault)
  hook : BoundHook → Run Unit

namespace Run

variable (calls : Calls)

/-! ### Filters -/

/-- Run the filter of a node, if it has one. The filter stays while it runs, even if it is taken
off the node. -/
def ownFilter (n : NodeId) (r : Record) : Run Filter.Outcome := do
  match (← node n).filter? with
  | some f => borrowing (Session.refsOfFilter f) (f.evaluate calls.predicate r)
  | none => return (true, r)

/-- Run the filters along a path upwards, up to the first that rejects and no further than nodes
defer to their parents. -/
def filterChain : List NodeId → Record → Run Filter.Outcome
  | [], r => return (true, r)
  | n :: path, r => do
    let (verdict, r) ← ownFilter calls n r
    if !verdict then return (false, r)
    else if (← node n).useParentFilters then filterChain path r
    else return (true, r)

/-- Run the filters that apply at a node. -/
def isLoggable (n : NodeId) (r : Record) : Run Filter.Outcome := do
  if (← node n).useParentFilters then
    filterChain calls ((← get).tree.lineage n) r
  else
    ownFilter calls n r

/-! ### Sinks -/

/-- Visit the sinks that a node has at this moment, whatever happens to its array meanwhile. -/
def serve (visit : SinkId → Run Unit) (n : NodeId) : Run Unit := do
  let sinks := (← node n).sinks
  borrowing (Session.refsOfSinks sinks) (sinks.sinks.forM visit)

/-- Serve the nodes along a path upwards, as long as the one just served passes on to its
parent. -/
def serveAlong (visit : SinkId → Run Unit) : List NodeId → Run Unit
  | [] => return ()
  | n :: path => do
    serve visit n
    if (← node n).useParentSinks then serveAlong visit path

/-- Tell the error channel of a sink of a failure, and count it. -/
def report (k : SinkId) (operation : SinkOperation) (loggerName : String)
    (message? : Option String) (f : Fault) : Run Unit := do
  let sink := (← get).sink k
  if !(sink.silent || sink.bare) then
    emit (.failed { sink := sink.name, operation, loggerName, message?, fault := f })
  bump .sinkFailures

/-- Give a record to a sink. A failure goes to the sink's error channel and no further. -/
def deliver (r : Record) (k : SinkId) : Run Unit := do
  if let some f ← calls.publish k r then
    emit .sinkRefused
    report k .publish r.loggerName (some r.message) f

def publish (n : NodeId) (r : Record) : Run Unit := do
  serveAlong (deliver calls r) ((← get).tree.lineage n)

def flushSink (loggerName : String) (k : SinkId) : Run Unit := do
  if let some f ← calls.flush k then
    emit .sinkRefused
    report k .flush loggerName none f

/-- Flush the sinks that records logged at a node are delivered to. -/
def flush (n : NodeId) : Run Unit := do
  let name := (← node n).fullName
  serveAlong (flushSink calls name) ((← get).tree.lineage n)

/-! ### Logging -/

/-- Offer a record to a node: level, filters, sinks, and the count of what became of it. -/
def offer (n : NodeId) (r : Record) : Run Unit := do
  let node ← node n
  if !node.isEnabled r.level then
    bump .belowLevel
  else
    let r := if r.loggerName.isEmpty then { r with loggerName := node.fullName } else r
    let (verdict, r) ← isLoggable calls n r
    if verdict then
      publish calls n r
      bump .published
    else
      bump .filtered

/-- Log a record through a handle. -/
def logRecord (h : HandleId) (r : Record) : Run Unit := do
  offer calls (← nodeOf h) r
  emit .logReturned

/-- Log a message through a handle. A record is made of it only if the level passes. -/
def log (h : HandleId) (l : Level) (message : String) : Run Unit := do
  let n ← nodeOf h
  if (← node n).isEnabled l then
    offer calls n { level := l, message }
  else
    bump .belowLevel
  emit .logReturned

/-- Log a message that is made only if its level passes; the answer is how often it was made. -/
def logLazily (h : HandleId) (l : Level) (message : Unit → String) : Run Nat := do
  if (← node (← nodeOf h)).isEnabled l then
    log calls h l (message ())
    return 1
  else
    return 0

/-! ### Closing -/

/-- Run hooks in order. Those that are left stay while one runs, and go if it stops. -/
def runHooks : List BoundHook → Run Unit
  | [] => return ()
  | h :: hs => borrowing (Session.refsOfHooks hs) do
    borrowing (Session.refsOfHooks [h]) do
      emit (.hookStarted h.number)
      calls.hook h
    runHooks hs

/-- Close the namespace: run its hooks, then reset the tree. From the start on no hook is
accepted. -/
def close : Run Unit := do
  match (← get).scope? with
  | none => stop (.unknown "namespace")
  | some ns =>
    modifyNamespace fun ns => { ns with closed := true, hooks := [] }
    runHooks calls ns.hooks
    reset Tree.root
    let _ ← reclaim

end Run

end Logging
