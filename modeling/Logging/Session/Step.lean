import Logging.Session.Build
import Logging.Session.Callbacks
import Logging.Session.Describe
import Logging.Session.LiveNames

/-!
# Steps of a client

What a client can do with a namespace, one step at a time, and what it is answered. The client
keeps handles, nodes, sinks and other things under names of its own. A name that is used again
lets go of what it stood for once the new thing is there; a handle or a node that gets no name is
let go of at once.
-/

namespace Logging

/-- A node, by its own name or as the node of a handle. -/
inductive Place
  | node (id : String)
  | handle (id : String)
deriving DecidableEq, Repr

inductive Step
  -- handles
  | logger (name : String) (as? : Option String)
  | loggerIfExists (name : String) (as? : Option String)
  | root (as? : Option String)
  | parent (handle : String) (as? : Option String)
  | clone (handle : String) (as? : Option String)
  | dropHandle (handle : String)
  | sameNode (handle other : String)
  | describeHandle (handle : String)
  -- nodes
  | keepNode (handle : String) (as? : Option String)
  | createNode (place : Place) (name : String) (as? : Option String)
  | findNode (place : Place) (name : String) (as? : Option String)
  | dropNode (node : String)
  | nodeInfo (place : Place)
  | describeNode (place : Place)
  | setNodeLevel (place : Place) (level? : Option Level)
  | resetNode (place : Place)
  -- settings of a node
  | setLevel (handle : String) (level? : Option Level)
  | level (handle : String)
  | effective (handle : String)
  | isEnabled (handle : String) (level : Level)
  | setFilter (handle : String) (filter? : Option FilterSpec)
  | filter (handle : String)
  | setUseParentFilters (handle : String) (value : Bool)
  | setUseParentSinks (handle : String) (value : Bool)
  | reset (handle : String)
  -- sinks
  | newSink (id : String) (sink : Sink String String)
  | dropSink (id : String)
  | addSink (handle sink : String)
  | removeSink (handle sink : String)
  | setSinks (handle : String) (sinks : List String) (save? : Option String)
  | clearSinks (handle : String) (save? : Option String)
  | sinks (handle : String) (save? : Option String)
  | compareAndSetSinks (handle expected : String) (sinks : List String)
  -- attachments
  | newKey (id name : String)
  | describeKey (id : String)
  | attach (handle key : String) (value : AttachmentValue)
  | attachIfAbsent (handle key : String) (value : AttachmentValue)
  | detach (handle key : String)
  | attachment (handle key : String)
  -- records
  | log (handle : String) (level : Level) (message : String)
  | logLazily (handle : String) (level : Level) (message : String)
  | logRecord (handle : String) (record : Record)
  | publish (handle : String) (record : Record)
  | isLoggable (handle : String) (record : Record)
  | flush (handle : String)
  -- levels
  | registerLevel (level : Level)
  | holdLevel (id : String) (level : Level)
  | releaseLevel (id : String)
  | unregisterLevel (name : String)
  | levelForName (name : String)
  | levelNames
  -- named filters
  | registerFilter (name : String) (filter : FilterSpec)
  | unregisterFilter (name : String)
  | namedFilter (name : String)
  | keepFilter (id : String) (filter : FilterSpec)
  | evaluateFilter (id : String) (record : Record)
  -- the namespace
  | liveNames
  | startNames (id : String)
  | nextName (id : String)
  | dropNames (id : String)
  | reclaim
  | metrics
  | resetMetrics
  | addHook (actions : List (Action String String))
  | close
  | isClosed
  | settings
  | describeNamespace
  | dropNamespace

inductive Answer
  | nothing
  | flag (b : Bool)
  | number (n : Int)
  | text (s : String)
  | texts (l : List String)
  | level (l : Level)
  /-- Whether a change was made, and the names there are now. -/
  | changed (done : Bool) (names : List String)
  | value (v : AttachmentValue)
  /-- A verdict, and the record as it was left. -/
  | judged (outcome : Filter.Outcome)
  /-- The same of a filter that stands alone, where loggers have no part. -/
  | evaluated (outcome : Filter.Outcome)
  | node (info : NodeInfo)
  | metrics (m : Metrics)
  | settings (strong : Bool) (baseline : Int)

namespace Answer

def text? (s? : Option String) : Answer := (s?.map text).getD nothing

def level? (l? : Option Level) : Answer := (l?.map level).getD nothing

def value? (v? : Option AttachmentValue) : Answer := (v?.map value).getD nothing

end Answer

namespace Run

variable {α : Type}

/-! ### What the client holds -/

def need (d : Client → Dict String α) (id : String) : Run α := do
  match (d (← get).client).get? id with
  | some a => return a
  | none => stop (.unknown id)

def modifyClient (f : Client → Client) : Run Unit := do
  modify fun s => { s with client := f s.client }
  settle

/-- The node of a handle that the client holds. -/
def nodeAt (handle : String) : Run NodeId := do nodeOf (← need Client.handles handle)

def nodeIn : Place → Run NodeId
  | .node id => need Client.nodes id
  | .handle id => nodeAt id

def theNamespace : Run Namespace := do
  match (← get).scope? with
  | some ns => return ns
  | none => stop (.unknown "namespace")

def fullName (n : NodeId) : Run String := return (← node n).fullName

def sinkNames (a : NodeSinks) : Run (List String) := return (← get).sinkNames a

def ofBuild : Except BuildError α → Run α
  | .ok a => return a
  | .error (.fault f) => fault f
  | .error (.unknown id) => stop (.unknown id)

def buildFilter [Pattern.Engine] (spec : FilterSpec) : Run NodeFilter := do
  ofBuild ((← get).buildFilter spec)

/-- Keep a handle under a name, if there is one, and answer the full name of its node. -/
def keepHandle (as? : Option String) (h : HandleId) : Run Answer := do
  let name ← fullName (← nodeOf h)
  if let some id := as? then
    modifyClient fun c => { c with handles := c.handles.insert id h }
  return .text name

def keepNode (as? : Option String) (n : NodeId) : Run Answer := do
  let name ← fullName n
  if let some id := as? then
    modifyClient fun c => { c with nodes := c.nodes.insert id n }
  return .text name

/-- Save an array under a name, if there is one, and answer the names of its sinks. -/
def saveArray (save? : Option String) (a : NodeSinks) : Run Answer := do
  let names ← sinkNames a
  if let some id := save? then
    modifyClient fun c => { c with arrays := c.arrays.insert id a }
  return .texts names

def levelNames : Run Answer := do
  let ns ← theNamespace
  return .texts (ns.levels.names (← get).levelAlive)

/-- Change the attachments of a node. -/
def changeAttachments (n : NodeId)
    (f : Attachments → String → Except Fault (Option AttachmentValue × Attachments)) :
    Run Answer := do
  let node ← node n
  let (old?, attachments) ← ofExcept (f node.attachments node.fullName)
  modifyNode n fun node => { node with attachments }
  return .value? old?

end Run

open Run in
/-- Take a step. -/
def Step.take [Pattern.Engine] (calls : Calls) : Step → Run Answer
  | logger name as? => do
    let _ ← theNamespace
    Run.logger name (keepHandle as?)
  | loggerIfExists name as? => do
    let _ ← theNamespace
    let _ ← Run.reclaim
    match ← find? Tree.root name with
    | some n => withHandle n (keepHandle as?)
    | none => return .nothing
  | root as? => do
    let _ ← theNamespace
    withHandle Tree.root (keepHandle as?)
  | parent h as? => do
    match (← node (← nodeAt h)).parent? with
    | some p => withHandle p (keepHandle as?)
    | none => return .nothing
  | clone h as? => do keepHandle as? (← need Client.handles h)
  | dropHandle h => do
    let held := (← get).client.handles.contains h
    modifyClient fun c => { c with handles := c.handles.erase h }
    return .flag held
  | sameNode h other => return .flag ((← nodeAt h) == (← nodeAt other))
  | describeHandle h => do
    let h ← need Client.handles h
    return .text ((← get).describeHandle h)
  | keepNode h as? => do Run.keepNode as? (← nodeAt h)
  | createNode place name as? => do Run.keepNode as? (← getOrCreate (← nodeIn place) name)
  | findNode place name as? => do
    match ← find? (← nodeIn place) name with
    | some n => Run.keepNode as? n
    | none => return .nothing
  | dropNode n => do
    let held := (← get).client.nodes.contains n
    modifyClient fun c => { c with nodes := c.nodes.erase n }
    return .flag held
  | nodeInfo place => do
    let n ← nodeIn place
    return .node ((← get).nodeInfo n)
  | describeNode place => do
    let n ← nodeIn place
    return .text ((← get).describeNode n)
  | setNodeLevel place level? => do
    Run.setLevel (← nodeIn place) level?
    return .nothing
  | resetNode place => do
    Run.reset (← nodeIn place)
    return .nothing
  | setLevel h level? => do
    Run.setLevel (← nodeAt h) level?
    return .nothing
  | level h => return .level? (← node (← nodeAt h)).level?
  | effective h => return .number (← node (← nodeAt h)).effective
  | isEnabled h l => return .flag ((← node (← nodeAt h)).isEnabled l)
  | setFilter h spec? => do
    let n ← nodeAt h
    match spec? with
    | some spec => Run.setFilter n (some (← buildFilter spec))
    | none => Run.setFilter n none
    return .nothing
  | filter h => return .text? ((← node (← nodeAt h)).filter?.map Filter.describe)
  | setUseParentFilters h value => do
    let n ← nodeAt h
    modifyNode n fun node => { node with useParentFilters := value }
    return .flag (← node n).useParentFilters
  | setUseParentSinks h value => do
    let n ← nodeAt h
    modifyNode n fun node => { node with useParentSinks := value }
    return .flag (← node n).useParentSinks
  | reset h => do
    Run.reset (← nodeAt h)
    return .nothing
  | newSink id sink => do
    let actions ← ofBuild ((← get).bindActions sink.actions)
    let flushActions ← ofBuild ((← get).bindActions sink.flushActions)
    let k := (← get).sinks.next
    modify fun s => { s with sinks := s.sinks.push {
      name := sink.name
      silent := sink.silent
      bare := sink.bare
      publishFault? := sink.publishFault?
      flushFault? := sink.flushFault?
      actions
      flushActions } }
    modifyClient fun c => { c with sinks := c.sinks.insert id k }
    return .nothing
  | dropSink id => do
    let held := (← get).client.sinks.contains id
    modifyClient fun c => { c with sinks := c.sinks.erase id }
    return .flag held
  | addSink h k => do
    let n ← nodeAt h
    Run.addSink n (← need Client.sinks k)
    return .texts (← sinkNames (← node n).sinks)
  | removeSink h k => do
    let n ← nodeAt h
    let done ← Run.removeSink n (← need Client.sinks k)
    return .changed done (← sinkNames (← node n).sinks)
  | setSinks h ids save? => do
    let n ← nodeAt h
    let ks ← ids.mapM (need Client.sinks)
    let before := (← node n).sinks
    let answer ← saveArray save? before
    changeSinks n fun a => (answer, a.set ks)
  | clearSinks h save? => do
    let n ← nodeAt h
    let before := (← node n).sinks
    let answer ← saveArray save? before
    changeSinks n fun a => (answer, a.clear)
  | sinks h save? => do saveArray save? (← node (← nodeAt h)).sinks
  | compareAndSetSinks h expected ids => do
    let n ← nodeAt h
    let expected ← need Client.arrays expected
    let ks ← ids.mapM (need Client.sinks)
    let done ← changeSinks n fun a => a.compareAndSet expected ks
    return .changed done (← sinkNames (← node n).sinks)
  | newKey id name => do
    modifyClient fun c =>
      { c with keys := c.keys.insert id ⟨c.keyCount, name⟩, keyCount := c.keyCount + 1 }
    return .text name
  | describeKey id => return .text (← need Client.keys id).describe
  | attach h key v => do
    let key ← need Client.keys key
    changeAttachments (← nodeAt h) fun a owner => a.attach owner key v
  | attachIfAbsent h key v => do
    let key ← need Client.keys key
    changeAttachments (← nodeAt h) fun a owner => a.attachIfAbsent owner key v
  | detach h key => do
    let key ← need Client.keys key
    changeAttachments (← nodeAt h) fun a _ => .ok (a.detach key)
  | attachment h key => do
    let key ← need Client.keys key
    return .value? ((← node (← nodeAt h)).attachments.get? key)
  | log h l message => do
    Run.log calls (← need Client.handles h) l message
    return .nothing
  | logLazily h l message => do
    let n ← Run.logLazily calls (← need Client.handles h) l fun _ => message
    return .number n
  | logRecord h r => do
    Run.logRecord calls (← need Client.handles h) r
    return .nothing
  | publish h r => do
    Run.publish calls (← nodeAt h) r
    return .nothing
  | isLoggable h r => return .judged (← Run.isLoggable calls (← nodeAt h) r)
  | flush h => do
    Run.flush calls (← nodeAt h)
    return .nothing
  | registerLevel l => do
    let alive := (← get).levelAlive
    modifyNamespace fun ns => { ns with levels := ns.levels.register alive l }
    Run.levelNames
  | holdLevel id l => do
    let _ ← theNamespace
    -- the level that the name stood for is alive until the new one is registered
    let alive := (← get).levelAlive
    let (owned, levels) := (← get).client.levels.hold id l
    modifyNamespace fun ns => { ns with levels := ns.levels.registerWeak alive owned l }
    modifyClient fun c => { c with levels }
    Run.levelNames
  | releaseLevel id => do
    modifyClient fun c => { c with levels := c.levels.release id }
    Run.levelNames
  | unregisterLevel name => do
    let (found, levels) := (← theNamespace).levels.unregister name
    modifyNamespace fun ns => { ns with levels }
    return .flag found
  | levelForName name => do
    let ns ← theNamespace
    return .level (← ofExcept (ns.levels.get (← get).levelAlive name))
  | levelNames => Run.levelNames
  | registerFilter name spec => do
    let f ← buildFilter spec
    modifyNamespace fun ns => { ns with filters := ns.filters.insert name f }
    settle
    return .nothing
  | unregisterFilter name => do
    let f? := (← theNamespace).filters.get? name
    modifyNamespace fun ns => { ns with filters := ns.filters.erase name }
    settle
    return .text? (f?.map Filter.render)
  | namedFilter name => return .text? (((← theNamespace).filters.get? name).map Filter.render)
  | keepFilter id spec => do
    let f ← buildFilter spec
    modifyClient fun c => { c with filters := c.filters.insert id f }
    return .text f.render
  | evaluateFilter id r => do
    let f ← need Client.filters id
    return .evaluated (← f.evaluate calls.predicate r)
  | liveNames => do
    let _ ← theNamespace
    let _ ← Run.reclaim
    return .texts (LiveNames.all (← get).tree)
  | startNames id => do
    let _ ← theNamespace
    let _ ← Run.reclaim
    modifyClient fun c => { c with walks := c.walks.insert id (LiveNames.start Tree.root) }
    return .nothing
  | nextName id => do
    let w ← need Client.walks id
    let tree := (← get).tree
    let (n?, w) := w.next tree
    let name? := n?.map fun n => (tree.node n).fullName
    modifyClient fun c => { c with walks := c.walks.insert id w }
    return .text? name?
  | dropNames id => do
    let held := (← get).client.walks.contains id
    modifyClient fun c => { c with walks := c.walks.erase id }
    return .flag held
  | reclaim => do
    let _ ← theNamespace
    return .number (← Run.reclaim)
  | metrics => return .metrics (← get).metrics
  | resetMetrics => do
    modify fun s => { s with metrics := {} }
    return .nothing
  | addHook actions => do
    let actions ← ofBuild ((← get).bindActions actions)
    Run.addHook actions
    return .nothing
  | close => do
    Run.close calls
    return .flag ((← get).scope?.any (·.closed))
  | isClosed => return .flag (← theNamespace).closed
  | settings => do
    let _ ← theNamespace
    let tree := (← get).tree
    return .settings tree.strong tree.baseline
  | describeNamespace => do
    let ns ← theNamespace
    return .text ((← get).describeNamespace ns)
  | dropNamespace => do
    let present := (← get).scope?.isSome
    if present then
      modify fun s => { s with tree := s.tree.takeDown Tree.root, scope? := none }
      settle
    return .flag present

/-- What came of a step: an answer or the reason why there is none, and what happened on the
way. -/
structure Report where
  answer : Except Stop Answer
  journal : List Event

namespace Session

/-- Take a step in a session. -/
def step [Pattern.Engine] (calls : Calls) (s : Session) (step : Step) : Report × Session :=
  let (answer, s) := (step.take calls).run { s with journal := [] }
  (⟨answer, s.journal⟩, { s with journal := [] })

/-- Take steps one after the other, whether they have answers or not. -/
def steps [Pattern.Engine] (calls : Calls) : Session → List Step → List Report × Session
  | s, [] => ([], s)
  | s, step :: more =>
    let (report, s) := s.step calls step
    let (reports, s) := steps calls s more
    (report :: reports, s)

end Session

end Logging
