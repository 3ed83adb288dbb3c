import Logging.Level.Owners
import Logging.Level.Registry
import Logging.Metrics.Basic
import Logging.Sink.Failure
import Logging.Tree.Reset

/-!
# Sessions

A session is a namespace with everything that refers to it: the tree, the handles and sinks that
exist, the notices of handles that came to their end, and what a client holds under names of its
own. The tree is shared by all handles and outlives the namespace.
-/

namespace Logging

/-- A thing that exists for as long as something refers to it. -/
inductive Ref
  | node (n : NodeId)
  | handle (h : HandleId)
  | sink (s : SinkId)
deriving DecidableEq, Repr

abbrev BoundAction := Action HandleId SinkId
abbrev BoundSink := Sink HandleId SinkId
abbrev BoundHook := Hook HandleId SinkId
abbrev NodeSinks := SinkArray SinkId

/-- What happens while a step is taken, in order. The first eight kinds are told by the callbacks
themselves; the others keep account of calls. -/
inductive Event
  | noted (text : String)
  | published (sink : String) (level : Level) (message loggerName : String)
  | flushed (sink : String)
  | failed (failure : SinkFailure)
  | sinkRemoved (found : Bool)
  | touched (name : String)
  | reclaimed (count : Nat)
  | hookAdded (fault? : Option Fault)
  /-- A call to log a record came back. -/
  | logReturned
  /-- A sink gave back a fault. -/
  | sinkRefused
  | hookAccepted (number : Nat)
  | hookStarted (number : Nat)
deriving DecidableEq, Repr

/-- A handle came to its end. -/
structure Notice where
  node : NodeId
  handle : HandleId
deriving DecidableEq, Repr

/-- A walk over the live names of a tree: the nodes that are still to be visited. -/
structure LiveNames where
  pending : List NodeId
deriving DecidableEq, Repr

/-- The named things of a namespace. -/
structure Namespace where
  levels : LevelRegistry
  filters : Dict String NodeFilter := ∅
  hooks : List BoundHook := []
  /-- The number of the next hook. -/
  nextHook : Nat := 0
  closed : Bool := false

/-- What a client holds, each kind of thing under names of its own. -/
structure Client where
  handles : Dict String HandleId := ∅
  nodes : Dict String NodeId := ∅
  sinks : Dict String SinkId := ∅
  arrays : Dict String NodeSinks := ∅
  filters : Dict String NodeFilter := ∅
  keys : Dict String AttachmentKey := ∅
  /-- How many keys were made. -/
  keyCount : Nat := 0
  walks : Dict String LiveNames := ∅
  levels : LevelOwners := {}

structure Session where
  tree : Tree
  /-- The handles by number, each with its node. -/
  handles : Store NodeId := Store.empty
  sinks : Store BoundSink := Store.empty
  /-- Ends of handles that were not yet dealt with, oldest first. -/
  notices : List Notice := []
  metrics : Metrics := {}
  /-- The namespace, gone once it was dropped. -/
  scope? : Option Namespace
  client : Client := {}
  /-- What running calls hold on to. -/
  inUse : List Ref := []
  journal : List Event := []

namespace Session

/-! ### References -/

def refsOfActions (actions : List BoundAction) : List Ref :=
  actions.flatMap fun a => a.handles.map Ref.handle ++ a.sinks.map Ref.sink

def refsOfFilter (f : NodeFilter) : List Ref :=
  f.predicates.flatMap fun p => refsOfActions p.actions

def refsOfSinks (a : NodeSinks) : List Ref := a.sinks.map Ref.sink

def refsOfHooks (hooks : List BoundHook) : List Ref :=
  hooks.flatMap fun h => refsOfActions h.actions

def refsOfNode (n : Node) : List Ref :=
  n.parent?.toList.map Ref.node ++ n.children.values.map Ref.node ++ refsOfSinks n.sinks ++
    n.filter?.toList.flatMap refsOfFilter

def refsOfNamespace (ns : Namespace) : List Ref :=
  .node Tree.root :: ns.filters.values.flatMap refsOfFilter ++ refsOfHooks ns.hooks

def refsOfClient (c : Client) : List Ref :=
  c.handles.values.map Ref.handle ++ c.nodes.values.map Ref.node ++ c.sinks.values.map Ref.sink ++
    c.arrays.values.flatMap refsOfSinks ++ c.filters.values.flatMap refsOfFilter ++
    c.walks.values.flatMap fun w => w.pending.map Ref.node

/-- Everything that refers to a node, a handle or a sink, once for each time it does. -/
def refs (s : Session) : List Ref :=
  s.inUse ++ refsOfClient s.client ++ s.scope?.toList.flatMap refsOfNamespace ++
    s.handles.toList.map (fun h => .node h.2) ++
    s.sinks.toList.flatMap (fun k => refsOfActions k.2.allActions) ++
    s.tree.nodes.toList.flatMap fun n => refsOfNode n.2

/-- How many references to a thing there are. -/
def owners (s : Session) (r : Ref) : Nat := s.refs.count r

/-- The handles, nodes and sinks that exist. -/
def things (s : Session) : List Ref :=
  s.handles.toList.map (fun h => .handle h.1) ++ s.tree.nodes.toList.map (fun n => .node n.1) ++
    s.sinks.toList.map fun k => .sink k.1

/-! ### The end of things -/

/-- End a thing. The end of a handle is noticed for later. -/
def destroy (s : Session) : Ref → Session
  | .node n => { s with tree := { s.tree with nodes := s.tree.nodes.erase n } }
  | .sink k => { s with sinks := s.sinks.erase k }
  | .handle h =>
    { s with
      handles := s.handles.erase h
      notices := s.notices ++ (s.handles.get? h).toList.map fun n => ⟨n, h⟩ }

/-- A thing that nothing refers to, if there is one. -/
def unowned? (s : Session) : Option Ref :=
  let refs := s.refs
  s.things.find? fun r => !refs.contains r

def settleWithin : Nat → Session → Session
  | 0, s => s
  | n + 1, s =>
    match s.unowned? with
    | none => s
    | some r => settleWithin n (s.destroy r)

/-- End everything that nothing refers to, and what only that referred to, and so on. Things that
refer to each other in a circle stay. -/
def settle (s : Session) : Session := s.settleWithin s.things.length

/-! ### Access -/

def node (s : Session) (n : NodeId) : Node := s.tree.node n

/-- The node of a handle. -/
def nodeOf (s : Session) (h : HandleId) : NodeId := (s.handles.get? h).getD Tree.root

def sink (s : Session) (k : SinkId) : BoundSink := (s.sinks.get? k).getD { name := "" }

def modifyNode (s : Session) (n : NodeId) (f : Node → Node) : Session :=
  { s with tree := s.tree.modify n f }

def bump (s : Session) (c : Counter) : Session := { s with metrics := s.metrics.bump c }

/-- Whether an owned level is alive. -/
def levelAlive (s : Session) : Nat → Bool := s.client.levels.alive

end Session

end Logging
