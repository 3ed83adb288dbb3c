import Logging.Session.Reclaim

/-!
# Calls

A call changes the session and gives an answer, or stops before it has one; what it changed up to
then stays changed. While a call runs it holds on to the things it works on, and they come to
their end when it lets go of them, whether it stopped or not.
-/

namespace Logging

/-- Why a call has no answer. -/
inductive Stop
  | fault (f : Fault)
  /-- An action broke it off. -/
  | aborted
  /-- Callbacks were nested too deeply. -/
  | exhausted
  /-- There is nothing of this name. -/
  | unknown (name : String)
deriving DecidableEq, Repr

abbrev Run := ExceptT Stop (StateM Session)

namespace Run

variable {α : Type}

def stop (s : Stop) : Run α := throw s

def fault (f : Fault) : Run α := throw (.fault f)

def ofExcept : Except Fault α → Run α
  | .ok a => return a
  | .error f => fault f

def emit (e : Event) : Run Unit := modify fun s => { s with journal := s.journal ++ [e] }

def bump (c : Counter) : Run Unit := modify (Session.bump · c)

/-- End everything that nothing refers to any more. -/
def settle : Run Unit := modify Session.settle

/-- Run a call that holds on to some things. -/
def borrowing (refs : List Ref) (call : Run α) : Run α :=
  ExceptT.mk fun s =>
    let (answer, s') := call.run { s with inUse := refs ++ s.inUse }
    (answer, { s' with inUse := s.inUse }.settle)

def modifyNode (n : NodeId) (f : Node → Node) : Run Unit := modify (Session.modifyNode · n f)

def node (n : NodeId) : Run Node := return (← get).node n

def nodeOf (h : HandleId) : Run NodeId := return (← get).nodeOf h

/-- Deal with the ends of handles; the answer is how many there were. -/
def reclaim : Run Nat := modifyGet Session.reclaim

/-! ### Handles -/

/-- A new handle for a node. The node has it on its list from the start, and the ends of other
handles are dealt with before it is used. -/
def withHandle (n : NodeId) (use : HandleId → Run α) : Run α := do
  let h := (← get).handles.next
  modify fun s => { s with handles := s.handles.push n }
  modifyNode n fun node => { node with liveHandles := h :: node.liveHandles }
  borrowing [.handle h] do
    let _ ← reclaim
    use h

/-- The node of a path, made where it is missing. -/
def getOrCreate (n : NodeId) (name : String) : Run NodeId :=
  modifyGet fun s =>
    let (c, tree) := s.tree.getOrCreate n (Path.ofString name)
    (c, { s with tree })

def find? (n : NodeId) (name : String) : Run (Option NodeId) :=
  return (← get).tree.find? n (Path.ofString name)

/-- A handle for the logger of a name. -/
def logger (name : String) (use : HandleId → Run α) : Run α := do
  let _ ← reclaim
  withHandle (← getOrCreate Tree.root name) use

/-! ### Changes to a node -/

def setLevel (n : NodeId) (level? : Option Level) : Run Unit :=
  modify fun s => { s with tree := s.tree.setLevel n level? }

def reset (n : NodeId) : Run Unit :=
  modify fun s => { s with tree := s.tree.reset n }.settle

def setFilter (n : NodeId) (filter? : Option NodeFilter) : Run Unit := do
  modifyNode n fun node => { node with filter? }
  settle

/-- Change the sinks of a node; the answer comes from the change. -/
def changeSinks (n : NodeId) (f : NodeSinks → α × NodeSinks) : Run α := do
  let (a, sinks) := f (← node n).sinks
  modifyNode n fun node => { node with sinks }
  settle
  return a

def addSink (n : NodeId) (k : SinkId) : Run Unit := changeSinks n fun a => ((), a.add k)

def removeSink (n : NodeId) (k : SinkId) : Run Bool := changeSinks n fun a => a.remove k

/-! ### Hooks -/

def modifyNamespace (f : Namespace → Namespace) : Run Unit :=
  modify fun s => { s with scope? := s.scope?.map f }

/-- Register a hook, unless the namespace was closed. -/
def addHook (actions : List BoundAction) : Run Unit := do
  match (← get).scope? with
  | none => stop (.unknown "namespace")
  | some ns =>
    if ns.closed then fault .closed
    modifyNamespace fun ns =>
      { ns with hooks := ns.hooks ++ [⟨ns.nextHook, actions⟩], nextHook := ns.nextHook + 1 }
    emit (.hookAccepted ns.nextHook)

end Run

end Logging
