import Logging.Filter.Printer
import Logging.Session.Basic

/-!
# Descriptions

What a client is shown of nodes, handles and namespaces.
-/

namespace Logging

/-- The settings and the state of a node. -/
structure NodeInfo where
  name : String
  fullName : String
  isRoot : Bool
  /-- The full name of the parent. -/
  parent? : Option String
  level? : Option Level
  effective : Int
  filter? : Option String
  useParentFilters : Bool
  useParentSinks : Bool
  sinks : List String
  children : Nat
  live : Nat
  hasLive : Bool
deriving DecidableEq, Repr

namespace Session

def sinkNames (s : Session) (a : NodeSinks) : List String := a.sinks.map fun k => (s.sink k).name

def nodeInfo (s : Session) (n : NodeId) : NodeInfo :=
  let node := s.node n
  { name := node.name
    fullName := node.fullName
    isRoot := node.isRoot
    parent? := node.parent?.map fun p => (s.node p).fullName
    level? := node.level?
    effective := node.effective
    filter? := node.filter?.map Filter.render
    useParentFilters := node.useParentFilters
    useParentSinks := node.useParentSinks
    sinks := s.sinkNames node.sinks
    children := node.children.size
    live := node.liveHandles.length
    hasLive := node.hasLiveHandles }

/-- A structure with its parts named. -/
def describeFields (head : String) (fields : List (String × String)) : String :=
  head ++ " \x7b " ++ String.intercalate ", " (fields.map fun f => f.1 ++ ": " ++ f.2) ++ " \x7d"

/-- Names in quotes, as a list. -/
def describeNames (names : List String) : String :=
  "[" ++ String.intercalate ", " (names.map Text.Quoted.shown) ++ "]"

def describeNode (s : Session) (n : NodeId) : String :=
  let node := s.node n
  describeFields "LoggerNode" [
    ("full_name", Text.Quoted.shown node.fullName),
    ("level", match node.level? with
      | some l => "Some(" ++ l.describe ++ ")"
      | none => "None"),
    ("effective_level", toString node.effective),
    ("sinks", describeNames (s.sinkNames node.sinks)),
    ("children", toString node.children.size)]

def describeHandle (s : Session) (h : HandleId) : String :=
  describeFields "Logger" [
    ("name", Text.Quoted.shown (s.node (s.nodeOf h)).fullName),
    ("handle", toString h)]

/-- A namespace; in place of its number, which differs from run to run, stands a `#`. -/
def describeNamespace (s : Session) (ns : Namespace) : String :=
  describeFields "Namespace" [
    ("id", "#"),
    ("strong_children", toString s.tree.strong),
    ("closed", toString ns.closed)]

end Session

end Logging
