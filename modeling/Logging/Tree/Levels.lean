import Logging.Tree.Basic

/-!
# Levels in a tree

A node has an effective level: the severity of its own level, or else what its parent has. Setting
a level passes the new severity on to the nodes below that inherit it. Where a node has a level of
its own, or has that severity already, nothing changes further down.
-/

namespace Logging.Tree

def effective (t : Tree) (n : NodeId) : Int := (t.node n).effective

/-- The severity that a node without a level of its own has. -/
def inherited (t : Tree) (n : NodeId) : Int :=
  match (t.node n).parent? with
  | some p => t.effective p
  | none => t.baseline

/-- The nodes below a node to which a severity is passed on, no further down than `depth`. -/
def heirsWithin (t : Tree) (severity : Int) : (depth : Nat) → NodeId → List NodeId
  | 0, _ => []
  | depth + 1, n => (t.children n).flatMap fun c =>
    if (t.node c).level?.isSome || t.effective c == severity then []
    else c :: t.heirsWithin severity depth c

def setEffective (severity : Int) (n : Node) : Node := { n with effective := severity }

/-- Set the level of a node, or take it away. -/
def setLevel (t : Tree) (n : NodeId) (level? : Option Level) : Tree :=
  let severity := (level?.map Level.severity).getD (t.inherited n)
  let heirs := if t.effective n = severity then [] else t.heirsWithin severity t.nodes.next n
  (t.modify n fun node => { node with level?, effective := severity }).modifyAll heirs
    (setEffective severity)

end Logging.Tree
