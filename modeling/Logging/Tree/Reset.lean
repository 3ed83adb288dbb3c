import Logging.Tree.Levels

/-!
# Resetting and taking down

A reset makes a node and all nodes below it like new and cuts them off from each other, so that
later lookups make new nodes. The nodes below lose touch with the tree: they get the baseline as
their effective level, whatever their parents have.
-/

namespace Logging

/-- The node without anything that was set on it, and without children. -/
def Node.blank (n : Node) (severity : Int) : Node :=
  { n with
    children := ∅
    sinks := n.sinks.clear
    filter? := none
    useParentFilters := false
    useParentSinks := true
    level? := none
    effective := severity
    attachments := {} }

namespace Tree

/-- Reset a node and the nodes below it; the node itself inherits its level again. -/
def reset (t : Tree) (n : NodeId) : Tree :=
  let t := t.modifyAll (n :: t.below n) (Node.blank · t.baseline)
  t.modify n (setEffective (t.inherited n))

/-- Cut all links from parents to children from a node downwards, and leave the rest as it is. -/
def takeDown (t : Tree) (n : NodeId) : Tree :=
  t.modifyAll (n :: t.below n) fun node => { node with children := ∅ }

end Tree

end Logging
