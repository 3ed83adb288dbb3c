import Logging.Session.Basic

/-!
# Live names

A walk over the names of the nodes that have live handles, in order: a node comes before the nodes
below it, and those are in the order of their segments. The children of a node are looked up when
the node is visited, so the walk goes on while the tree changes.
-/

namespace Logging.LiveNames

/-- A walk that begins at a node. -/
def start (n : NodeId) : LiveNames := ⟨[n]⟩

/-- The children of a node in the order of their segments. -/
def sortedChildren (t : Tree) (n : NodeId) : List NodeId :=
  ((t.node n).children.entries.mergeSort fun a b => a.1 ≤ b.1).map Prod.snd

/-- Visit nodes until one has a live handle. -/
def nextWithin (t : Tree) : Nat → List NodeId → Option NodeId × List NodeId
  | 0, pending => (none, pending)
  | _ + 1, [] => (none, [])
  | fuel + 1, n :: pending =>
    let pending := sortedChildren t n ++ pending
    if (t.node n).hasLiveHandles then (some n, pending) else nextWithin t fuel pending

/-- The next node with a live handle. A walk never meets a node twice, so it has no more nodes to
visit than there are. -/
def next (t : Tree) (w : LiveNames) : Option NodeId × LiveNames :=
  let (n?, pending) := nextWithin t (t.nodes.next + w.pending.length + 1) w.pending
  (n?, ⟨pending⟩)

/-- All nodes of a walk, none of the tree's nodes more than once. -/
def drainWithin (t : Tree) : Nat → LiveNames → List NodeId
  | 0, _ => []
  | fuel + 1, w =>
    match w.next t with
    | (some n, w) => n :: drainWithin t fuel w
    | (none, _) => []

/-- The names of all nodes with live handles. -/
def all (t : Tree) : List String :=
  (drainWithin t t.nodes.next (start Tree.root)).map fun n => (t.node n).fullName

end Logging.LiveNames
