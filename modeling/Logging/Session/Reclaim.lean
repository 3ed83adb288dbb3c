import Logging.Session.Basic

/-!
# Reclaiming handles and pruning nodes

When a handle has come to its end, a later pass strikes it off the list of its node. In a tree
that keeps nodes only while they are needed, a node without handles is then removed, provided that
it is like new and that nothing but its parent's children refers to it; after that its parent may
go in the same way.

What is removed is the child that the parent has now for the segment of the node, which may be
another node of the same path.
-/

namespace Logging.Session

/-- Whether a child can be removed: it is like new, and its parent's entry is all that refers
to it. -/
def removable (s : Session) (c : NodeId) : Bool :=
  s.owners (.node c) == 1 && (s.node c).isDefault

/-- Remove a child from its parent. -/
def removeChild (s : Session) (p : NodeId) (segment : String) (c : NodeId) : Session :=
  let s := s.modifyNode p fun node => { node with children := node.children.erase segment }
  (s.destroy (.node c)).bump .nodesPruned

/-- End a node if nothing refers to it. -/
def letGo (s : Session) (n : NodeId) : Session :=
  if s.owners (.node n) = 0 then s.destroy (.node n) else s

/-- Prune along a path that leads up from a node. -/
def pruneAlong : List NodeId → Session → Session
  | n :: p :: path, s =>
    let node := s.node n
    if node.isDefault then
      let s := s.letGo n
      match s.tree.child? p node.name with
      | some c =>
        if s.removable c then pruneAlong (p :: path) (s.removeChild p node.name c) else s
      | none => s
    else s
  | _, s => s

/-- Remove a node that is no longer needed, and then its parents as far as they are not. -/
def prune (s : Session) (n : NodeId) : Session :=
  if s.tree.strong then s else (pruneAlong (s.tree.lineage n) s).settle

/-- Deal with the end of a handle. The node may itself have come to its end. -/
def process (s : Session) (notice : Notice) : Session :=
  let s := s.bump .handlesReclaimed
  if s.tree.contains notice.node then
    let tracked := (s.node notice.node).liveHandles.contains notice.handle
    let s := s.modifyNode notice.node fun node =>
      { node with liveHandles := node.liveHandles.erase notice.handle }
    if tracked && !(s.node notice.node).hasLiveHandles then s.prune notice.node else s
  else s

def reclaimWithin : Nat → Session → Nat × Session
  | 0, s => (0, s)
  | n + 1, s =>
    match s.notices with
    | [] => (0, s)
    | notice :: rest =>
      let (count, s) := reclaimWithin n (({ s with notices := rest } : Session).process notice)
      (count + 1, s)

/-- Deal with all ends of handles, those included that come about on the way; the answer is how
many there were. Each of them is of a handle that was alive or waiting at the start. -/
def reclaim (s : Session) : Nat × Session :=
  reclaimWithin (s.notices.length + s.handles.count) s

end Logging.Session
