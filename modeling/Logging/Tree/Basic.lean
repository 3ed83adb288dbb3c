import Logging.Action
import Logging.Attachment
import Logging.Data.Dict
import Logging.Data.Store
import Logging.Sink.Array
import Logging.Tree.Path

/-!
# Logger trees

A tree has a node for each path that was asked for. A node knows its parent and, by segment, its
children; both are numbers of nodes in the store of the tree. A node that was removed from its
parent's children keeps its parent, so walks up the tree are the same as before. Parents are always
older than their children, which is why such walks end.

What a change makes of the nodes is said by `node_modify` and `node_modifyAll`.
-/

namespace Logging

abbrev NodeId := Nat
abbrev HandleId := Nat
abbrev SinkId := Nat

/-- Predicates with their handles and sinks bound. -/
abbrev BoundPredicate := Predicate HandleId SinkId

/-- Filters that nodes may have. -/
abbrev NodeFilter := Filter BoundPredicate

structure Node where
  parent? : Option NodeId
  name : String
  fullName : String
  children : Dict String NodeId := ∅
  sinks : SinkArray SinkId
  filter? : Option NodeFilter := none
  useParentFilters : Bool := false
  useParentSinks : Bool := true
  level? : Option Level := none
  effective : Int
  attachments : Attachments := {}
  /-- The handles whose end was not yet dealt with. -/
  liveHandles : List HandleId := []

namespace Node

instance : Inhabited Node := ⟨⟨none, "", "", ∅, default, none, false, true, none, 0, {}, []⟩⟩

/-- Whether the node has no parent. -/
def isRoot (n : Node) : Bool := n.parent?.isNone

def hasLiveHandles (n : Node) : Bool := !n.liveHandles.isEmpty

/-- Whether nothing tells the node from one that was just made. -/
def isDefault (n : Node) : Bool :=
  n.level?.isNone && n.filter?.isNone && n.sinks.isEmpty && !n.useParentFilters &&
    n.useParentSinks && n.children.isEmpty && n.attachments.isEmpty && !n.hasLiveHandles

/-- Whether a record of a level passes: it must reach the effective level, which must not be the
one that turns everything off. -/
def isEnabled (n : Node) (l : Level) : Bool :=
  n.effective != Level.greatestSeverity && n.effective ≤ l.severity

/-- The full name of a child. An empty segment below the root shows as a single dot. -/
def childName (n : Node) (segment : String) : String :=
  if n.isRoot then (if segment = "" then "." else segment)
  else n.fullName ++ "." ++ segment

end Node

/-- The nodes of a namespace, and what they have in common. -/
structure Tree where
  nodes : Store Node
  /-- The severity of a root without a level of its own. -/
  baseline : Int
  /-- Whether nodes stay when nothing needs them. -/
  strong : Bool

namespace Tree

/-- The number of the root. -/
def root : NodeId := 0

/-- A tree of a root alone. -/
def new (baseline : Int) (strong : Bool) : Tree where
  nodes := Store.empty.push
    { parent? := none, name := "", fullName := "", sinks := { owner := root }, effective := baseline }
  baseline
  strong

instance : Inhabited Tree := ⟨new 0 true⟩

def node (t : Tree) (n : NodeId) : Node := (t.nodes.get? n).getD default

def contains (t : Tree) (n : NodeId) : Bool := t.nodes.contains n

def modify (t : Tree) (n : NodeId) (f : Node → Node) : Tree :=
  { t with nodes := t.nodes.modify n f }

/-- Change several nodes in the same way. -/
def modifyAll (t : Tree) (ns : List NodeId) (f : Node → Node) : Tree :=
  ns.foldl (fun t n => t.modify n f) t

/-! ### What nodes are after a change -/

theorem contains_modify (t : Tree) (n m : NodeId) (f : Node → Node) :
    (t.modify n f).contains m = t.contains m := by
  simp only [contains, modify, Store.contains, Store.get?_modify]
  split <;> simp

theorem node_modify (t : Tree) (n m : NodeId) (f : Node → Node) :
    (t.modify n f).node m = if n = m ∧ t.contains m then f (t.node m) else t.node m := by
  simp only [node, modify, contains, Store.contains, Store.get?_modify]
  by_cases h : n = m
  · subst h
    by_cases hc : (t.nodes.get? n).isSome
    · obtain ⟨a, ha⟩ := Option.isSome_iff_exists.1 hc
      simp [ha]
    · simp [Option.not_isSome_iff_eq_none.1 hc]
  · simp [h]

theorem contains_modifyAll (t : Tree) (ns : List NodeId) (m : NodeId) (f : Node → Node) :
    (t.modifyAll ns f).contains m = t.contains m := by
  induction ns generalizing t with
  | nil => rfl
  | cons n ns ih => exact (ih (t.modify n f)).trans (contains_modify t n m f)

/-- Nodes are changed alike however often they are listed, if a second change does nothing. -/
theorem node_modifyAll (t : Tree) (ns : List NodeId) (m : NodeId) {f : Node → Node}
    (hf : ∀ n, f (f n) = f n) :
    (t.modifyAll ns f).node m = if m ∈ ns ∧ t.contains m then f (t.node m) else t.node m := by
  induction ns generalizing t with
  | nil => simp [modifyAll]
  | cons n ns ih =>
    have h := ih (t.modify n f)
    simp only [contains_modify, node_modify] at h
    refine h.trans ?_
    by_cases hc : t.contains m
    · by_cases hn : n = m
      · subst hn
        by_cases hm : n ∈ ns <;> simp [hc, hf]
      · simp [hc, hn, Ne.symm hn]
    · simp [hc]

/-! ### Down the tree -/

def child? (t : Tree) (n : NodeId) (segment : String) : Option NodeId :=
  (t.node n).children.get? segment

def children (t : Tree) (n : NodeId) : List NodeId := (t.node n).children.values

/-- The node at the end of a path, if every step of it is there. -/
def find? (t : Tree) (n : NodeId) : List String → Option NodeId
  | [] => some n
  | s :: path => (t.child? n s).bind fun c => t.find? c path

/-- A new child for a segment: it has nothing of its own and inherits its level. -/
def newChild (t : Tree) (n : NodeId) (segment : String) : Tree :=
  let parent := t.node n
  let c := t.nodes.next
  let child : Node := {
    parent? := some n
    name := segment
    fullName := parent.childName segment
    sinks := { owner := c }
    effective := parent.effective }
  let t := { t with nodes := t.nodes.push child }
  t.modify n fun p => { p with children := p.children.insert segment c }

/-- The node at the end of a path, made along with those before it where they are missing. -/
def getOrCreate (t : Tree) (n : NodeId) : List String → NodeId × Tree
  | [] => (n, t)
  | s :: path =>
    match t.child? n s with
    | some c => t.getOrCreate c path
    | none => (t.newChild n s).getOrCreate t.nodes.next path

/-- The nodes below a node, each before those below it, no further down than `depth`. -/
def belowWithin (t : Tree) : (depth : Nat) → NodeId → List NodeId
  | 0, _ => []
  | depth + 1, n => (t.children n).flatMap fun c => c :: t.belowWithin depth c

/-- The nodes below a node. A tree is never deeper than it has nodes. -/
def below (t : Tree) (n : NodeId) : List NodeId := t.belowWithin t.nodes.next n

/-! ### Up the tree -/

/-- A node, its parent, and so on up to the root. -/
def lineage (t : Tree) (n : NodeId) : List NodeId :=
  match (t.node n).parent? with
  | none => [n]
  | some p => if p < n then n :: t.lineage p else [n]
termination_by n

end Tree

end Logging
