import Logging.Proofs.Session.Ends
import Logging.Proofs.Tree.Attachments

/-!
# Courses of a session

A move says that something changed; a deed says what was done, and by which right. A course is a row
of deeds (`Course`), and what a course may contain is set by a licence: whether nodes are worked on
without handles, which nodes are reset, whether the namespace is dropped and the metrics start anew.
An invariant that holds only while some of this does not happen is proved over all courses of a
licence, one deed at a time.
-/

namespace Logging

/-- A change of what was set on a node, which leaves it its place, its levels and its handles. -/
structure Node.Configures (f : Node → Node) : Prop extends Node.Setting f where
  live : ∀ a, (f a).liveHandles = a.liveHandles

lemma Node.configures_filter (filter? : Option NodeFilter) :
    Configures fun a => { a with filter? } where
  toSetting := setting_filter filter?
  live _ := rfl

lemma Node.configures_sinks (sinks : SinkArray SinkId) :
    Configures fun a => { a with sinks } where
  toSetting := setting_sinks sinks
  live _ := rfl

lemma Node.Adjusts.configures {f : Node → Node} (h : Adjusts f) : Configures f where
  toSetting := h.setting
  live a := by
    obtain ⟨pf, ps, attachments, hf⟩ := h a
    rw [hf]

namespace Session

open Relation (ReflTransGen)

variable {s s' : Session} {n m : NodeId} {i : HandleId}

/-! ### Licences -/

/-- What a course may contain beside that which it always may. -/
structure Licence where
  /-- A client keeps nodes, makes them, and works on them without a handle. -/
  nodes : Prop
  /-- A node of a session is reset. -/
  reset : Session → NodeId → Prop
  /-- The namespace is dropped. -/
  drop : Prop
  /-- The metrics start anew. -/
  recount : Prop
  /-- Predicates, sinks and hooks reset nodes and close the namespace. -/
  callbacks : Prop

/-- Whatever there is. -/
def Licence.all : Licence := ⟨True, fun _ _ => True, True, True, True⟩

variable {L : Licence}

/-- The node has a handle, or it is the root. -/
def Bound (s : Session) (n : NodeId) : Prop := n = Tree.root ∨ ∃ i, s.handles.get? i = some n

/-- The node may be worked on. -/
def Open (L : Licence) (s : Session) (n : NodeId) : Prop := L.nodes ∨ s.Bound n

lemma bound_nodeOf (s : Session) (i : HandleId) : s.Bound (s.nodeOf i) := by
  rw [nodeOf]
  cases h : s.handles.get? i with
  | none => exact Or.inl rfl
  | some n => exact Or.inr ⟨i, h⟩

/-! ### Deeds -/

/-- The session with a new handle for a node. -/
def enlist (s : Session) (n : NodeId) : Session :=
  ({ s with handles := s.handles.push n } : Session).modifyNode n fun a =>
    { a with liveHandles := s.handles.next :: a.liveHandles }

/-- The session with a new handle for the node of a name, made where it is missing. -/
def grant (s : Session) (n : NodeId) (name : String) : Session :=
  ({ s with tree := (s.tree.getOrCreate n (Path.ofString name)).2 } : Session).enlist
    (s.tree.getOrCreate n (Path.ofString name)).1

/-- What is done beside the tree, the handles and their ends. -/
structure Beside (L : Licence) (s s' : Session) : Prop where
  tree : s'.tree = s.tree
  handles : s'.handles = s.handles
  notices : s'.notices = s.notices
  reclaimed : L.recount ∨ s'.metrics.handlesReclaimed = s.metrics.handlesReclaimed
  outer : ∀ {n}, .node n ∈ s'.outerRefs → .node n ∈ s.outerRefs ∨ L.nodes
  kept : ∀ {id n}, s'.client.nodes.get? id = some n →
    s.client.nodes.get? id = some n ∨ n < s.tree.nodes.next
  named : s.LevelsNamed → s'.LevelsNamed

/-- One deed: everything that a session does to its tree and its handles is one of these. -/
inductive Deed (L : Licence) (s : Session) : Session → Prop
  | beside {s' : Session} (h : s.Beside L s') : Deed L s s'
  | configure {n : NodeId} {f : Node → Node} (hf : Node.Configures f) (hn : s.Open L n)
      (ha : (s.node n).attachments.Distinct → (f (s.node n)).attachments.Distinct) :
      Deed L s (s.modifyNode n f)
  | setLevel {n : NodeId} (l? : Option Level) (hn : s.Open L n) :
      Deed L s { s with tree := s.tree.setLevel n l? }
  | grow {n : NodeId} (name : String) (hL : L.nodes) (hn : n < s.tree.nodes.next) :
      Deed L s { s with tree := (s.tree.getOrCreate n (Path.ofString name)).2 }
  | grant {n : NodeId} (name : String) (hn : n < s.tree.nodes.next) : Deed L s (s.grant n name)
  | destroy {r : Ref} (hr : r ∉ s.refs) : Deed L s (s.destroy r)
  | process {a : Notice} {rest : List Notice} (ha : s.notices = a :: rest) :
      Deed L s (({ s with notices := rest } : Session).process a)
  | reset {n : NodeId} (hn : s.Open L n) (hr : L.reset s n) :
      Deed L s ({ s with tree := s.tree.reset n } : Session).settle
  | takeDown (hL : L.drop) :
      Deed L s { s with tree := s.tree.takeDown Tree.root, scope? := none }

/-- Any number of deeds. -/
def Course (L : Licence) : Session → Session → Prop := ReflTransGen (Deed L)

lemma Course.refl (s : Session) : s.Course L s := ReflTransGen.refl

lemma Course.trans {s'' : Session} (h : s.Course L s') (h' : s'.Course L s'') : s.Course L s'' :=
  ReflTransGen.trans h h'

lemma Deed.course (h : s.Deed L s') : s.Course L s' := ReflTransGen.single h

lemma Beside.course (h : s.Beside L s') : s.Course L s' := (Deed.beside h).course

/-! ### Deeds are made of moves -/

lemma leads_enlist (hn : n < s.tree.nodes.next) : s.Leads (s.enlist n) :=
  (leads_newHandle hn).trans (leads_configure _ n (Node.setting_live (List.cons s.handles.next)))

lemma leads_grant (hs : s.Sound) (hn : n < s.tree.nodes.next) (name : String) :
    s.Leads (s.grant n name) := by
  obtain ⟨h, hc⟩ := leads_getOrCreate hs hn (Path.ofString name)
  exact h.trans (leads_enlist hc)

lemma Beside.leads (h : s.Beside L s') : s.Leads s' :=
  (Move.aside h.tree (fun hn => Or.inl (h.handles ▸ hn)) h.kept h.named).leads

lemma Deed.leads (h : s.Deed L s') (hs : s.Sound) : s.Leads s' := by
  cases h with
  | beside h => exact h.leads
  | configure hf _ => exact leads_configure s _ hf.toSetting
  | setLevel l? _ => exact leads_change (.setLevel _ l?)
  | grow name _ hn => exact (leads_getOrCreate hs hn _).1
  | grant name hn => exact leads_grant hs hn name
  | destroy hr => exact leads_destroy hr
  | @process a rest _ =>
    have hr : s.Leads { s with notices := rest } := leads_beside rfl rfl rfl id
    exact hr.trans (leads_process _ a)
  | reset => exact (leads_reset s _).trans (leads_settle _)
  | takeDown =>
    refine (leads_change (.takeDown Tree.root)).trans (leads_beside rfl rfl rfl fun _ ns h => ?_)
    cases h

theorem Course.leads (h : s.Course L s') (hs : s.Sound) : s.Leads s' := by
  induction h with
  | refl => exact .refl s
  | tail _ h ih => exact ih.trans (h.leads (ih.sound hs))

/-- What holds at the start of a course and outlives every deed holds at its end. -/
theorem Course.induction {motive : Session → Prop} (h : s.Course L s') (hs : s.Sound)
    (start : motive s) (deed : ∀ s s', s.Sound → s.Deed L s' → motive s → motive s') :
    motive s' := by
  induction h with
  | refl => exact start
  | tail h h' ih => exact deed _ _ (Course.leads h hs |>.sound hs) h' ih

lemma course_settle (s : Session) : s.Course L s.settle :=
  settleWithin_induction (motive := s.Course L)
    (fun _ _ h hr _ => h.trans (Deed.destroy hr).course) _ (.refl s)

lemma course_reclaim (s : Session) : s.Course L s.reclaim.2 :=
  reclaimWithin_induction (motive := s.Course L)
    (fun _ _ _ ha h => h.trans (Deed.process ha).course) _ (.refl s)

end Session

end Logging
