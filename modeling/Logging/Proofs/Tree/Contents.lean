import Logging.Proofs.Tree.Changes

/-!
# What is set on nodes

Filters and attachments are the contents of a node: the tree looks at neither. Whatever is done to a
tree leaves the contents of a node, or takes them away, unless it is done to set them. So a property
of contents that nodes have on which nothing is set stays with all nodes (`Tree.Each`).
-/

namespace Logging

variable {P : Node → Prop}

/-- The property is about the filter and the attachments of a node alone, and nodes without either
have it. -/
structure Node.OfContents (P : Node → Prop) : Prop where
  empty : ∀ a : Node, a.filter? = none → a.attachments = {} → P a
  same : ∀ {a b : Node}, b.filter? = a.filter? → b.attachments = a.attachments → P a → P b

/-- What is said of the filter of a node, if there is one. -/
lemma Node.ofContents_filter (Q : NodeFilter → Prop) :
    OfContents fun a => ∀ f ∈ a.filter?, Q f where
  empty _ h _ f hf := by
    rw [h] at hf
    cases hf
  same hf _ h f hb := h f (hf ▸ hb)

namespace Tree

variable {t : Tree} {n : NodeId} {f : Node → Node}

/-- All nodes have the property. -/
def Each (P : Node → Prop) (t : Tree) : Prop := ∀ n, P (t.node n)

lemma Each.modify (ht : t.Each P) (n : NodeId) (hf : P (t.node n) → P (f (t.node n))) :
    (t.modify n f).Each P := by
  intro m
  rw [node_modify]
  split_ifs with h
  · obtain ⟨rfl, -⟩ := h
    exact hf (ht n)
  · exact ht m

lemma Each.modifyAll (ht : t.Each P) (ns : List NodeId) (hf : ∀ a, P a → P (f a)) :
    (t.modifyAll ns f).Each P := by
  induction ns generalizing t with
  | nil => exact ht
  | cons n ns ih => exact ih (ht.modify n (hf _))

section

variable (hP : Node.OfContents P)

include hP

lemma each_new (baseline : Int) (strong : Bool) : (new baseline strong).Each P := fun n =>
  hP.empty _ (field_new Node.filter? baseline strong n rfl)
    (field_new Node.attachments baseline strong n rfl)

lemma Each.newChild (ht : t.Each P) (n : NodeId) (k : String) : (t.newChild n k).Each P := by
  have hpush : (t.push (t.freshChild n k)).Each P := by
    intro m
    by_cases hm : m = t.nodes.next
    · rw [hm, node_push_self]
      exact hP.empty _ rfl rfl
    · rw [node_push_of_ne _ hm]
      exact ht m
  rw [newChild_eq]
  exact hpush.modify n (hP.same rfl rfl)

lemma Each.getOrCreate (ht : t.Each P) (n : NodeId) (path : List String) :
    (t.getOrCreate n path).2.Each P := by
  induction path generalizing t n with
  | nil => exact ht
  | cons k path ih =>
    rw [Tree.getOrCreate]
    cases t.child? n k with
    | some c => exact ih ht c
    | none => exact ih (ht.newChild hP n k) t.nodes.next

lemma Each.drop (ht : t.Each P) (n : NodeId) : (t.drop n).Each P := by
  intro m
  by_cases hm : n = m
  · rw [node_of_not_contains fun h => (contains_drop.1 h).1 hm]
    exact hP.empty _ rfl rfl
  · rw [node_drop_of_ne hm]
    exact ht m

lemma Each.removeChild (ht : t.Each P) (p : NodeId) (k : String) (c : NodeId) :
    (t.removeChild p k c).Each P :=
  (ht.modify p (hP.same rfl rfl)).drop hP c

lemma Each.setLevel (ht : t.Each P) (n : NodeId) (l? : Option Level) :
    (t.setLevel n l?).Each P := by
  rw [setLevel_eq]
  exact (ht.modify n (hP.same rfl rfl)).modifyAll _ fun _ => hP.same rfl rfl

lemma Each.reset (ht : t.Each P) (n : NodeId) : (t.reset n).Each P := by
  rw [reset_eq]
  exact (ht.modifyAll _ fun _ _ => hP.empty _ rfl rfl).modify n (hP.same rfl rfl)

lemma Each.takeDown (ht : t.Each P) (n : NodeId) : (t.takeDown n).Each P :=
  ht.modifyAll _ fun _ => hP.same rfl rfl

end

end Tree

end Logging
