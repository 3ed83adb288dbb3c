import Logging.Pattern.Compiled
import Logging.Proofs.Session.Steps
import Logging.Proofs.Tree.Entries

/-!
# Nodes that are owned

Pruning decides on a count of references and looks a child up by its segment. It never takes away an
entry on the way to a node that exists: the parent of an entry is referred to by the child, and a
removed child is like new, so nothing is below it. So a node stays where it is found as long as
something owns it and no node above it is reset (`find?_steps_of_owned`), which is up to the steps
of the client alone if its callbacks reset nothing and do not close (`course_steps_of_isMild`).
-/

namespace Logging.Session

variable {s s' : Session} {n m : NodeId}

/-! ### Entries that stay -/

/-- A child that is removed has no children. -/
lemma child?_of_removable {c : NodeId} (hr : s.removable c) (k : String) :
    s.tree.child? c k = none :=
  Node.children_of_isDefault (isDefault_of_removable hr) k

/-- What ends is on no way to a node that is left. -/
lemma End.upholds (h : s.End s') (hs : s.Sound) (hn : s'.tree.contains n) :
    s.tree.Upholds s'.tree n := by
  have ht := hs.tree.toWellShaped
  cases h with
  | destroy hr => exact Tree.upholds_of_child? fun hk => child?_destroy_of_some ht hr hk
  | @removeChild p c k hc hr =>
    refine ⟨fun {q j d} hd hway => ?_⟩
    show (s.tree.removeChild p k c).child? q j = some d
    have hcq : c ≠ q := by
      rintro rfl
      rw [child?_of_removable hr] at hd
      cases hd
    have hentry : ¬ (p = q ∧ k = j) := by
      rintro ⟨rfl, rfl⟩
      obtain rfl : c = d := Option.some.inj (hc.symm.trans hd)
      rcases hway with rfl | hway
      · exact (Tree.contains_drop.1 hn).1 rfl
      · obtain ⟨j, x, hx, -⟩ := Tree.down_iff_head.1 hway
        rw [child?_of_removable hr] at hx
        cases hx
    rw [Tree.removeChild, Tree.child?_drop, if_neg hcq, Tree.child?_strike, if_neg hentry]
    exact hd

lemma Ends.upholds (h : s.Ends s') (hs : s.Sound) (hn : n < s.tree.nodes.next)
    (hc : s'.tree.contains n) : s.tree.Upholds s'.tree n := by
  induction h with
  | refl => exact .refl _ n
  | tail h h' ih =>
    have hl := Ends.leads h
    have hmid := h'.leads.contains (Nat.lt_of_lt_of_le hn hl.next_le) hc
    exact (ih hmid).trans (h'.upholds (hl.sound hs) hc)

/-! ### Courses that spare a node -/

/-- All is allowed but to reset a node above a given one and to drop the namespace. -/
def Licence.sparing (n : NodeId) : Licence where
  nodes := True
  reset s m := ¬ s.tree.Below m n
  drop := False
  recount := True
  callbacks := False

lemma upholds_of_sameShape {t t' : Tree} (h : t.SameShape t') : t.Upholds t' n :=
  Tree.upholds_of_child? fun {p k _} hk => by rwa [h.child? p k]

lemma upholds_modifyNode (s : Session) {m : NodeId} {f : Node → Node} (hf : Node.Setting f) :
    s.tree.Upholds (s.modifyNode m f).tree n :=
  upholds_of_sameShape (Tree.sameShape_modify s.tree m hf.place)

lemma upholds_grant (hs : s.Sound) (hm : m < s.tree.nodes.next) (name : String) :
    s.tree.Upholds (s.grant m name).tree n := by
  have hgrow : s.tree.Upholds (s.tree.getOrCreate m (Path.ofString name)).2 n :=
    Tree.upholds_of_child? (Tree.child?_getOrCreate_of_some hs.tree.toWellShaped hm)
  exact hgrow.trans (upholds_modifyNode
    { s with tree := (s.tree.getOrCreate m (Path.ofString name)).2 }
    (Node.setting_live (List.cons s.handles.next)))

/-- A reset takes no entry above a node away if the node is not below the one that is reset. -/
lemma upholds_reset (hs : s.Sound) (hm : ¬ s.tree.Below m n) :
    s.tree.Upholds (s.tree.reset m) n := by
  refine ⟨fun {p k c} hk hway => ?_⟩
  have hp := Tree.below_of_child hk hway
  refine (Tree.child?_reset hs.tree.toWellShaped).2 ⟨hk, ?_, fun hb => hm (hb.trans hp)⟩
  rintro rfl
  exact hm hp

lemma Deed.upholds (h : s.Deed (.sparing n) s') (hs : s.Sound) (hn : n < s.tree.nodes.next)
    (hc : s'.tree.contains n) : s.tree.Upholds s'.tree n := by
  cases h with
  | beside h =>
    rw [h.tree]
    exact .refl _ n
  | configure hf _ => exact upholds_modifyNode s hf.toSetting
  | setLevel l? _ => exact upholds_of_sameShape (Tree.sameShape_setLevel s.tree _ l?)
  | grow name _ hm =>
    exact Tree.upholds_of_child? (Tree.child?_getOrCreate_of_some hs.tree.toWellShaped hm)
  | grant name hm => exact upholds_grant hs hm name
  | destroy hr => exact (End.destroy hr).upholds hs hc
  | @process a rest _ =>
    have hl := leads_strikeOff s a rest
    have hu : s.tree.Upholds (({ s with notices := rest } : Session).strikeOff a).tree n :=
      upholds_modifyNode s (Node.setting_live (List.erase · a.handle))
    have hlt := Nat.lt_of_lt_of_le hn hl.next_le
    exact hu.trans ((ends_process _ a).upholds (hl.sound hs) hlt hc)
  | @reset m _ hm =>
    have hl := leads_reset s m
    exact (upholds_reset hs hm).trans
      ((ends_settle _).upholds (hl.sound hs) (Nat.lt_of_lt_of_le hn hl.next_le) hc)
  | takeDown hL => cases hL

/-- While a node is spared, the entries on the way to it stay as long as it exists. -/
theorem Course.upholds (h : s.Course (.sparing n) s') (hs : s.Sound) (hn : n < s.tree.nodes.next)
    (hc : s'.tree.contains n) : s.tree.Upholds s'.tree n := by
  induction h with
  | refl => exact .refl _ n
  | tail h h' ih =>
    have hl := Course.leads h hs
    have hlt := Nat.lt_of_lt_of_le hn hl.next_le
    have hmid := (h'.leads (hl.sound hs)).contains hlt hc
    exact (ih hmid).trans (h'.upholds (hl.sound hs) hlt hc)

/-! ### Owners -/

/-- Something owns a node: a handle, whether a client has it or a callback caught it, a reference
that the client keeps, or a walk that has yet to visit the node. -/
inductive Owned (s : Session) (n : NodeId) : Prop
  | handle {i : HandleId} (h : s.handles.get? i = some n)
  | kept {id : String} (h : s.client.nodes.get? id = some n)
  | pending {id : String} {w : LiveNames} (h : s.client.walks.get? id = some w) (hn : n ∈ w.pending)

lemma Grounded.contains_of_owned (hg : s.Grounded) (hn : s.Owned n) : s.tree.contains n := by
  cases hn with
  | handle h => exact hg.bound h
  | @kept id h =>
    have hc := Run.node_mem_refsOfClient_iff.2 (Or.inl ⟨id, h⟩)
    exact hg.outer (by simp [outerRefs, hc])
  | @pending id w h hn =>
    have hc := Run.node_mem_refsOfClient_iff.2 (Or.inr ⟨id, w, h, hn⟩)
    exact hg.outer (by simp [outerRefs, hc])

/-- A node that is found in the tree is found again, and so are the nodes above it, after any steps
from which on it is still owned, if no node above it was reset and the namespace was not dropped:
whatever handles came and went, and whatever was reclaimed and pruned in between. -/
theorem find?_steps_of_owned [Pattern.Engine] (depth : Nat) (strong : Bool) (baseline : Level)
    (levels : List Level) (filters : List (String × NodeFilter)) (before after : List Step)
    (path : List String) (n : NodeId) :
    let s := ((new strong baseline levels filters).steps (Calls.within depth) before).2
    let s' := (s.steps (Calls.within depth) after).2
    s.tree.find? Tree.root path = some n → s.Course (.sparing n) s' → s'.Owned n →
      s'.tree.contains n ∧
        ∀ q, q <+: path → s'.tree.find? Tree.root q = s.tree.find? Tree.root q := by
  intro s s' hfind hcourse howned
  have hs : s.Sound := sound_steps depth strong baseline levels filters before
  have hg : s.Grounded := (orderly_steps depth strong baseline levels filters before).1
  have hg' : s'.Grounded := (conduct_all depth hs after).grounded hg
  have hc := hg'.contains_of_owned howned
  have hn : n < s.tree.nodes.next := by
    cases path with
    | nil =>
      cases hfind
      exact hs.made
    | cons k path =>
      have hb := Tree.below_of_find? (List.cons_ne_nil k path) hfind
      exact Tree.lt_next_of_contains (hb.contains hs.tree.toWellShaped)
  exact ⟨hc, fun q hq => (hcourse.upholds hs hn hc).find?_eq hfind hq⟩

open scoped Pattern.Searching in
/-- A node outlives the detached node that had its segment before, while a filter looks loggers up
and reclaims. -/
theorem find?_steps_of_owned_detached :
    let s := ((new false .info [] []).steps (Calls.within 1)
      [.logger "a" (some "r"), .logger "a.b" (some "old"), .reset "r", .logger "a.b" (some "h"),
        .setFilter "h" (some (.named "f" { actions := [.touch "a.b.c", .reclaim] }))]).2
    let s' := (s.steps (Calls.within 1)
      [.dropHandle "old", .log "h" .info "m", .logger "a.c" none, .reclaim]).2
    (s.tree.find? Tree.root ["a", "b"] = some 3 ∧ s.Course (.sparing 3) s' ∧ s'.Owned 3) ∧
      s'.tree.contains 3 ∧
        ∀ q, q <+: ["a", "b"] → s'.tree.find? Tree.root q = s.tree.find? Tree.root q := by
  intro s s'
  have hfind : s.tree.find? Tree.root ["a", "b"] = some 3 := by decide +kernel
  have hpermits : s.Permits (.sparing 3) (Calls.within 1)
      [.dropHandle "old", .log "h" .info "m", .logger "a.c" none, .reclaim] :=
    ⟨trivial, trivial, trivial, trivial, trivial⟩
  have hcourse : s.Course (.sparing 3) s' :=
    course_steps_of_isMild not_false 1 false .info [] [] _ _ nofun (by decide) hpermits
  have howned : s'.Owned 3 := by
    refine .handle (i := 2) ?_
    decide +kernel
  exact ⟨⟨hfind, hcourse, howned⟩,
    find?_steps_of_owned 1 false .info [] [] _ _ ["a", "b"] 3 hfind hcourse howned⟩

end Logging.Session
