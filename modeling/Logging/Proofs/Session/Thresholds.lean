import Logging.Pattern.Compiled
import Logging.Proofs.Session.Resets
import Logging.Proofs.Tree.Paths

/-!
# Thresholds of nodes that were below

A node that was taken out of the tree by a reset further up still has its parents, and whoever
holds a handle for it may go on to use it. The levels above it then ask for a threshold
(`Tree.threshold`): the severity of the nearest explicit level along its parents, or the baseline.

A node in the tree has this threshold as its effective level. A node that was taken out has the
baseline, whatever is asked for above it, so it keeps to its threshold only where that happens to be
the baseline (`Session.effective_reset_below`).
-/

namespace Logging

namespace Tree

variable {t : Tree} {n : NodeId} {l : Level}

/-- The severity of the nearest explicit level on the way up from a node, the node included, or else
the baseline. -/
def threshold (t : Tree) (n : NodeId) : Int :=
  (((t.lineage n).findSome? fun m => (t.node m).level?).map Level.severity).getD t.baseline

/-- The threshold of the parent of a node, or the baseline if it has none. -/
def thresholdAbove (t : Tree) (n : NodeId) : Int :=
  ((t.node n).parent?.map t.threshold).getD t.baseline

@[simp]
lemma threshold_of_level (h : (t.node n).level? = some l) : t.threshold n = l.severity := by
  obtain ⟨path, hpath⟩ := List.head?_eq_some_iff.1 (head?_lineage t n)
  simp [threshold, hpath, h]

lemma threshold_of_unset (ht : t.WellShaped) (h : (t.node n).level? = none) :
    t.threshold n = t.thresholdAbove n := by
  rw [thresholdAbove]
  cases hp : (t.node n).parent? with
  | none => simp [threshold, lineage_of_parent?_none hp, h]
  | some p => simp [threshold, lineage_of_parent? ht hp, h]

end Tree

lemma Node.Cleared.level? {a b : Node} {v : Int} (h : a.Cleared b v) : b.level? = none := by
  have hunset := h.unset
  simp only [isConfigured, Bool.or_eq_false_iff, Option.isSome_eq_false_iff,
    Option.isNone_iff_eq_none] at hunset
  exact hunset.1.1.1.1.1

namespace Session

variable {s s' : Session} {n m d : NodeId}

/-- An older node is not below, and so are none of its parents. -/
lemma Resets.threshold_of_lt (h : s.Resets n s') (hs : s.Sound) (hs' : s'.Sound) (hg' : s'.Grounded)
    (hm : m < n) (hc : s'.tree.contains m) : s'.tree.threshold m = s.tree.threshold m := by
  have hnode : ∀ m, m < n → s'.tree.contains m → s'.tree.node m = s.tree.node m :=
    fun m hm => h.outside m (Nat.ne_of_lt hm) fun hb =>
      Nat.lt_asymm hm (hb.lt hs.tree.toWellShaped)
  induction m using Nat.strongRecOn with
  | ind m ih =>
    have hm' := hnode m hm hc
    cases hl : (s.tree.node m).level? with
    | some l => rw [Tree.threshold_of_level hl, Tree.threshold_of_level (hm' ▸ hl)]
    | none =>
      rw [Tree.threshold_of_unset hs.tree.toWellShaped hl,
        Tree.threshold_of_unset hs'.tree.toWellShaped (hm' ▸ hl), Tree.thresholdAbove,
        Tree.thresholdAbove, hm', h.baseline]
      cases hp : (s.tree.node m).parent? with
      | none => rfl
      | some p =>
        have hp' : (s'.tree.node m).parent? = some p := hm' ▸ hp
        have hlt := hs.tree.parent_older hp
        exact ih p hlt (Nat.lt_trans hlt hm) (hg'.parent hp')

/-- What is asked for above the node is as before. -/
lemma Resets.thresholdAbove_eq (h : s.Resets n s') (hs : s.Sound) (hs' : s'.Sound)
    (hg' : s'.Grounded) (hn : s'.tree.contains n) :
    s'.tree.thresholdAbove n = s.tree.thresholdAbove n := by
  have hparent : (s'.tree.node n).parent? = (s.tree.node n).parent? := (h.self hn).parent
  rw [Tree.thresholdAbove, Tree.thresholdAbove, hparent, h.baseline]
  cases hp : (s.tree.node n).parent? with
  | none => rfl
  | some p =>
    exact h.threshold_of_lt hs hs' hg' (hs.tree.parent_older hp) (hg'.parent (hparent.trans hp))

/-- The way up from a node that was below leads past cleared nodes to those above the reset. -/
lemma Resets.threshold_below (h : s.Resets n s') (hs : s.Sound) (hs' : s'.Sound)
    (hg' : s'.Grounded) (hb : s.tree.Below n d) (hd : s'.tree.contains d) :
    s'.tree.threshold d = s.tree.thresholdAbove n := by
  have hstep : ∀ {p k c}, s.tree.child? p k = some c → s.tree.Below n c → s'.tree.contains c →
      s'.tree.threshold c = s'.tree.threshold p ∧ s'.tree.contains p := by
    intro p k c hk hb hc
    have hcleared := h.below c hb hc
    have hp : (s'.tree.node c).parent? = some p := hcleared.parent.trans (hs.tree.parent_eq hk)
    rw [Tree.threshold_of_unset hs'.tree.toWellShaped hcleared.level?, Tree.thresholdAbove, hp]
    exact ⟨rfl, hg'.parent hp⟩
  induction hb with
  | child hk hok =>
    obtain ⟨heq, hn⟩ := hstep hk (.child hk hok) hd
    rw [heq, Tree.threshold_of_unset hs'.tree.toWellShaped (h.self hn).level?,
      h.thresholdAbove_eq hs hs' hg' hn]
  | step hp hk hok ih =>
    obtain ⟨heq, hp'⟩ := hstep hk (.step hp hk hok) hd
    rw [heq, ih hp']

/-- What a node that was below would inherit: the effective level of the node that was reset, if
that is its parent, and otherwise the baseline. -/
lemma Resets.inherited_below (h : s.Resets n s') (hs : s.Sound) (hg' : s'.Grounded)
    (hb : s.tree.Below n d) (hd : s'.tree.contains d) :
    s'.tree.inherited d =
      if (s.node d).parent? = some n then s'.tree.effective n else s'.tree.baseline := by
  have ht := hs.tree.toWellShaped
  obtain ⟨-, q, k, hk, hq⟩ := hb.last
  have hparent : (s.node d).parent? = some q := ht.parent_eq hk
  have hparent' : (s'.tree.node d).parent? = some q := (h.below d hb hd).parent.trans hparent
  simp only [Tree.inherited, hparent', hparent, Option.some.injEq]
  rcases hq with rfl | hq
  · simp
  · rw [if_neg (Nat.ne_of_gt (hq.lt ht))]
    exact (h.below q hq (hg'.parent hparent')).effective

/-- After any steps, let a node be reset. A node that was below it, and is still there because a
handle is held, then has the baseline as its effective level. What the explicit levels above it ask
for is what they asked for above the node that was reset. So the two are the same just if that was
the baseline. To take the level of the held node away gives it what its parent has, which is the
baseline too unless the parent is the node that was reset. -/
theorem effective_reset_below [Pattern.Engine] (depth : Nat) (strong : Bool) (baseline : Level)
    (levels : List Level) (filters : List (String × NodeFilter)) (steps : List Step)
    (n d : NodeId) :
    let s := ((new strong baseline levels filters).steps (Calls.within depth) steps).2
    let s' := ((Run.reset n).run s).2
    s.tree.Below n d → s'.tree.contains d →
      s'.tree.effective d = baseline.severity ∧
      s'.tree.threshold d = s.tree.thresholdAbove n ∧
      (s'.tree.effective d = s'.tree.threshold d ↔
        s.tree.thresholdAbove n = baseline.severity) ∧
      (s'.tree.setLevel d none).effective d =
        if (s.node d).parent? = some n then s'.tree.effective n else baseline.severity := by
  intro s s' hb hd
  have hs : s.Sound := sound_steps depth strong baseline levels filters steps
  obtain ⟨hg, hsettled⟩ := orderly_steps depth strong baseline levels filters steps
  have hs' : s'.Sound := sound_reset hs n
  have hg' : s'.Grounded := grounded_reset hs hg n
  have h : s.Resets n s' := resets_reset hs hg hsettled n
  have hbaseline : s'.tree.baseline = baseline.severity := by
    rw [h.baseline]
    exact (leads_steps depth (sound_new ..) steps).baseline
  have heffective : s'.tree.effective d = baseline.severity :=
    (h.below d hb hd).effective.trans hbaseline
  have hthreshold := h.threshold_below hs hs' hg' hb hd
  have hinherited := h.inherited_below hs hg' hb hd
  refine ⟨heffective, hthreshold, ?_, ?_⟩
  · rw [heffective, hthreshold, eq_comm]
  · rw [Tree.effective, Tree.node_setLevel_self hs'.tree hd, ← hbaseline, ← hinherited]
    rfl

open scoped Pattern.Searching in
/-- A node below one that is reset under an `ERROR` threshold keeps to the baseline. -/
theorem effective_reset_below_error :
    let s := ((new false .info [] []).steps (Calls.within 0) [
      .root (some "r"), .setLevel "r" (some .error), .logger "a" (some "h"),
      .logger "a.b" (some "k")]).2
    let s' := ((Run.reset 1).run s).2
    (s.tree.Below 1 2 ∧ s'.tree.contains 2) ∧
      s'.tree.effective 2 = Level.info.severity ∧
      s'.tree.threshold 2 = s.tree.thresholdAbove 1 ∧
      (s'.tree.effective 2 = s'.tree.threshold 2 ↔ s.tree.thresholdAbove 1 = Level.info.severity) ∧
      (s'.tree.setLevel 2 none).effective 2 =
        if (s.node 2).parent? = some 1 then s'.tree.effective 1 else Level.info.severity := by
  intro s s'
  have hk : s.tree.child? 1 "b" = some 2 := by decide +kernel
  have hb : s.tree.Below 1 2 := .child hk trivial
  have hc : s'.tree.contains 2 := by decide +kernel
  exact ⟨⟨hb, hc⟩, effective_reset_below 0 false .info [] [] _ 1 2 hb hc⟩

open scoped Pattern.Searching in
/-- The effective level of a node that was below is not its threshold, nor what it would get if its
level were taken away. -/
theorem effective_ne_threshold_reset :
    let s := ((new false .info [] []).steps (Calls.within 0) [
      .root (some "r"), .setLevel "r" (some .error), .logger "a" (some "h"),
      .logger "a.b" (some "k")]).2
    let s' := ((Run.reset 1).run s).2
    s.tree.Below 1 2 ∧ s'.client.handles.get? "k" = some 2 ∧ s'.handles.get? 2 = some 2 ∧
      s'.tree.effective 2 = 800 ∧ s'.tree.threshold 2 = 1000 ∧
      (s'.tree.setLevel 2 none).effective 2 = 1000 := by
  intro s s'
  have hk : s.tree.child? 1 "b" = some 2 := by decide +kernel
  exact ⟨.child hk trivial, by decide +kernel⟩

end Session

end Logging
