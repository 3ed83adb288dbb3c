import Logging.Pattern.Compiled
import Logging.Proofs.Session.Shutdown
import Logging.Proofs.Tree.Paths
import Logging.Proofs.Tree.Spare

/-!
# What a call to close leaves

A call to close that comes back has started every hook that was waiting, and the nodes that the
hooks left in the tree are like new (`Calls.Closes`). A hook that stops takes those behind it along:
they were taken from the namespace when the call began, so no later call starts them, though it
comes back. Along the steps of a client no other hooks are lost, unless they are dropped with the
namespace (`Session.close_steps`).
-/

namespace Logging

open Session Run

/-! ### Nodes that are like new -/

namespace Tree

variable {t t' : Tree} {n : NodeId}

/-- The node, if it is there, is like new but for its handles, and inherits nothing. -/
def Blank (t : Tree) (n : NodeId) : Prop :=
  t.contains n → (t.node n).isConfigured = false ∧ (∀ k, t.child? n k = none) ∧
    t.effective n = t.baseline

lemma Blank.of_partOf (h : t'.PartOf t)
    (hset : t'.contains n → (t'.node n).isConfigured = (t.node n).isConfigured) (hb : t.Blank n) :
    t'.Blank n := by
  intro hn
  obtain ⟨hconf, hchild, heff⟩ := hb (h.contains hn)
  refine ⟨(hset hn).trans hconf, fun k => ?_, ?_⟩
  · cases hk : t'.child? n k with
    | none => rfl
    | some c => cases (hchild k).symm.trans (h.entry hk)
  · exact (h.kept hn).effective.trans (heff.trans h.baseline.symm)

lemma isConfigured_blank (a : Node) (v : Int) : (a.blank v).isConfigured = false := rfl

/-- A reset of the root makes all nodes of the tree like new. -/
lemma blank_reset (ht : t.LevelsSound) (hn : t.Reached n) : (t.reset root).Blank n := by
  intro hc
  rw [contains_reset] at hc
  have hchild : ∀ k, (t.reset root).child? n k = none := by
    intro k
    cases hk : (t.reset root).child? n k with
    | none => rfl
    | some c =>
      obtain ⟨-, hne, hnot⟩ := (child?_reset ht.toWellShaped).1 hk
      exact absurd (reached_iff.1 hn) (not_or.2 ⟨hne, hnot⟩)
  rcases reached_iff.1 hn with rfl | hbelow
  · have hnode := node_reset_self ht.toWellShaped hc
    have hset : ((t.reset root).node root).isConfigured = false := by
      rw [hnode]
      exact isConfigured_blank _ _
    refine ⟨hset, hchild, (ht.reset root).base ?_ ?_⟩
    · rwa [contains_reset]
    · rw [hnode]
      rfl
  · rw [effective, node_reset_below ht.toWellShaped hbelow, baseline_reset]
    exact ⟨rfl, hchild, rfl⟩

end Tree

namespace Session

variable {s s' u : Session} {n : NodeId}

/-- What ends takes no settings from the nodes that are left. -/
lemma End.isConfigured (h : s.End s') (hn : s'.tree.contains n) :
    (s'.tree.node n).isConfigured = (s.tree.node n).isConfigured := by
  cases h with
  | @destroy r hr =>
    cases r with
    | handle | sink => rfl
    | node x => exact congrArg _ (Tree.node_drop_of_ne (Tree.contains_drop.1 hn).1)
  | @removeChild p c k hk _ =>
    have hnode : ((s.tree.strike p k).drop c).node n = (s.tree.strike p k).node n :=
      Tree.node_drop_of_ne (Tree.contains_drop.1 hn).1
    show (((s.tree.strike p k).drop c).node n).isConfigured = _
    rw [hnode, Tree.strike, Tree.node_modify]
    split_ifs <;> rfl

lemma Ends.blank (h : s.Ends s') (hs : s.Sound) (hb : s.tree.Blank n) : s'.tree.Blank n :=
  h.induction (motive := fun u => u.tree.Blank n) hs hb fun _ _ hs h hb =>
    hb.of_partOf (h.partOf hs) h.isConfigured

lemma blank_strikeOff (hs : s.Sound) (a : Notice) (hb : s.tree.Blank n) :
    (s.strikeOff a).tree.Blank n := by
  have hset := Node.setting_live (List.erase · a.handle)
  have hpart : (s.tree.modifyAll [a.node] fun b =>
      { b with liveHandles := b.liveHandles.erase a.handle }).PartOf s.tree :=
    Tree.partOf_modifyAll hs.tree.toWellShaped [a.node] hset.kept fun hk => by
      rwa [← (Tree.sameShape_modify s.tree a.node hset.place).child?]
  refine hb.of_partOf hpart fun _ => ?_
  show ((s.tree.modify a.node _).node n).isConfigured = _
  rw [Tree.node_modify]
  split_ifs <;> rfl

lemma blank_reclaim (hs : s.Sound) (hb : s.tree.Blank n) : s.reclaim.2.tree.Blank n := by
  have h : s.reclaim.2.Sound ∧ s.reclaim.2.tree.Blank n := by
    refine reclaimWithin_induction (motive := fun s => s.Sound ∧ s.tree.Blank n) ?_ _ ⟨hs, hb⟩
    rintro s a rest - ⟨hs, hb⟩
    have hstruck := (leads_strikeOff s a rest).sound hs
    have hends := ends_process { s with notices := rest } a
    exact ⟨hends.leads.sound hstruck, hends.blank hstruck
      (blank_strikeOff (s := { s with notices := rest })
        ((leads_beside rfl rfl rfl id : s.Leads { s with notices := rest }).sound hs) a hb)⟩
  exact h.2

/-- All nodes that were in the tree are like new. -/
lemma blank_renewed (hu : u.Sound) (hn : u.tree.Reached n) : (renewed u).tree.Blank n := by
  have hreset := (leads_reset u Tree.root).sound hu
  have hends := ends_settle ({ u with tree := u.tree.reset Tree.root } : Session)
  have hsettled := hends.blank hreset (Tree.blank_reset hu.tree hn)
  rw [renewed]
  exact blank_reclaim (hends.leads.sound hreset) hsettled

/-! ### Hooks that wait -/

/-- In an open namespace all hooks that were accepted are waiting; otherwise there are none. -/
def Queued (scope? : Option Namespace) : Prop :=
  ∀ ns, scope? = some ns →
    if ns.closed then ns.hooks = [] else numbers ns.hooks = List.range ns.nextHook

variable {b : Prop} {scope? scope?' : Option Namespace} {es : List Event} {ns : Namespace}

lemma Shut.queued (h : Shut scope?) : Queued scope? := fun ns hns => by
  rw [(h ns hns).1]
  exact (h ns hns).2

lemma Queued.tidy (h : Queued scope?) : Tidy scope? := fun ns hns hclosed => by
  have hq := h ns hns
  rwa [hclosed] at hq

lemma Queued.waiting (h : Queued (some ns)) (hopen : ns.closed = false) :
    numbers ns.hooks = List.range ns.nextHook := by
  have hq := h ns rfl
  rwa [hopen] at hq

lemma queued_new (strong : Bool) (baseline : Level) (levels : List Level)
    (filters : List (String × NodeFilter)) :
    Queued (new strong baseline levels filters).scope? := by
  rintro _ ⟨⟩
  rfl

lemma Passage.queued (h : Passage b scope? es scope?') (hq : Queued scope?) : Queued scope?' := by
  cases h with
  | @waiting ns ns' es new hopen hopen' ha hooks next =>
    rintro _ ⟨⟩
    have hrange : List.range ns.nextHook ++ List.range' ns.nextHook new.length =
        List.range (ns.nextHook + new.length) := by
      have h := List.range'_append_1 (s := 0) (m := ns.nextHook) (n := new.length)
      rwa [Nat.zero_add, ← List.range_eq_range', ← List.range_eq_range'] at h
    rw [hopen', if_neg Bool.false_ne_true, hooks, numbers_append, hq.waiting hopen, ha.numbers,
      next, hrange]
  | closing _ hshut _ _ _ _ => exact hshut.queued
  | shut _ hshut _ _ _ => exact hshut.queued

/-- From a namespace without hooks on, a hook that was accepted was started or is waiting, unless
the namespace is gone or something was broken off. -/
lemma Passage.started_or_waiting (h : Passage b (some ns) es scope?) (hopen : ns.closed = false)
    (hnone : ns.hooks = []) {i : Nat} (hi : i ∈ accepted es) :
    i ∈ started es ∨ (∃ ns', scope? = some ns' ∧ i ∈ numbers ns'.hooks) ∨ scope? = none ∨ b := by
  cases h with
  | waiting _ _ ha hooks _ =>
    rw [ha.accepted] at hi
    refine Or.inr (Or.inl ⟨_, rfl, ?_⟩)
    rwa [hooks, hnone, List.nil_append]
  | closing _ _ ha quiet _ full =>
    rw [accepted_append, quiet.accepted_eq_nil, List.append_nil, ha.accepted] at hi
    rcases full with hall | hb | ⟨hgone, -⟩
    · rw [hnone, List.nil_append] at hall
      rw [started_append, hall]
      exact Or.inl (List.mem_append_right _ hi)
    · exact Or.inr (Or.inr (Or.inr hb))
    · exact Or.inr (Or.inr (Or.inl hgone))
  | shut h _ _ _ _ => exact absurd hopen h.not_open

end Session

/-! ### Calls to close -/

/-- What a call to close does about the hooks and the tree, whoever makes it. -/
structure Calls.Closes (calls : Calls) : Prop where
  /-- If it comes back, it has started all hooks that were waiting, and the nodes that these left in
  the tree are like new, the root among them. If it does not, a hook has stopped it, and those
  behind were not started. -/
  closing : ∀ (s : Session) (ns : Namespace), s.Sound → s.Grounded → s.scope? = some ns →
    ∃ es, Starts calls ns.hooks (taken s ns) es ((Run.close calls).run s) ∧
      (((Run.close calls).run s).1 = .ok () → started es = numbers ns.hooks ∧
        ((Run.close calls).run s).2.tree.contains Tree.root ∧
        ∃ u, (runHooks calls ns.hooks).run (taken s ns) = (.ok (), u) ∧
          ∀ n, u.tree.Reached n → ((Run.close calls).run s).2.tree.Blank n)
  /-- Callbacks keep hooks waiting while the namespace is open. -/
  queued : ∀ (s : Session) (a : BoundAction), Queued s.scope? →
    Queued ((a.perform calls).run s).2.scope?

theorem Run.closes_within (depth : Nat) : (Calls.within depth).Closes where
  closing s ns hs hg hns := by
    obtain ⟨es, hes, hok⟩ := starts_close (callsHeed_within depth) hns
    refine ⟨es, hes, fun h => ?_⟩
    have hconduct : s.Conduct .all
        ((runHooks (Calls.within depth) ns.hooks).run (taken s ns)).2 := by
      have h := conduct_takeHooks (callsMove_within depth) (hs.ready trivial) hns
      rwa [hns] at h
    obtain ⟨u, hu, hend⟩ := hok h
    rw [hu] at hconduct
    have hall : started es = numbers ns.hooks := by
      rcases hes.all_or_broken with ⟨-, hall⟩ | ⟨_, _, _, e, -, -, he, -⟩
      · exact hall
      · cases h.symm.trans he
    have hroot : ((Run.close (Calls.within depth)).run s).2.tree.contains Tree.root := by
      have hmoves :=
        moves_close (callsMove_within depth) (fun _ => trivial) s (hs.ready trivial)
      refine contains_root (hmoves.grounded hg) ?_
      rw [Option.isSome_iff_ne_none, Ne, hes.scope]
      exact nofun
    refine ⟨hall, hroot, u, hu, fun n hn => ?_⟩
    rw [hend]
    exact blank_renewed (hconduct.sound hs) hn
  queued s a hq := by
    obtain ⟨es, hes⟩ := lawful_heeds.perform (callsHeed_within depth) a s hq.tidy
    exact hes.passage.queued hq

lemma Report.BrokenOff.not_answered {r : Report} {a : Answer} (h : r.BrokenOff) :
    r.answer ≠ .ok a := by
  obtain ⟨⟨e, he⟩, -⟩ := h
  rw [he]
  exact nofun

namespace Session

variable {s : Session}

/-- A client whose call to close comes back. -/
lemma step_close_ok [Pattern.Engine] {calls : Calls} {a : Answer}
    (h : (s.step calls .close).1.answer = .ok a) :
    ((Run.close calls).run { s with journal := [] }).1 = .ok () ∧
      (s.step calls .close).2 =
        { ((Run.close calls).run { s with journal := [] }).2 with journal := [] } := by
  have hrun : (Step.close.take calls).run { s with journal := [] } =
      (Run.close calls >>= fun _ => get >>= fun s : Session =>
        pure (Answer.flag (s.scope?.any (·.closed)))).run { s with journal := [] } := rfl
  rw [run_bind] at hrun
  rw [step, hrun] at h ⊢
  rcases hclose : (Run.close calls).run { s with journal := [] } with ⟨e | _, u⟩
  · rw [hclose] at h
    cases h
  · exact ⟨rfl, rfl⟩

lemma exists_namespace_of_close {calls : Calls} (h : ((Run.close calls).run s).1 = .ok ()) :
    ∃ ns, s.scope? = some ns := by
  rw [run_close] at h
  cases hns : s.scope? with
  | none =>
    rw [hns] at h
    cases h
  | some ns => exact ⟨ns, rfl⟩

/-- When a call to close comes back, the tree was reset, and every hook that was ever accepted has
been started, unless an earlier step was broken off after it had started hooks. After any steps a
hook was started or is still waiting, unless it was dropped with the namespace or a step was broken
off in this way. -/
theorem close_steps [Pattern.Engine] (depth : Nat) (strong : Bool) (baseline : Level)
    (levels : List Level) (filters : List (String × NodeFilter)) (steps : List Step) :
    let calls := Calls.within depth
    let run := (new strong baseline levels filters).steps calls steps
    let es := eventsOf run.1
    let out := run.2.step calls .close
    (∀ i ∈ accepted es, i ∈ started es ∨ (∃ ns, run.2.scope? = some ns ∧ i ∈ numbers ns.hooks) ∨
        run.2.scope? = none ∨ ∃ r ∈ run.1, r.BrokenOff) ∧
      (∀ a, out.1.answer = .ok a →
        out.2.tree.contains Tree.root ∧ out.2.tree.Blank Tree.root ∧
          ((∀ i ∈ accepted (es ++ out.1.journal), i ∈ started (es ++ out.1.journal)) ∨
            ∃ r ∈ run.1, r.BrokenOff)) ∧
      Queued run.2.scope? ∧ calls.Closes := by
  intro calls run es out
  have hrun := passage_steps depth (tidy_new strong baseline levels filters) steps
  have hcloses := closes_within depth
  refine ⟨fun i hi => hrun.started_or_waiting rfl rfl hi, fun a ha => ?_,
    hrun.queued (queued_new strong baseline levels filters), hcloses⟩
  obtain ⟨hok, hend⟩ := step_close_ok ha
  let u : Session := { run.2 with journal := [] }
  have hu : u.Sound ∧ u.Grounded := by
    have hs := sound_steps depth strong baseline levels filters steps
    have hg := (orderly_steps depth strong baseline levels filters steps).1
    exact ⟨(leads_beside rfl rfl rfl id : run.2.Leads u).sound hs,
      hg.of_beside rfl rfl hg.outer hg.held⟩
  obtain ⟨ns, hns⟩ := exists_namespace_of_close (s := u) hok
  obtain ⟨es', hes, hclosed⟩ := hcloses.closing u ns hu.1 hu.2 hns
  obtain ⟨-, hroot, v, hv, hblank⟩ := hclosed hok
  have hshut : Shut out.2.scope? ∧ out.2.scope? ≠ none := by
    rw [hend]
    exact ⟨hes.shut, fun hnone => nomatch hes.scope.1 hnone⟩
  refine ⟨hend ▸ hroot, hend ▸ hblank Tree.root ⟨[], rfl⟩, ?_⟩
  have hall : Passage (∃ r ∈ run.1, r.BrokenOff) _ (es ++ out.1.journal) out.2.scope? :=
    (hrun.trans (passage_step depth hrun.tidy .close)).mono fun hb =>
      hb.resolve_right fun hbroken => hbroken.not_answered ha
  rw [or_iff_not_imp_right]
  intro hb i hi
  rcases hall.started_or_waiting rfl rfl hi with h | ⟨ns', hns', h⟩ | h | h
  · exact h
  · rw [(hshut.1 ns' hns').2] at h
    cases h
  · exact absurd h hshut.2
  · exact absurd h hb

open scoped Pattern.Searching in
/-- A hook that stops takes the next one along: a later call to close comes back and has not started
it. -/
theorem hook_lost_close :
    let calls := Calls.within 3
    let run := (new true .info [] []).steps calls
      [.addHook [.abort], .addHook [.note "b"], .close]
    let es := eventsOf run.1
    let out := run.2.step calls .close
    (∃ a, out.1.answer = .ok a) ∧ 1 ∈ accepted (es ++ out.1.journal) ∧
      1 ∉ started (es ++ out.1.journal) := by
  intro calls run es out
  have hok : out.1.answer.isOk := by decide +kernel
  refine ⟨?_, by decide +kernel, by decide +kernel⟩
  cases ha : out.1.answer with
  | error e =>
    rw [ha] at hok
    cases hok
  | ok a => exact ⟨a, rfl⟩

end Session

end Logging
