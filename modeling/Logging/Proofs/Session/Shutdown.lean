import Logging.Proofs.Session.Hooks

/-!
# Hooks along the steps of a client

In any run from a new session the hooks that are started are the first ones that were accepted, in
this order, each once, and none is accepted after one was started (`Session.hooks_steps`). Once the
namespace is closed it stays so and refuses all hooks, and this begins with the first call to close
it, before any hook is run.
-/

namespace Logging

open Session Run

variable {es before after : List Event} {b : Prop} {scope? : Option Namespace} {ns : Namespace}
  {s : Session}

namespace Session

/-- What is told of hooks: they are accepted in the order of their numbers, and started in the same
order, each at most once and after it was accepted. Once one was started none is accepted. -/
structure HooksInOrder (es : List Event) : Prop where
  numbered : accepted es = List.range (accepted es).length
  inOrder : started es <+: accepted es
  once : (started es).Nodup
  last : ∀ before i after, es = before ++ .hookStarted i :: after →
    i ∈ accepted before ∧ NoneAdmitted after

lemma started_ne_nil {i : Nat} (h : .hookStarted i ∈ es) : started es ≠ [] :=
  List.ne_nil_of_mem (mem_started_iff.2 h)

/-- What comes before the first start of a hook comes before each. -/
lemma split_started {i : Nat} {es' : List Event} (hidle : started before = [])
    (h : before ++ after = es ++ .hookStarted i :: es') :
    ∃ c, es = before ++ c ∧ after = c ++ .hookStarted i :: es' := by
  rcases List.append_eq_append_iff.1 h with ⟨c, hes, hafter⟩ | ⟨c, hbefore, hrest⟩
  · exact ⟨c, hes, hafter⟩
  · cases c with
    | nil => exact ⟨[], by rw [hbefore, List.append_nil, List.append_nil], hrest.symm⟩
    | cons e c =>
      obtain ⟨rfl, -⟩ := List.cons.inj hrest
      exact absurd hidle (started_ne_nil (hbefore ▸ List.mem_append_right _ List.mem_cons_self))

lemma hooksInOrder_of_idle (hnumbers : accepted es = List.range (accepted es).length)
    (hidle : started es = []) : HooksInOrder es where
  numbered := hnumbers
  inOrder := hidle ▸ List.nil_prefix
  once := hidle ▸ List.nodup_nil
  last := by
    rintro before i after rfl
    exact absurd hidle (started_ne_nil (List.mem_append_right _ List.mem_cons_self))

/-- The numbers of hooks that are accepted from the first one on. -/
lemma accepted_eq_range {new : List BoundHook} (h : Accepts ns es new) (hfirst : ns.nextHook = 0) :
    accepted es = List.range new.length := by
  rw [h.accepted, h.numbers, hfirst, List.range_eq_range']

theorem Passage.hooksInOrder (h : Passage b (some ns) es scope?) (hopen : ns.closed = false)
    (hnone : ns.hooks = []) (hfirst : ns.nextHook = 0) : HooksInOrder es := by
  cases h with
  | @waiting _ _ _ new _ _ ha _ _ =>
    refine hooksInOrder_of_idle ?_ ha.started
    rw [accepted_eq_range ha hfirst, List.length_range]
  | @closing _ _ before after new _ _ ha quiet inOrder _ =>
    have haccepted : accepted (before ++ after) = List.range new.length := by
      rw [accepted_append, quiet.accepted_eq_nil, List.append_nil, accepted_eq_range ha hfirst]
    have hstarted : started (before ++ after) <+: List.range new.length := by
      rw [hnone, List.nil_append, ← ha.accepted, accepted_eq_range ha hfirst] at inOrder
      rwa [started_append, ha.started, List.nil_append]
    refine ⟨?_, ?_, ?_, fun es i es' hes => ?_⟩
    · rw [haccepted, List.length_range]
    · rwa [haccepted]
    · exact hstarted.sublist.nodup List.nodup_range
    · obtain ⟨c, rfl, rfl⟩ := split_started ha.started hes
      have hi : i ∈ started (before ++ (c ++ .hookStarted i :: es')) :=
        mem_started_iff.2 (List.mem_append_right _ (List.mem_append_right _ List.mem_cons_self))
      refine ⟨?_, fun e he => quiet e (List.mem_append_right _ (List.mem_cons_of_mem _ he))⟩
      rw [accepted_append, accepted_eq_range ha hfirst]
      exact List.mem_append_left _ (hstarted.subset hi)
  | shut h _ _ _ _ => exact absurd hopen h.not_open

/-! ### Closed namespaces -/

lemma run_addHook_of_closed (hns : s.scope? = some ns) (hclosed : ns.closed = true)
    (actions : List BoundAction) : (addHook actions).run s = (.error (.fault .closed), s) := by
  rw [run_addHook, hns]
  simp only [hclosed, if_true]

/-- A client that offers a hook to a closed namespace. -/
lemma step_addHook_of_closed [Pattern.Engine] (calls : Calls) (hns : s.scope? = some ns)
    (hclosed : ns.closed = true) {acts : List (Action String String)} {actions : List BoundAction}
    (hacts : s.bindActions acts = .ok actions) :
    s.step calls (.addHook acts) = (⟨.error (.fault .closed), []⟩, { s with journal := [] }) := by
  let u : Session := { s with journal := [] }
  have hrun : ((Step.addHook acts).take calls).run u = (.error (.fault .closed), u) := by
    show (ofBuild (u.bindActions acts) >>= fun actions => addHook actions >>= fun _ => _).run u = _
    have hbind : (ofBuild (u.bindActions acts)).run u = (.ok actions, u) := by
      have hu : u.bindActions acts = .ok actions := hacts
      rw [hu]
      rfl
    rw [run_bind, hbind]
    dsimp only
    rw [run_bind, run_addHook_of_closed (s := u) hns hclosed]
  rw [step, hrun]

lemma step_isClosed [Pattern.Engine] (calls : Calls) (hns : s.scope? = some ns) :
    (s.step calls .isClosed).1.answer = .ok (.flag ns.closed) := by
  have hrun : ((Step.isClosed.take calls).run { s with journal := [] }).1 =
      .ok (.flag ns.closed) := by
    show ((theNamespace >>= fun ns => pure (Answer.flag ns.closed)).run _).1 = _
    rw [run_bind, run_theNamespace, hns]
    rfl
  exact hrun

end Session

/-- How calls to close go, and what is refused from the moment the first of them begins. -/
structure Calls.ShutOnce [Pattern.Engine] (calls : Calls) : Prop where
  /-- Closing takes all hooks, and then starts them one after the other. -/
  closing : ∀ (s : Session) (ns : Namespace), s.scope? = some ns →
    ∃ es, Starts calls ns.hooks (taken s ns) es ((Run.close calls).run s)
  /-- Whatever a callback does, the namespace stays closed, and no hook is taken on or started. -/
  lasting : ∀ (s : Session) (a : BoundAction), Shut s.scope? → ∃ es,
    ((a.perform calls).run s).2.journal = s.journal ++ es ∧ NoneAdmitted es ∧ started es = [] ∧
      Shut ((a.perform calls).run s).2.scope?
  refused : ∀ (s : Session) (ns : Namespace), s.scope? = some ns → ns.closed = true →
    (∀ actions, (addHook actions).run s = (.error (.fault .closed), s)) ∧
      (∀ text, (Action.perform calls (.addHook text)).run s =
        (.ok (), s.told [.hookAdded (some .closed)])) ∧
      (∀ acts actions, s.bindActions acts = .ok actions → s.step calls (.addHook acts) =
        (⟨.error (.fault .closed), []⟩, { s with journal := [] })) ∧
      (s.step calls .isClosed).1.answer = .ok (.flag true)

theorem Run.shutOnce_of_heeds [Pattern.Engine] {calls : Calls}
    (hcalls : CallsIn @Heeds calls) : calls.ShutOnce where
  closing _ _ hns := by
    obtain ⟨es, hes, -⟩ := starts_close hcalls hns
    exact ⟨es, hes⟩
  lasting s a hs := by
    obtain ⟨es, hes⟩ := lawful_heeds.perform hcalls a s hs.tidy
    obtain ⟨hshut, -, quiet, idle⟩ := hes.passage.of_shut hs
    exact ⟨es, hes.journal, quiet, idle, hshut⟩
  refused s ns hns hclosed := by
    refine ⟨run_addHook_of_closed hns hclosed, fun text => ?_, fun acts actions hacts => ?_, ?_⟩
    · rw [run_offerHook, hns]
      simp only [hclosed, if_true]
    · exact step_addHook_of_closed calls hns hclosed hacts
    · rw [step_isClosed calls hns, hclosed]

namespace Session

lemma eventsOf_append (reports reports' : List Report) :
    eventsOf (reports ++ reports') = eventsOf reports ++ eventsOf reports' :=
  List.flatMap_append

lemma tidy_new (strong : Bool) (baseline : Level) (levels : List Level)
    (filters : List (String × NodeFilter)) : Tidy (new strong baseline levels filters).scope? := by
  rintro _ ⟨⟩ hclosed
  cases hclosed

/-- Hooks are started at most once, in the order in which they were accepted. A namespace that was
closed stays closed, and no more hooks are taken on or started. -/
theorem hooks_steps [Pattern.Engine] (depth : Nat) (strong : Bool) (baseline : Level)
    (levels : List Level) (filters : List (String × NodeFilter)) (steps more : List Step) :
    let calls := Calls.within depth
    let run := (new strong baseline levels filters).steps calls steps
    let next := run.2.steps calls more
    HooksInOrder (eventsOf (run.1 ++ next.1)) ∧
      (∀ ns, run.2.scope? = some ns → ns.closed = true → Shut next.2.scope? ∧
        NoneAdmitted (eventsOf next.1) ∧ started (eventsOf next.1) = []) ∧
      calls.ShutOnce := by
  intro calls run next
  have hrun := passage_steps depth (tidy_new strong baseline levels filters) steps
  have hnext := passage_steps depth hrun.tidy more
  refine ⟨?_, fun ns hns hclosed => ?_, shutOnce_of_heeds (callsHeed_within depth)⟩
  · rw [eventsOf_append]
    exact (hrun.trans hnext).hooksInOrder rfl rfl rfl
  · have hshut : Shut run.2.scope? := by
      rw [hns]
      exact Tidy.shut (hns ▸ hrun.tidy) hclosed
    obtain ⟨hshut', -, quiet, idle⟩ := hnext.of_shut hshut
    exact ⟨hshut', quiet, idle⟩

end Session

end Logging
