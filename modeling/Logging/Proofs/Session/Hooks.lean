import Logging.Proofs.Session.Closure

/-!
# Hooks

While a namespace is open its hooks are accepted one after the other and put at the end of the list.
The first call to close it takes the list, and from then on none is accepted; it starts them in
order, as far as none of them breaks it off. After that there are none any more, so no later call
starts one. A session goes from the one state to the other by any call (`Run.Heeds`), callbacks and
hooks included, and so by any steps (`Session.passage_steps`).
-/

namespace Logging

/-- The number of the hook that was accepted, if the event tells of that. -/
def Event.accepted? : Event → Option Nat
  | .hookAccepted i => some i
  | _ => none

def Event.started? : Event → Option Nat
  | .hookStarted i => some i
  | _ => none

/-- Whether a hook was taken on, by a client or by a callback. -/
def Event.Admits : Event → Prop
  | .hookAccepted _ | .hookAdded none => True
  | _ => False

namespace Session

variable {es es' before after : List Event} {b b' : Prop}
  {scope? scope?' scope?'' : Option Namespace} {ns : Namespace} {hooks new : List BoundHook}
  {s : Session}

/-- The hooks that were accepted, in this order. -/
def accepted (es : List Event) : List Nat := es.filterMap Event.accepted?

/-- The hooks that were started, in this order. -/
def started (es : List Event) : List Nat := es.filterMap Event.started?

def NoneAdmitted (es : List Event) : Prop := ∀ e ∈ es, ¬ e.Admits

def numbers (hooks : List BoundHook) : List Nat := hooks.map Hook.number

lemma accepted_append (es es' : List Event) : accepted (es ++ es') = accepted es ++ accepted es' :=
  List.filterMap_append

lemma started_append (es es' : List Event) : started (es ++ es') = started es ++ started es' :=
  List.filterMap_append

lemma numbers_append (hooks new : List BoundHook) :
    numbers (hooks ++ new) = numbers hooks ++ numbers new :=
  List.map_append

lemma mem_started_iff {i : Nat} : i ∈ started es ↔ .hookStarted i ∈ es := by
  simp only [started, List.mem_filterMap]
  constructor
  · rintro ⟨e, he, hi⟩
    cases e <;> cases hi
    exact he
  · exact fun h => ⟨_, h, rfl⟩

lemma noneAdmitted_nil : NoneAdmitted [] := List.forall_mem_nil _

lemma NoneAdmitted.append (h : NoneAdmitted es) (h' : NoneAdmitted es') :
    NoneAdmitted (es ++ es') := List.forall_mem_append.2 ⟨h, h'⟩

lemma NoneAdmitted.accepted_eq_nil (h : NoneAdmitted es) : accepted es = [] := by
  rw [accepted, List.filterMap_eq_nil_iff]
  intro e he
  cases e with
  | hookAccepted i => exact absurd trivial (h _ he)
  | _ => rfl

/-! ### From one state to the other -/

/-- No hook is waiting, and none will be accepted: the namespace was closed or is gone. -/
def Shut (scope? : Option Namespace) : Prop :=
  ∀ ns, scope? = some ns → ns.closed = true ∧ ns.hooks = []

/-- A namespace that was closed has no hooks. -/
def Tidy (scope? : Option Namespace) : Prop :=
  ∀ ns, scope? = some ns → ns.closed = true → ns.hooks = []

/-- New hooks were accepted, with the numbers that follow, and none was started. -/
structure Accepts (ns : Namespace) (es : List Event) (new : List BoundHook) : Prop where
  numbers : numbers new = List.range' ns.nextHook new.length
  accepted : accepted es = Session.numbers new
  started : started es = []

/-- What may become of hooks along some events. If the namespace is closed meanwhile, hooks that are
not started then are lost, which comes about only when the call is broken off or when there is no
namespace any more. -/
inductive Passage (broken : Prop) : Option Namespace → List Event → Option Namespace → Prop
  | waiting {ns ns' : Namespace} {es : List Event} {new : List BoundHook} (h : ns.closed = false)
      (h' : ns'.closed = false) (ha : Accepts ns es new) (hooks : ns'.hooks = ns.hooks ++ new)
      (next : ns'.nextHook = ns.nextHook + new.length) : Passage broken (some ns) es (some ns')
  | closing {ns : Namespace} {scope? : Option Namespace} {before after : List Event}
      {new : List BoundHook} (h : ns.closed = false) (h' : Shut scope?) (ha : Accepts ns before new)
      (quiet : NoneAdmitted after) (inOrder : started after <+: numbers (ns.hooks ++ new))
      (full : started after = numbers (ns.hooks ++ new) ∨ broken ∨
        scope? = none ∧ started after = []) : Passage broken (some ns) (before ++ after) scope?
  | shut {scope? scope?' : Option Namespace} {es : List Event} (h : Shut scope?) (h' : Shut scope?')
      (gone : scope? = none → scope?' = none) (quiet : NoneAdmitted es) (idle : started es = []) :
      Passage broken scope? es scope?'

lemma Shut.not_open (h : Shut (some ns)) : ns.closed ≠ false := by
  rw [(h ns rfl).1]
  exact Bool.noConfusion

lemma Shut.tidy (h : Shut scope?) : Tidy scope? := fun ns hns _ => (h ns hns).2

lemma Tidy.shut (h : Tidy (some ns)) (hc : ns.closed = true) : Shut (some ns) := by
  rintro _ ⟨⟩
  exact ⟨hc, h ns rfl hc⟩

lemma shut_none : Shut none := nofun

lemma accepts_of_quiet (ns : Namespace) (quiet : NoneAdmitted es) (idle : started es = []) :
    Accepts ns es [] :=
  ⟨rfl, quiet.accepted_eq_nil, idle⟩

lemma accepts_nil (ns : Namespace) : Accepts ns [] [] := accepts_of_quiet ns noneAdmitted_nil rfl

lemma Accepts.append {ns' : Namespace} {new' : List BoundHook} (h : Accepts ns es new)
    (h' : Accepts ns' es' new') (next : ns'.nextHook = ns.nextHook + new.length) :
    Accepts ns (es ++ es') (new ++ new') where
  numbers := by
    rw [numbers_append, h.numbers, h'.numbers, next, List.length_append, List.range'_append_1]
  accepted := by rw [accepted_append, h.accepted, h'.accepted, numbers_append]
  started := by rw [started_append, h.started, h'.started, List.append_nil]

lemma Passage.mono (h : Passage b scope? es scope?') (hb : b → b') :
    Passage b' scope? es scope?' := by
  cases h with
  | waiting h h' ha hooks next => exact .waiting h h' ha hooks next
  | closing h h' ha quiet inOrder full =>
    exact .closing h h' ha quiet inOrder (full.imp_right fun h => h.imp_left hb)
  | shut h h' gone quiet idle => exact .shut h h' gone quiet idle

lemma Passage.tidy (h : Passage b scope? es scope?') : Tidy scope?' := by
  cases h with
  | waiting _ h' _ _ _ =>
    rintro _ ⟨⟩ hc
    rw [h'] at hc
    cases hc
  | closing _ h' _ _ _ _ => exact h'.tidy
  | shut _ h' _ _ _ => exact h'.tidy

/-- Once the namespace is shut, nothing becomes of hooks any more. -/
lemma Passage.of_shut (h : Passage b scope? es scope?') (hs : Shut scope?) :
    Shut scope?' ∧ (scope? = none → scope?' = none) ∧ NoneAdmitted es ∧ started es = [] := by
  cases h with
  | waiting hc _ _ _ _ | closing hc _ _ _ _ _ => exact absurd hc hs.not_open
  | shut _ h' gone quiet idle => exact ⟨h', gone, quiet, idle⟩

/-- Where the namespace stays, it stands with its hooks as before. -/
lemma passage_of_tidy (h : Tidy scope?) (quiet : NoneAdmitted es) (idle : started es = []) :
    Passage b scope? es scope? := by
  cases scope? with
  | none => exact .shut shut_none shut_none id quiet idle
  | some ns =>
    cases hc : ns.closed with
    | false => exact .waiting hc hc (accepts_of_quiet ns quiet idle) (List.append_nil _).symm rfl
    | true => exact .shut (h.shut hc) (h.shut hc) id quiet idle

theorem Passage.trans (h : Passage b scope? es scope?') (h' : Passage b' scope?' es' scope?'') :
    Passage (b ∨ b') scope? (es ++ es') scope?'' := by
  cases h with
  | @waiting ns ns' es new h hc ha hooks next =>
    cases h' with
    | @waiting _ ns'' es' new' _ h'' ha' hooks' next' =>
      refine .waiting h h'' (ha.append ha' next) ?_ ?_
      · rw [hooks', hooks, List.append_assoc]
      · rw [next', next, List.length_append, Nat.add_assoc]
    | @closing _ _ before after new' _ h'' ha' quiet inOrder full =>
      have hall : ns'.hooks ++ new' = ns.hooks ++ (new ++ new') := by
        rw [hooks, List.append_assoc]
      rw [hall] at inOrder full
      rw [← List.append_assoc]
      exact .closing h h'' (ha.append ha' next) quiet inOrder
        (full.imp_right fun h => h.imp_left Or.inr)
    | shut hs _ _ _ _ => exact absurd hc hs.not_open
  | @closing ns _ before after new h hs ha quiet inOrder full =>
    cases h' with
    | waiting hc _ _ _ _ | closing hc _ _ _ _ _ => exact absurd hc hs.not_open
    | shut _ h'' gone quiet' idle =>
      have hsame : started (after ++ es') = started after := by
        rw [started_append, idle, List.append_nil]
      rw [List.append_assoc]
      refine .closing h h'' ha (quiet.append quiet') (hsame ▸ inOrder) ?_
      rw [hsame]
      exact full.imp_right fun h => h.imp Or.inl fun h => ⟨gone h.1, h.2⟩
  | shut h hs gone quiet idle =>
    cases h' with
    | waiting hc _ _ _ _ | closing hc _ _ _ _ _ => exact absurd hc hs.not_open
    | shut _ h'' gone' quiet' idle' =>
      refine .shut h h'' (gone' ∘ gone) (quiet.append quiet') ?_
      rw [started_append, idle, idle', List.append_nil]

end Session

open Session

namespace Run

variable {α β : Type} {calls : Calls} {s : Session}

/-! ### Calls -/

/-- A call appends to what was told, goes over from one state to the other as hooks may, and leaves
the namespace there. -/
structure Heeded (s : Session) (es : List Event) (out : Except Stop α × Session) : Prop where
  journal : out.2.journal = s.journal ++ es
  passage : Passage ((∃ e, out.1 = .error e) ∧ started es ≠ []) s.scope? es out.2.scope?
  scope : out.2.scope? = none ↔ s.scope? = none

/-- So does the call from any session in which a closed namespace has no hooks. -/
def Heeds (x : Run α) : Prop := ∀ s : Session, Tidy s.scope? → ∃ es, Heeded s es (x.run s)

lemma heeded_told {es : List Event} (hs : Tidy s.scope?) (a : Except Stop α)
    (quiet : NoneAdmitted es) (idle : started es = []) : Heeded s es (a, s.told es) :=
  ⟨rfl, passage_of_tidy hs quiet idle, Iff.rfl⟩

lemma heeded_self (hs : Tidy s.scope?) (a : Except Stop α) : Heeded s [] (a, s) := by
  have h := heeded_told hs a noneAdmitted_nil rfl
  rwa [told_nil] at h

/-- A call that leaves the namespace alone and tells nothing of hooks. -/
lemma heeds_of_scope {x : Run α} (hscope : ∀ s : Session, (x.run s).2.scope? = s.scope?)
    (hquiet : ∀ s : Session, ∃ es, (x.run s).2.journal = s.journal ++ es ∧ NoneAdmitted es ∧
      started es = []) : Heeds x := by
  intro s hs
  obtain ⟨es, hj, quiet, idle⟩ := hquiet s
  refine ⟨es, hj, ?_, by rw [hscope]⟩
  rw [hscope]
  exact passage_of_tidy hs quiet idle

lemma Silent.heeds {x : Run α} (h : Silent x) : Heeds x :=
  heeds_of_scope (fun s => (h s).scope) fun s =>
    ⟨[], by rw [(h s).journal, List.append_nil], noneAdmitted_nil, rfl⟩

lemma Heeds.bind {x : Run α} {f : α → Run β} (hx : Heeds x) (hf : ∀ a, Heeds (f a)) :
    Heeds (x >>= f) := by
  intro s hs
  obtain ⟨es, h⟩ := hx s hs
  rw [run_bind]
  rcases hr : x.run s with ⟨e | a, s'⟩
  · rw [hr] at h
    exact ⟨es, h.journal, h.passage.mono fun hb => ⟨⟨e, rfl⟩, hb.2⟩, h.scope⟩
  · rw [hr] at h
    obtain ⟨es', h'⟩ := hf a s' h.passage.tidy
    refine ⟨es ++ es', ?_, (h.passage.trans h'.passage).mono ?_, h'.scope.trans h.scope⟩
    · rw [h'.journal, h.journal, List.append_assoc]
    · rintro (⟨⟨e, he⟩, -⟩ | ⟨he, hne⟩)
      · cases he
      · refine ⟨he, fun hnil => hne ?_⟩
        rw [started_append, List.append_eq_nil_iff] at hnil
        exact hnil.2

lemma Heeds.borrowing {call : Run α} (h : Heeds call) (refs : List Ref) :
    Heeds (borrowing refs call) := by
  intro s hs
  obtain ⟨es, hes⟩ := h (lend s refs) hs
  have hsilent := Session.silent_settle (regain (call.run (lend s refs)).2 s.inUse)
  rw [run_borrowing]
  refine ⟨es, hsilent.journal.trans hes.journal, ?_, ?_⟩
  · rw [hsilent.scope]
    exact hes.passage
  · rw [hsilent.scope]
    exact hes.scope

lemma heeds_emit {e : Event} (ha : ¬ e.Admits) (hs : e.started? = none) : Heeds (emit e) :=
  heeds_of_scope (fun _ => rfl) fun _ =>
    ⟨[e], rfl, List.forall_mem_singleton.2 ha, by rw [started, List.filterMap_cons_none hs]; rfl⟩

lemma heeds_bump (c : Counter) : Heeds (bump c) :=
  heeds_of_scope (fun _ => rfl) fun _ => ⟨[], (List.append_nil _).symm, noneAdmitted_nil, rfl⟩

lemma heeds_refused (k : SinkId) (o : SinkOperation) (name : String) (message? : Option String)
    (f : Fault) : Heeds (emit .sinkRefused >>= fun _ => report k o name message? f) := by
  refine heeds_of_scope (fun s => ?_) fun s => ?_
  · rw [run_refused]
    rfl
  · rw [run_refused, refused]
    refine ⟨_, rfl, ?_, ?_⟩
    · split_ifs
      · exact List.forall_mem_singleton.2 id
      · exact List.forall_mem_cons.2 ⟨id, List.forall_mem_singleton.2 id⟩
    · split_ifs <;> rfl

lemma composes_heeds : Composes @Heeds where
  silent := Silent.heeds
  bind := Heeds.bind
  borrowing refs h := h.borrowing refs
  emit {e} he := by
    apply heeds_emit
    · cases e with
      | hookAccepted | hookAdded => exact he.elim
      | _ => exact id
    · cases e with
      | hookStarted => exact he.elim
      | _ => rfl
  refused := heeds_refused

lemma heeds_register {f : Namespace → Namespace} (hh : ∀ ns, (f ns).hooks = ns.hooks)
    (hn : ∀ ns, (f ns).nextHook = ns.nextHook) (hc : ∀ ns, (f ns).closed = ns.closed) :
    Heeds (modifyNamespace f) := by
  intro s hs
  refine ⟨[], (List.append_nil _).symm, ?_, Option.map_eq_none_iff⟩
  show Passage _ s.scope? [] (s.scope?.map f)
  cases hscope : s.scope? with
  | none => exact .shut shut_none shut_none id noneAdmitted_nil rfl
  | some ns =>
    rw [hscope] at hs
    cases hclosed : ns.closed with
    | false =>
      refine .waiting hclosed ((hc ns).trans hclosed) (accepts_nil ns) ?_ (hn ns)
      rw [hh, List.append_nil]
    | true =>
      refine .shut (hs.shut hclosed) ?_ nofun noneAdmitted_nil rfl
      rintro _ ⟨⟩
      exact ⟨(hc ns).trans hclosed, (hh ns).trans (hs ns rfl hclosed)⟩

/-! ### Registration -/

/-- The session after a hook was accepted. -/
def admitted (s : Session) (ns : Namespace) (actions : List BoundAction) : Session :=
  { s with
    scope? := some { ns with
      hooks := ns.hooks ++ [⟨ns.nextHook, actions⟩], nextHook := ns.nextHook + 1 }
    journal := s.journal ++ [.hookAccepted ns.nextHook] }

lemma run_addHook (actions : List BoundAction) (s : Session) :
    (addHook actions).run s =
      match s.scope? with
      | none => (.error (.unknown "namespace"), s)
      | some ns =>
        if ns.closed then (.error (.fault .closed), s) else (.ok (), admitted s ns actions) := by
  rw [addHook, run_bind]
  change (match s.scope? with | none => _ | some ns => _ : Run Unit).run s = _
  cases hns : s.scope? with
  | none => rfl
  | some ns =>
    cases hc : ns.closed with
    | true => simp only [hc, if_true]; rfl
    | false =>
      simp only [hc, Bool.false_eq_true, if_false]
      rw [run_bind, run_modifyNamespace, hns]
      rfl

lemma passage_admitted (s : Session) {ns : Namespace} (hc : ns.closed = false)
    (actions : List BoundAction) {b : Prop} {es : List Event} (he : accepted es = [])
    (hs : started es = []) :
    Passage b (some ns) (.hookAccepted ns.nextHook :: es) (admitted s ns actions).scope? := by
  have haccepted : accepted (.hookAccepted ns.nextHook :: es) = [ns.nextHook] := by
    show ns.nextHook :: accepted es = [ns.nextHook]
    rw [he]
  have ha : Accepts ns (.hookAccepted ns.nextHook :: es) [⟨ns.nextHook, actions⟩] :=
    ⟨rfl, haccepted, hs⟩
  exact .waiting hc hc ha rfl rfl

lemma heeds_addHook (actions : List BoundAction) : Heeds (addHook actions) := by
  intro s hs
  rw [run_addHook]
  cases hns : s.scope? with
  | none => exact ⟨[], heeded_self hs _⟩
  | some ns =>
    cases hc : ns.closed with
    | true =>
      simp only [hc, if_true]
      exact ⟨[], heeded_self hs _⟩
    | false =>
      simp only [hc, Bool.false_eq_true, if_false]
      refine ⟨[.hookAccepted ns.nextHook], rfl, ?_, ?_⟩
      · rw [hns]
        exact passage_admitted s hc actions rfl rfl
      · rw [hns]
        exact iff_of_false (Option.some_ne_none _) (Option.some_ne_none _)

/-- What a callback that registers a hook does. -/
lemma run_offerHook (calls : Calls) (text : String) (s : Session) :
    (Action.perform calls (.addHook text)).run s =
      match s.scope? with
      | none => (.ok (), s)
      | some ns =>
        if ns.closed then (.ok (), s.told [.hookAdded (some .closed)])
        else (.ok (), (admitted s ns [.note text]).told [.hookAdded none]) := by
  show ((get >>= fun s : Session => if s.scope?.isSome then _ else _ : Run Unit)).run s = _
  rw [run_bind]
  change (if s.scope?.isSome then _ else _ : Run Unit).run s = _
  cases hns : s.scope? with
  | none => rfl
  | some ns =>
    change ((get >>= fun s : Session =>
      if s.scope?.any (·.closed) then _ else _ : Run Unit)).run s = _
    rw [run_bind]
    change (if s.scope?.any (·.closed) then _ else _ : Run Unit).run s = _
    rw [hns]
    cases hc : ns.closed with
    | true => simp only [Option.any_some, hc, if_true]; rfl
    | false =>
      simp only [Option.any_some, hc, Bool.false_eq_true, if_false]
      rw [run_bind, run_addHook, hns]
      simp only [hc, Bool.false_eq_true, if_false]
      rfl

lemma heeds_offerHook (calls : Calls) (text : String) :
    Heeds (Action.perform calls (.addHook text)) := by
  intro s hs
  rw [run_offerHook]
  cases hns : s.scope? with
  | none => exact ⟨[], heeded_self hs _⟩
  | some ns =>
    cases hc : ns.closed with
    | true =>
      simp only [hc, if_true]
      exact ⟨_, heeded_told hs _ (List.forall_mem_singleton.2 id) rfl⟩
    | false =>
      simp only [hc, Bool.false_eq_true, if_false]
      refine ⟨[.hookAccepted ns.nextHook, .hookAdded none], by simp [told, admitted], ?_, ?_⟩
      · rw [hns]
        exact passage_admitted s hc _ rfl rfl
      · rw [hns]
        exact iff_of_false (Option.some_ne_none _) (Option.some_ne_none _)

/-! ### Closing -/

/-- What the run of some hooks does once the namespace is shut: it starts them in order, all of them
or up to one that stops, after which nothing more is told. -/
structure Starts (calls : Calls) (hooks : List BoundHook) (s : Session) (es : List Event)
    (out : Except Stop Unit × Session) : Prop where
  journal : out.2.journal = s.journal ++ es
  shut : Shut out.2.scope?
  scope : out.2.scope? = none ↔ s.scope? = none
  quiet : NoneAdmitted es
  all_or_broken : out.1 = .ok () ∧ started es = numbers hooks ∨
    ∃ done h rest e, hooks = done ++ h :: rest ∧ started es = numbers (done ++ [h]) ∧
      out.1 = .error e ∧ ∃ u, ((calls.hook h).run u).1 = .error e ∧
        ((calls.hook h).run u).2.journal = out.2.journal

variable {hooks : List BoundHook} {h : BoundHook} {es es' : List Event} {s' : Session}
  {out : Except Stop Unit × Session}

lemma Starts.inOrder (hs : Starts calls hooks s es out) : started es <+: numbers hooks := by
  rcases hs.all_or_broken with ⟨-, hall⟩ | ⟨done, h, rest, e, rfl, hdone, -, -⟩
  · exact hall ▸ List.prefix_rfl
  · rw [hdone, List.append_cons done h rest, numbers_append (done ++ [h]) rest]
    exact List.prefix_append _ _

/-- The session that a call leaves may change silently. -/
lemma Starts.of_silent (hs : Starts calls hooks s es out) (h : out.2.Silent s') :
    Starts calls hooks s es (out.1, s') where
  journal := h.journal.trans hs.journal
  shut := h.scope ▸ hs.shut
  scope := by rw [h.scope, hs.scope]
  quiet := hs.quiet
  all_or_broken := by
    rw [h.journal]
    exact hs.all_or_broken

lemma Starts.borrowing {call : Run Unit} {refs : List Ref}
    (hs : Starts calls hooks (lend s refs) es (call.run (lend s refs))) :
    Starts calls hooks s es ((borrowing refs call).run s) := by
  have hregain : (call.run (lend s refs)).2.Silent (regain (call.run (lend s refs)).2 s.inUse) :=
    ⟨rfl, rfl, rfl, rfl, rfl⟩
  have h := hs.of_silent (hregain.trans (Session.silent_settle _))
  exact ⟨h.journal, h.shut, h.scope, h.quiet, h.all_or_broken⟩

/-- A hook that comes back is followed by the others. -/
lemma Starts.cons (hs : Starts calls [h] s es (.ok (), s')) (h' : Starts calls hooks s' es' out) :
    Starts calls (h :: hooks) s (es ++ es') out where
  journal := by rw [h'.journal, hs.journal, List.append_assoc]
  shut := h'.shut
  scope := h'.scope.trans hs.scope
  quiet := hs.quiet.append h'.quiet
  all_or_broken := by
    have hfirst : started es = numbers [h] := by
      rcases hs.all_or_broken with ⟨-, hall⟩ | ⟨_, _, _, _, -, -, he, -⟩
      · exact hall
      · cases he
    rcases h'.all_or_broken with ⟨hok, hall⟩ | ⟨done, k, rest, e, rfl, hdone, he, hk⟩
    · refine Or.inl ⟨hok, ?_⟩
      rw [started_append, hfirst, hall]
      rfl
    · refine Or.inr ⟨h :: done, k, rest, e, rfl, ?_, he, hk⟩
      rw [started_append, hfirst, hdone]
      rfl

/-- No hook is started after one that stops. -/
lemma Starts.stopped {e : Stop} (hs : Starts calls [h] s es (.error e, s'))
    (hooks : List BoundHook) : Starts calls (h :: hooks) s es (.error e, s') where
  journal := hs.journal
  shut := hs.shut
  scope := hs.scope
  quiet := hs.quiet
  all_or_broken := by
    rcases hs.all_or_broken with ⟨hok, -⟩ | ⟨done, k, rest, e', hk, hdone, he, hbroken⟩
    · cases hok
    · obtain ⟨rfl, hrest⟩ | ⟨done', rfl, hrest⟩ := List.cons_eq_append_iff.1 hk
      · cases hrest
        exact Or.inr ⟨[], h, hooks, e', rfl, hdone, he, hbroken⟩
      · cases List.append_ne_nil_of_right_ne_nil done' (List.cons_ne_nil k rest) hrest.symm

lemma starts_hook (hcalls : CallsIn @Heeds calls) (h : BoundHook) (hs : Shut s.scope?) :
    ∃ es, Starts calls [h] s es
      ((emit (.hookStarted h.number) >>= fun _ => calls.hook h).run s) := by
  obtain ⟨es, hes⟩ := hcalls.hook h (s.told [.hookStarted h.number]) hs.tidy
  obtain ⟨hshut, -, quiet, idle⟩ := hes.passage.of_shut hs
  have hstarted : started (.hookStarted h.number :: es) = numbers [h] := by
    show h.number :: started es = [h.number]
    rw [idle]
  have hrun : (emit (.hookStarted h.number) >>= fun _ => calls.hook h).run s =
      (calls.hook h).run (s.told [.hookStarted h.number]) := run_bind _ _ _
  rw [hrun]
  refine ⟨.hookStarted h.number :: es, ?_, hshut, hes.scope,
    List.forall_mem_cons.2 ⟨id, quiet⟩, ?_⟩
  · rw [hes.journal, told, List.append_assoc]
    rfl
  · rcases hr : (calls.hook h).run (s.told [.hookStarted h.number]) with ⟨e | _, s'⟩
    · refine Or.inr ⟨[], h, [], e, rfl, hstarted, rfl, s.told [.hookStarted h.number], ?_, ?_⟩
      · rw [hr]
      · rw [hr]
    · exact Or.inl ⟨rfl, hstarted⟩

/-- Hooks are run in order, one after the other. -/
theorem starts_runHooks (hcalls : CallsIn @Heeds calls) (hooks : List BoundHook)
    (hs : Shut s.scope?) : ∃ es, Starts calls hooks s es ((runHooks calls hooks).run s) := by
  induction hooks generalizing s with
  | nil => exact ⟨[], (List.append_nil _).symm, hs, Iff.rfl, noneAdmitted_nil, Or.inl ⟨rfl, rfl⟩⟩
  | cons h hooks ih =>
    let first := borrowing (refsOfHooks [h])
      (emit (.hookStarted h.number) >>= fun _ => calls.hook h)
    have hfirst : ∀ u : Session, Shut u.scope? → ∃ es, Starts calls [h] u es (first.run u) :=
      fun u hu => by
        obtain ⟨es, hes⟩ := starts_hook (s := lend u (refsOfHooks [h])) hcalls h hu
        exact ⟨es, hes.borrowing⟩
    suffices hbody : ∃ es, Starts calls (h :: hooks) (lend s (refsOfHooks hooks)) es
        ((first >>= fun _ => runHooks calls hooks).run (lend s (refsOfHooks hooks))) by
      obtain ⟨es, hes⟩ := hbody
      exact ⟨es, hes.borrowing⟩
    obtain ⟨es, hes⟩ := hfirst (lend s (refsOfHooks hooks)) hs
    rw [run_bind]
    rcases hr : first.run (lend s (refsOfHooks hooks)) with ⟨e | _, s'⟩
    · rw [hr] at hes
      exact ⟨es, hes.stopped hooks⟩
    · rw [hr] at hes
      obtain ⟨es', hes'⟩ := ih (s := s') hes.shut
      exact ⟨es ++ es', hes.cons hes'⟩

/-- The session in which a namespace was closed and its hooks were taken. -/
def taken (s : Session) (ns : Namespace) : Session :=
  { s with scope? := some { ns with closed := true, hooks := [] } }

lemma shut_taken (s : Session) (ns : Namespace) : Shut (taken s ns).scope? := by
  rintro _ ⟨⟩
  exact ⟨rfl, rfl⟩

/-- The session in which the tree was reset and the ends of handles were dealt with. -/
def renewed (u : Session) : Session :=
  ({ u with tree := u.tree.reset Tree.root } : Session).settle.reclaim.2

lemma silent_renewed (u : Session) : u.Silent (renewed u) :=
  (silent_reset Tree.root u).trans (Session.silent_reclaim _)

/-- A call to close a namespace takes its hooks and runs them. If it comes back, it has reset the
tree in the end. -/
theorem starts_close (hcalls : CallsIn @Heeds calls) {ns : Namespace} (hns : s.scope? = some ns) :
    ∃ es, Starts calls ns.hooks (taken s ns) es ((close calls).run s) ∧
      (((close calls).run s).1 = .ok () →
        ∃ u, (runHooks calls ns.hooks).run (taken s ns) = (.ok (), u) ∧
          ((close calls).run s).2 = renewed u) := by
  obtain ⟨es, hes⟩ := starts_runHooks hcalls ns.hooks (shut_taken s ns)
  have hrun : (close calls).run s = (runHooks calls ns.hooks >>= fun _ => reset Tree.root >>=
      fun _ => reclaim >>= fun _ => pure ()).run (taken s ns) := by
    rw [run_close, hns]
    rfl
  rw [hrun, run_bind]
  rcases hr : (runHooks calls ns.hooks).run (taken s ns) with ⟨e | _, u⟩
  · rw [hr] at hes
    exact ⟨es, hes, nofun⟩
  · rw [hr] at hes
    have hrest : (reset Tree.root >>= fun _ => reclaim >>= fun _ => pure () : Run Unit).run u =
        (.ok (), renewed u) := rfl
    dsimp only
    rw [hrest]
    refine ⟨es, hes.of_silent (silent_renewed u), fun _ => ⟨u, rfl, ?_⟩⟩
    dsimp only

lemma heeds_close (hcalls : CallsIn @Heeds calls) : Heeds (close calls) := by
  intro s hs
  cases hns : s.scope? with
  | none =>
    rw [run_close, hns]
    exact ⟨[], heeded_self hs _⟩
  | some ns =>
    obtain ⟨es, hes, -⟩ := starts_close hcalls hns
    have hscope : ((close calls).run s).2.scope? = none ↔ s.scope? = none := by
      rw [hes.scope, hns]
      exact iff_of_false (Option.some_ne_none _) (Option.some_ne_none _)
    refine ⟨es, hes.journal, ?_, hscope⟩
    rw [hns] at hs ⊢
    cases hc : ns.closed with
    | false =>
      show Passage _ (some ns) ([] ++ es) _
      refine .closing hc hes.shut (accepts_nil ns) hes.quiet ?_ ?_
      · rw [List.append_nil]
        exact hes.inOrder
      · rw [List.append_nil]
        rcases hes.all_or_broken with ⟨-, hall⟩ | ⟨done, h, rest, e, -, hdone, he, -⟩
        · exact Or.inl hall
        · refine Or.inr (Or.inl ⟨⟨e, he⟩, ?_⟩)
          show started es ≠ []
          rw [hdone, numbers_append]
          exact List.append_ne_nil_of_right_ne_nil _ (List.cons_ne_nil _ _)
    | true =>
      have hnone := hes.inOrder
      rw [hs ns rfl hc] at hnone
      exact .shut (hs.shut hc) hes.shut nofun hes.quiet (List.prefix_nil.1 hnone)

theorem lawful_heeds : Lawful @Heeds where
  toComposes := composes_heeds
  logRecord hcalls := composes_heeds.logRecord hcalls heeds_bump (heeds_emit id rfl)
  changeLevels _ := heeds_register (fun _ => rfl) (fun _ => rfl) fun _ => rfl
  changeFilters _ := heeds_register (fun _ => rfl) (fun _ => rfl) fun _ => rfl
  addHook := heeds_addHook
  offerHook := heeds_offerHook
  close := heeds_close

theorem callsHeed_within (depth : Nat) : CallsIn @Heeds (Calls.within depth) :=
  lawful_heeds.callsIn_within depth

end Run

/-! ### Steps -/

open Run

/-- All steps but the one that drops the namespace leave it there. -/
theorem Step.heeds_take [Pattern.Engine] (depth : Nat) {step : Step}
    (hdrop : step ≠ .dropNamespace) :
    Heeds (step.take (Calls.within depth)) := by
  have hclient : ∀ f : Client → Client, Heeds (modifyClient f) := fun f =>
    heeds_of_scope (fun s => (Session.silent_settle { s with client := f s.client }).scope) fun s =>
      ⟨[], (Session.silent_settle { s with client := f s.client }).journal.trans
        (List.append_nil _).symm, noneAdmitted_nil, rfl⟩
  have hmetrics : Heeds (modify fun s => { s with metrics := {} }) :=
    heeds_of_scope (fun _ => rfl) fun _ => ⟨[], (List.append_nil _).symm, noneAdmitted_nil, rfl⟩
  by_cases hstep : step.KeepsStanding
  · exact lawful_heeds.take (callsHeed_within depth) hstep hdrop
  · exact composes_heeds.take _ hclient hmetrics hstep

/-- The step was broken off after it had started hooks. -/
def Report.BrokenOff (r : Report) : Prop := (∃ e, r.answer = .error e) ∧ started r.journal ≠ []

namespace Session

variable {b : Prop} {scope? : Option Namespace} {s : Session}

/-- What happened along some reports. -/
def eventsOf (reports : List Report) : List Event := reports.flatMap Report.journal

/-- A namespace is dropped with the hooks that are waiting. -/
lemma passage_drop (hs : Tidy scope?) : Passage b scope? [] none := by
  cases scope? with
  | none => exact .shut shut_none shut_none id noneAdmitted_nil rfl
  | some ns =>
    cases hc : ns.closed with
    | false =>
      show Passage b (some ns) ([] ++ []) none
      exact .closing hc shut_none (accepts_nil ns) noneAdmitted_nil List.nil_prefix
        (Or.inr (Or.inr ⟨rfl, rfl⟩))
    | true => exact .shut (hs.shut hc) shut_none nofun noneAdmitted_nil rfl

lemma step_dropNamespace [Pattern.Engine] (calls : Calls) (s : Session) :
    (s.step calls .dropNamespace).1.journal = [] ∧
      (s.step calls .dropNamespace).2.scope? = none := by
  have hrun : ∀ s : Session, ((Step.dropNamespace.take calls).run s).2.journal = s.journal ∧
      ((Step.dropNamespace.take calls).run s).2.scope? = none := by
    intro s
    change ((if s.scope?.isSome then _ else _ : Run Answer).run s).2.journal = _ ∧
      ((if s.scope?.isSome then _ else _ : Run Answer).run s).2.scope? = _
    cases hns : s.scope? with
    | none => exact ⟨rfl, hns⟩
    | some ns =>
      have h := Session.silent_settle { s with tree := s.tree.takeDown Tree.root, scope? := none }
      exact ⟨h.journal, h.scope⟩
  exact hrun { s with journal := [] }

lemma passage_step [Pattern.Engine] (depth : Nat) (hs : Tidy s.scope?) (step : Step) :
    Passage (s.step (Calls.within depth) step).1.BrokenOff s.scope?
      (s.step (Calls.within depth) step).1.journal (s.step (Calls.within depth) step).2.scope? := by
  by_cases hdrop : step = .dropNamespace
  · subst hdrop
    obtain ⟨hj, hscope⟩ := step_dropNamespace (Calls.within depth) s
    rw [hj, hscope]
    exact passage_drop hs
  · obtain ⟨es, hes⟩ := Step.heeds_take depth hdrop { s with journal := [] } hs
    have hj : (s.step (Calls.within depth) step).1.journal = es :=
      hes.journal.trans (List.nil_append es)
    rw [Report.BrokenOff, hj]
    exact hes.passage

theorem passage_steps [Pattern.Engine] (depth : Nat) (hs : Tidy s.scope?) (steps : List Step) :
    Passage (∃ r ∈ (s.steps (Calls.within depth) steps).1, r.BrokenOff) s.scope?
      (eventsOf (s.steps (Calls.within depth) steps).1)
      (s.steps (Calls.within depth) steps).2.scope? := by
  induction steps generalizing s with
  | nil => exact passage_of_tidy hs noneAdmitted_nil rfl
  | cons step more ih =>
    have hfirst := passage_step depth hs step
    refine (hfirst.trans (ih hfirst.tidy)).mono ?_
    rintro (h | ⟨r, hr, h⟩)
    · exact ⟨_, List.mem_cons_self, h⟩
    · exact ⟨r, List.mem_cons_of_mem _ hr, h⟩

end Session

end Logging
