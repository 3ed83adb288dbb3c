import Logging.Proofs.Session.EntryPoints
import Logging.Proofs.Session.Steps

/-!
# Properties of all calls

A property of calls that holds of those that calls are put together from, and goes over from parts
to the whole, holds of all that callbacks do, however deep they are nested
(`Run.Carries.callsIn_within`), and of the steps of a client (`Run.Lawful.take`). What the parts are
is said by `Run.Composes`, which is about the delivery of records, by `Run.Carries`, which adds
calls to log a record, levels and hooks, and by `Run.Lawful`, which adds named filters: these are
for the client alone. Most calls are silent: they tell nothing, and leave the namespace, the walks
of the client and what was counted of records alone.
-/

namespace Logging

namespace Filter

variable {π : Type} {m : Type → Type} [Monad m] {call : π → Record → m Outcome}
  {C : m Outcome → Prop}

mutual

/-- What holds of answers and of calls that go on with an answer holds of the evaluation of a filter
if it holds of the calls of predicates. -/
lemma evaluate_closed (hpure : ∀ v, C (pure v))
    (hbind : ∀ {x f}, C x → (∀ v, C (f v)) → C (x >>= f)) (hcall : ∀ p r, C (call p r))
    (f : Filter π) (r : Record) : C (f.evaluate call r) := by
  cases f with
  | not f => exact hbind (evaluate_closed hpure hbind hcall f r) fun _ => hpure _
  | all fs => exact evaluateAll_closed hpure hbind hcall fs r
  | any fs => exact evaluateAny_closed hpure hbind hcall fs r
  | named name p => exact hcall p r
  | reference name f => exact evaluate_closed hpure hbind hcall f r
  | accept | deny | levels | levelRange | levelChange | «match» | substitute => exact hpure _

lemma evaluateAll_closed (hpure : ∀ v, C (pure v))
    (hbind : ∀ {x f}, C x → (∀ v, C (f v)) → C (x >>= f)) (hcall : ∀ p r, C (call p r))
    (fs : List (Filter π)) (r : Record) : C (evaluateAll call fs r) := by
  cases fs with
  | nil => exact hpure _
  | cons f fs =>
    refine hbind (evaluate_closed hpure hbind hcall f r) fun v => ?_
    rcases v with ⟨_ | _, r'⟩
    · exact hpure (false, r')
    · exact evaluateAll_closed hpure hbind hcall fs r'

lemma evaluateAny_closed (hpure : ∀ v, C (pure v))
    (hbind : ∀ {x f}, C x → (∀ v, C (f v)) → C (x >>= f)) (hcall : ∀ p r, C (call p r))
    (fs : List (Filter π)) (r : Record) : C (evaluateAny call fs r) := by
  cases fs with
  | nil => exact hpure _
  | cons f fs =>
    refine hbind (evaluate_closed hpure hbind hcall f r) fun v => ?_
    rcases v with ⟨_ | _, r'⟩
    · exact evaluateAny_closed hpure hbind hcall fs r'
    · exact hpure (true, r')

end

end Filter

/-! ### Silent changes -/

namespace Session

variable {s s' s'' : Session}

/-- Nothing was told, and the namespace, the walks of the client and the counts of records and of
failures are as before. -/
structure Silent (s s' : Session) : Prop where
  scope : s'.scope? = s.scope?
  journal : s'.journal = s.journal
  walks : s'.client.walks = s.client.walks
  offered : s'.metrics.offered = s.metrics.offered
  sinkFailures : s'.metrics.sinkFailures = s.metrics.sinkFailures

lemma Silent.refl (s : Session) : s.Silent s := ⟨rfl, rfl, rfl, rfl, rfl⟩

lemma Silent.trans (h : s.Silent s') (h' : s'.Silent s'') : s.Silent s'' :=
  ⟨h'.scope.trans h.scope, h'.journal.trans h.journal, h'.walks.trans h.walks,
    h'.offered.trans h.offered, h'.sinkFailures.trans h.sinkFailures⟩

lemma End.silent (h : s.End s') : s.Silent s' := by
  cases h with
  | removeChild => exact ⟨rfl, rfl, rfl, rfl, rfl⟩
  | @destroy r hr => cases r <;> exact ⟨rfl, rfl, rfl, rfl, rfl⟩

lemma Ends.silent (h : s.Ends s') : s.Silent s' := by
  induction h with
  | refl => exact .refl s
  | tail _ h ih => exact ih.trans h.silent

lemma silent_settle (s : Session) : s.Silent s.settle := (ends_settle s).silent

lemma silent_reclaim (s : Session) : s.Silent s.reclaim.2 := by
  refine reclaimWithin_induction (motive := s.Silent) (fun s' a rest _ h => ?_) _ (.refl s)
  have hstrike : s'.Silent (({ s' with notices := rest } : Session).strikeOff a) :=
    ⟨rfl, rfl, rfl, rfl, rfl⟩
  exact (h.trans hstrike).trans (ends_process _ a).silent

end Session

open Session

/-- Whether an event tells neither of calls nor of hooks. -/
def Event.Plain : Event → Prop
  | .logReturned | .sinkRefused | .hookAdded _ | .hookAccepted _ | .hookStarted _ => False
  | _ => True

namespace Run

variable {α β : Type} {calls : Calls}

def Silent (x : Run α) : Prop := ∀ s : Session, s.Silent (x.run s).2

lemma Reads.silent {x : Run α} (h : Reads x) : Silent x := fun s => by
  rw [h s]
  exact .refl s

lemma Silent.bind {x : Run α} {f : α → Run β} (hx : Silent x) (hf : ∀ a, Silent (f a)) :
    Silent (x >>= f) := by
  intro s
  have h := hx s
  rw [run_bind]
  rcases hr : x.run s with ⟨e | a, s'⟩
  · rwa [hr] at h
  · rw [hr] at h
    exact h.trans (hf a s')

lemma silent_settle : Silent settle := Session.silent_settle

lemma silent_reclaim : Silent reclaim := Session.silent_reclaim

lemma silent_modifyNode (n : NodeId) (f : Node → Node) : Silent (modifyNode n f) :=
  fun _ => ⟨rfl, rfl, rfl, rfl, rfl⟩

lemma silent_getOrCreate (n : NodeId) (name : String) : Silent (getOrCreate n name) :=
  fun _ => ⟨rfl, rfl, rfl, rfl, rfl⟩

lemma silent_setLevel (n : NodeId) (l? : Option Level) : Silent (setLevel n l?) :=
  fun _ => ⟨rfl, rfl, rfl, rfl, rfl⟩

lemma silent_reset (n : NodeId) : Silent (reset n) := fun s =>
  have h : s.Silent { s with tree := s.tree.reset n } := ⟨rfl, rfl, rfl, rfl, rfl⟩
  h.trans (Session.silent_settle _)

lemma silent_setFilter (n : NodeId) (f? : Option NodeFilter) : Silent (setFilter n f?) :=
  (silent_modifyNode _ _).bind fun _ => silent_settle

lemma silent_changeSinks (n : NodeId) (f : NodeSinks → α × NodeSinks) :
    Silent (changeSinks n f) :=
  (reads_node n).silent.bind fun _ => (silent_modifyNode _ _).bind fun _ =>
    silent_settle.bind fun _ => (reads_pure _).silent

/-- What a client holds may change, but for its walks. -/
lemma silent_modifyClient {f : Client → Client} (hw : ∀ c, (f c).walks = c.walks) :
    Silent (modifyClient f) := fun s =>
  have h : s.Silent { s with client := f s.client } := ⟨rfl, rfl, hw s.client, rfl, rfl⟩
  h.trans (Session.silent_settle _)

lemma silent_modifyClient_bind {f : Client → Client} {g : Unit → Run α}
    (hw : ∀ c, (f c).walks = c.walks) (hg : Silent (g ())) : Silent (modifyClient f >>= g) :=
  (silent_modifyClient hw).bind fun _ => hg

lemma silent_keepHandle (as? : Option String) (h : HandleId) : Silent (keepHandle as? h) := by
  refine (reads_nodeOf h).silent.bind fun n => (reads_fullName n).silent.bind fun _ => ?_
  cases as? with
  | none => exact (reads_pure _).silent
  | some id => exact silent_modifyClient_bind (fun _ => rfl) (reads_pure _).silent

lemma silent_keepNode (as? : Option String) (n : NodeId) : Silent (keepNode as? n) := by
  refine (reads_fullName n).silent.bind fun _ => ?_
  cases as? with
  | none => exact (reads_pure _).silent
  | some id => exact silent_modifyClient_bind (fun _ => rfl) (reads_pure _).silent

lemma silent_saveArray (save? : Option String) (a : NodeSinks) : Silent (saveArray save? a) := by
  refine (reads_sinkNames a).silent.bind fun _ => ?_
  cases save? with
  | none => exact (reads_pure _).silent
  | some id => exact silent_modifyClient_bind (fun _ => rfl) (reads_pure _).silent

lemma silent_changeAttachments (n : NodeId)
    (f : Attachments → String → Except Fault (Option AttachmentValue × Attachments)) :
    Silent (changeAttachments n f) :=
  (reads_node n).silent.bind fun _ => (reads_ofExcept _).silent.bind fun _ =>
    (silent_modifyNode _ _).bind fun _ => (reads_pure _).silent

/-! ### Delivery of records -/

/-- The property goes over from parts to the whole, and holds of what the delivery of records is put
together from. -/
structure Composes (C : ∀ α : Type, Run α → Prop) : Prop where
  silent {α : Type} {x : Run α} : Silent x → C α x
  bind {α β : Type} {x : Run α} {f : α → Run β} : C α x → (∀ a, C β (f a)) → C β (x >>= f)
  borrowing {α : Type} {x : Run α} (refs : List Ref) : C α x → C α (borrowing refs x)
  emit {e : Event} : e.Plain → C Unit (emit e)
  refused (k : SinkId) (o : SinkOperation) (name : String) (message? : Option String) (f : Fault) :
    C Unit (Run.emit .sinkRefused >>= fun _ => report k o name message? f)

/-- The property holds of what a program gave to the tree. -/
structure CallsIn (C : ∀ α : Type, Run α → Prop) (calls : Calls) : Prop where
  predicate : ∀ p r, C _ (calls.predicate p r)
  publish : ∀ k r, C _ (calls.publish k r)
  flush : ∀ k, C _ (calls.flush k)
  hook : ∀ h, C _ (calls.hook h)

namespace Composes

variable {C : ∀ α : Type, Run α → Prop} (hC : Composes C) {x : Run α} {f : α → Run β}

include hC

lemma pure (a : α) : C α (Pure.pure a) := hC.silent (reads_pure a).silent

lemma stop (e : Stop) : C α (stop e) := hC.silent (reads_stop e).silent

lemma ofReads (hx : Reads x) : C α x := hC.silent hx.silent

lemma after_read (hx : Reads x) (hf : ∀ a, C β (f a)) : C β (x >>= f) := hC.bind (hC.ofReads hx) hf

lemma after_silent (hx : Silent x) (hf : ∀ a, C β (f a)) : C β (x >>= f) :=
  hC.bind (hC.silent hx) hf

lemma forM {f : α → Run Unit} (hf : ∀ a, C Unit (f a)) (l : List α) : C Unit (l.forM f) := by
  induction l with
  | nil => exact hC.pure _
  | cons a l ih => exact hC.bind (hf a) fun _ => ih

lemma withHandle (n : NodeId) {use : HandleId → Run α} (hu : ∀ h, C α (use h)) :
    C α (withHandle n use) := by
  have hpush : Silent (modify fun s => { s with handles := s.handles.push n }) :=
    fun _ => ⟨rfl, rfl, rfl, rfl, rfl⟩
  refine hC.after_read reads_get fun s => hC.after_silent hpush fun _ =>
    hC.after_silent (silent_modifyNode _ _) fun _ => hC.borrowing _ ?_
  exact hC.after_silent silent_reclaim fun _ => hu s.handles.next

lemma logger (name : String) {use : HandleId → Run α} (hu : ∀ h, C α (use h)) :
    C α (logger name use) :=
  hC.after_silent silent_reclaim fun _ => hC.after_silent (silent_getOrCreate _ _) fun n =>
    hC.withHandle n hu

lemma serveAlong {visit : SinkId → Run Unit} (hv : ∀ k, C Unit (visit k)) (path : List NodeId) :
    C Unit (serveAlong visit path) := by
  induction path with
  | nil => exact hC.pure _
  | cons n path ih =>
    have hserve : C Unit (serve visit n) := hC.after_read (reads_node n) fun a =>
      hC.borrowing _ (hC.forM hv a.sinks.sinks)
    refine hC.bind hserve fun _ => hC.after_read (reads_node n) fun a => ?_
    cases a.useParentSinks with
    | true => exact ih
    | false => exact hC.pure _

/-- To register a hook is to note it in the namespace and to tell of it. -/
lemma addHook (hhooks : ∀ f : Namespace → Namespace, (∀ ns, (f ns).filters = ns.filters) →
      C Unit (modifyNamespace f))
    (haccepted : ∀ n, C Unit (Run.emit (.hookAccepted n))) (actions : List BoundAction) :
    C Unit (addHook actions) := by
  refine hC.after_read reads_get fun s => ?_
  cases s.scope? with
  | none => exact hC.stop _
  | some ns =>
    have hadd := hC.bind (hhooks (fun ns => { ns with
      hooks := ns.hooks ++ [⟨ns.nextHook, actions⟩], nextHook := ns.nextHook + 1 }) fun _ => rfl)
        fun _ => haccepted ns.nextHook
    show C Unit (if ns.closed then _ else _)
    split_ifs
    · exact hC.bind (hC.ofReads (reads_stop _)) fun _ => hadd
    · exact hadd

lemma offerHook (haddHook : ∀ actions, C Unit (Run.addHook actions))
    (hadded : ∀ f?, C Unit (Run.emit (.hookAdded f?))) (calls : Calls) (text : String) :
    C Unit (Action.perform calls (.addHook text)) := by
  refine hC.after_read reads_get fun s => ?_
  cases s.scope?.isSome with
  | false => exact hC.pure ()
  | true =>
    refine hC.after_read reads_get fun s => ?_
    cases s.scope?.any (·.closed) with
    | true => exact hadded _
    | false => exact hC.bind (haddHook _) fun _ => hadded _

variable (hcalls : CallsIn C calls)

include hcalls

lemma evaluate (f : NodeFilter) (r : Record) : C _ (f.evaluate calls.predicate r) :=
  Filter.evaluate_closed (C := C Filter.Outcome) hC.pure hC.bind hcalls.predicate f r

lemma ownFilter (n : NodeId) (r : Record) : C _ (ownFilter calls n r) := by
  refine hC.after_read (reads_node n) fun a => ?_
  cases a.filter? with
  | none => exact hC.pure _
  | some f => exact hC.borrowing _ (hC.evaluate hcalls f r)

lemma filterChain (path : List NodeId) (r : Record) : C _ (filterChain calls path r) := by
  induction path generalizing r with
  | nil => exact hC.pure _
  | cons n path ih =>
    refine hC.bind (hC.ownFilter hcalls n r) fun v => ?_
    rcases v with ⟨_ | _, r'⟩
    · exact hC.pure (false, r')
    · refine hC.after_read (reads_node n) fun a => ?_
      cases a.useParentFilters with
      | true => exact ih r'
      | false => exact hC.pure (true, r')

lemma isLoggable (n : NodeId) (r : Record) : C _ (isLoggable calls n r) := by
  refine hC.after_read (reads_node n) fun a => ?_
  cases a.useParentFilters with
  | true => exact hC.after_read reads_get fun _ => hC.filterChain hcalls _ r
  | false => exact hC.ownFilter hcalls n r

lemma deliver (r : Record) (k : SinkId) : C _ (deliver calls r k) := by
  refine hC.bind (hcalls.publish k r) fun f? => ?_
  cases f? with
  | none => exact hC.pure _
  | some f => exact hC.refused k _ _ _ f

lemma publish (n : NodeId) (r : Record) : C _ (publish calls n r) :=
  hC.after_read reads_get fun _ => hC.serveAlong (hC.deliver hcalls r) _

lemma flushSink (name : String) (k : SinkId) : C _ (flushSink calls name k) := by
  refine hC.bind (hcalls.flush k) fun f? => ?_
  cases f? with
  | none => exact hC.pure _
  | some f => exact hC.refused k _ _ _ f

lemma flush (n : NodeId) : C _ (flush calls n) :=
  hC.after_read (reads_node n) fun _ => hC.after_read reads_get fun _ =>
    hC.serveAlong (hC.flushSink hcalls _) _

/-- What becomes of a record is counted, and then it is told that the call came back. -/
lemma logRecord (hbump : ∀ c, C Unit (bump c)) (hreturned : C Unit (Run.emit .logReturned))
    (h : HandleId) (r : Record) : C Unit (logRecord calls h r) := by
  have hoffer : ∀ n, C Unit (offer calls n r) := by
    refine fun n => hC.after_read (reads_node n) fun a => ?_
    cases a.isEnabled r.level with
    | false => exact hbump _
    | true =>
      refine hC.bind (hC.isLoggable hcalls n _) fun v => ?_
      rcases v with ⟨_ | _, r'⟩
      · exact hbump _
      · exact hC.bind (hC.publish hcalls n r') fun _ => hbump _
  exact hC.after_read (reads_nodeOf h) fun n => hC.bind (hoffer n) fun _ => hreturned

lemma runHooks (hstarted : ∀ n, C Unit (Run.emit (.hookStarted n))) (hooks : List BoundHook) :
    C Unit (runHooks calls hooks) := by
  induction hooks with
  | nil => exact hC.pure _
  | cons h hooks ih =>
    have hrun : C Unit (do Run.emit (.hookStarted h.number); calls.hook h) :=
      hC.bind (hstarted h.number) fun _ => hcalls.hook h
    exact hC.borrowing _ (hC.bind (hC.borrowing _ hrun) fun _ => ih)

lemma close (hhooks : ∀ f : Namespace → Namespace, (∀ ns, (f ns).filters = ns.filters) →
      C Unit (modifyNamespace f))
    (hstarted : ∀ n, C Unit (Run.emit (.hookStarted n))) : C Unit (close calls) := by
  refine hC.after_read reads_get fun s => ?_
  cases s.scope? with
  | none => exact hC.stop _
  | some ns =>
    exact hC.bind (hhooks _ fun _ => rfl) fun _ =>
      hC.bind (hC.runHooks hcalls hstarted ns.hooks) fun _ =>
        hC.after_silent (silent_reset _) fun _ => hC.after_silent silent_reclaim fun _ => hC.pure _

end Composes

/-! ### Callbacks -/

/-- The property also holds of calls to log a record and of what is done with levels and with the
hooks of the namespace, given that it holds of callbacks. -/
structure Carries (C : ∀ α : Type, Run α → Prop) : Prop extends Composes C where
  logRecord {calls : Calls} : CallsIn C calls → ∀ h r, C Unit (logRecord calls h r)
  changeLevels (f : LevelRegistry → LevelRegistry) :
    C Unit (modifyNamespace fun ns => { ns with levels := f ns.levels })
  addHook (actions : List BoundAction) : C Unit (addHook actions)
  /-- A callback registers a hook, and tells what came of it. -/
  offerHook (calls : Calls) (text : String) : C Unit (Action.perform calls (.addHook text))
  close {calls : Calls} : CallsIn C calls → C Unit (close calls)

/-- The property also holds of what is done with named filters. -/
structure Lawful (C : ∀ α : Type, Run α → Prop) : Prop extends Carries C where
  changeFilters (f : Dict String NodeFilter → Dict String NodeFilter) :
    C Unit (modifyNamespace fun ns => { ns with filters := f ns.filters })

namespace Carries

variable {C : ∀ α : Type, Run α → Prop} (hC : Carries C)

include hC

lemma log (hcalls : CallsIn C calls) (h : HandleId) (l : Level) (message : String) :
    C Unit (log calls h l message) := by
  have heq : Run.log calls h l message = Run.logRecord calls h { level := l, message } :=
    ExceptT.ext (funext fun s => run_log calls h l message s)
  rw [heq]
  exact hC.logRecord hcalls h _

lemma logLazily (hcalls : CallsIn C calls) (h : HandleId) (l : Level) (message : Unit → String) :
    C Nat (logLazily calls h l message) := by
  refine hC.after_read (reads_nodeOf h) fun n => hC.after_read (reads_node n) fun a => ?_
  cases a.isEnabled l with
  | true => exact hC.bind (hC.log hcalls h l _) fun _ => hC.pure 1
  | false => exact hC.pure 0

lemma inNamespace {call : Run Unit} (h : C Unit call) :
    C Unit (Action.perform.inNamespace call) := by
  refine hC.after_read reads_get fun s => ?_
  cases s.scope?.isSome with
  | true => exact h
  | false => exact hC.pure ()

lemma perform (hcalls : CallsIn C calls) (a : BoundAction) : C Unit (Action.perform calls a) := by
  cases a with
  | note text => exact hC.emit trivial
  | log h l message => exact hC.log hcalls h l message
  | setLevel h l? => exact hC.after_read (reads_nodeOf h) fun n => hC.silent (silent_setLevel n l?)
  | addSink h k =>
    exact hC.after_read (reads_nodeOf h) fun n => hC.silent (silent_changeSinks n _)
  | removeSink h k =>
    exact hC.after_read (reads_nodeOf h) fun n =>
      hC.after_silent (silent_changeSinks n _) fun _ => hC.emit trivial
  | reset h => exact hC.after_read (reads_nodeOf h) fun n => hC.silent (silent_reset n)
  | touch name => exact hC.inNamespace (hC.logger name fun _ => hC.emit trivial)
  | reclaim => exact hC.inNamespace (hC.after_silent silent_reclaim fun _ => hC.emit trivial)
  | close => exact hC.inNamespace (hC.close hcalls)
  | addHook text => exact hC.offerHook calls text
  | abort => exact hC.stop _

lemma performAll (hcalls : CallsIn C calls) (actions : List BoundAction) :
    C Unit (Action.performAll calls actions) := hC.forM (hC.perform hcalls) actions

/-- Callbacks do nothing that a client may not do. -/
theorem callsIn_within (depth : Nat) : CallsIn C (Calls.within depth) := by
  induction depth with
  | zero =>
    exact ⟨fun _ _ => hC.stop _, fun _ _ => hC.stop _, fun _ => hC.stop _, fun _ => hC.stop _⟩
  | succ depth ih =>
    constructor
    case predicate => exact fun p r => hC.bind (hC.performAll ih p.actions) fun _ => hC.pure _
    case publish =>
      refine fun k r => hC.after_read reads_get fun s => ?_
      unfold Sink.publish
      cases (s.sink k).bare with
      | true => exact hC.pure _
      | false =>
        exact hC.bind (hC.emit (e := .published ..) trivial) fun _ =>
          hC.bind (hC.performAll ih _) fun _ => hC.pure _
    case flush =>
      refine fun k => hC.after_read reads_get fun s => ?_
      unfold Sink.flush
      cases (s.sink k).bare with
      | true => exact hC.pure _
      | false =>
        exact hC.bind (hC.emit (e := .flushed _) trivial) fun _ =>
          hC.bind (hC.performAll ih _) fun _ => hC.pure _
    case hook => exact fun h => hC.performAll ih h.actions

end Carries

end Run

/-! ### Steps -/

/-- The step is neither on a walk over the live names nor does it reset the metrics. -/
def Step.KeepsStanding : Step → Prop
  | startNames _ | nextName _ | dropNames _ | resetMetrics => False
  | _ => True

/-- The step neither registers a filter nor unregisters one. -/
def Step.SparesFilters : Step → Prop
  | registerFilter _ _ | unregisterFilter _ => False
  | _ => True

open Run

variable [Pattern.Engine]

/-- The property holds of all steps that are neither, but perhaps not of dropping the namespace,
which no callback does. -/
theorem Run.Carries.take {C : ∀ α : Type, Run α → Prop} (hC : Carries C) {calls : Calls}
    (hcalls : CallsIn C calls) {step : Step} (hstep : step.KeepsStanding)
    (hfilters : step.SparesFilters) (hdrop : step ≠ .dropNamespace) :
    C Answer (step.take calls) := by
  cases step with
  | startNames | nextName | dropNames | resetMetrics => exact hstep.elim
  | registerFilter | unregisterFilter => exact hfilters.elim
  | dropNamespace => exact absurd rfl hdrop
  | logger name as? =>
    exact hC.after_read reads_theNamespace fun _ =>
      hC.logger name fun h => hC.silent (silent_keepHandle as? h)
  | loggerIfExists name as? =>
    refine hC.after_read reads_theNamespace fun _ => hC.after_silent silent_reclaim fun _ => ?_
    refine hC.after_read (x := find? Tree.root name) (fun _ => rfl) fun n? => ?_
    cases n? with
    | none => exact hC.pure _
    | some n => exact hC.withHandle n fun h => hC.silent (silent_keepHandle as? h)
  | root as? =>
    exact hC.after_read reads_theNamespace fun _ =>
      hC.withHandle _ fun h => hC.silent (silent_keepHandle as? h)
  | parent h as? =>
    refine hC.after_read (reads_nodeAt h) fun n => hC.after_read (reads_node n) fun a => ?_
    cases a.parent? with
    | none => exact hC.pure _
    | some p => exact hC.withHandle p fun h => hC.silent (silent_keepHandle as? h)
  | clone h as? =>
    exact hC.after_read (reads_need _ h) fun _ => hC.silent (silent_keepHandle as? _)
  | dropHandle h | dropNode n | dropSink id =>
    exact hC.after_read reads_get fun _ =>
      hC.after_silent (silent_modifyClient fun _ => rfl) fun _ => hC.pure _
  | sameNode h other =>
    exact hC.after_read (reads_nodeAt h) fun _ => hC.after_read (reads_nodeAt other) fun _ =>
      hC.pure _
  | describeHandle h =>
    exact hC.after_read (reads_need _ h) fun _ => hC.after_read reads_get fun _ => hC.pure _
  | keepNode h as? =>
    exact hC.after_read (reads_nodeAt h) fun _ => hC.silent (silent_keepNode as? _)
  | createNode place name as? =>
    exact hC.after_read (reads_nodeIn place) fun _ =>
      hC.after_silent (silent_getOrCreate _ _) fun _ => hC.silent (silent_keepNode as? _)
  | findNode place name as? =>
    refine hC.after_read (reads_nodeIn place) fun n => ?_
    refine hC.after_read (x := find? n name) (fun _ => rfl) fun n? => ?_
    cases n? with
    | none => exact hC.pure _
    | some n => exact hC.silent (silent_keepNode as? n)
  | nodeInfo place | describeNode place =>
    exact hC.after_read (reads_nodeIn place) fun _ => hC.after_read reads_get fun _ => hC.pure _
  | setNodeLevel place l? =>
    exact hC.after_read (reads_nodeIn place) fun _ =>
      hC.after_silent (silent_setLevel _ _) fun _ => hC.pure _
  | resetNode place =>
    exact hC.after_read (reads_nodeIn place) fun _ =>
      hC.after_silent (silent_reset _) fun _ => hC.pure _
  | setLevel h l? =>
    exact hC.after_read (reads_nodeAt h) fun _ =>
      hC.after_silent (silent_setLevel _ _) fun _ => hC.pure _
  | reset h =>
    exact hC.after_read (reads_nodeAt h) fun _ =>
      hC.after_silent (silent_reset _) fun _ => hC.pure _
  | level h | effective h | isEnabled h | filter h =>
    exact hC.after_read (reads_nodeAt h) fun n => hC.after_read (reads_node n) fun _ => hC.pure _
  | setFilter h spec? =>
    refine hC.after_read (reads_nodeAt h) fun n => ?_
    cases spec? with
    | none => exact hC.after_silent (silent_setFilter n none) fun _ => hC.pure _
    | some spec =>
      exact hC.after_read (reads_buildFilter spec) fun f =>
        hC.after_silent (silent_setFilter n f) fun _ => hC.pure _
  | setUseParentFilters h value | setUseParentSinks h value =>
    exact hC.after_read (reads_nodeAt h) fun n => hC.after_silent (silent_modifyNode _ _) fun _ =>
      hC.after_read (reads_node n) fun _ => hC.pure _
  | newSink id sink =>
    refine hC.after_read reads_get fun s => hC.after_read (reads_ofBuild _) fun actions =>
      hC.after_read reads_get fun s => hC.after_read (reads_ofBuild _) fun flushActions =>
        hC.after_read reads_get fun s => ?_
    have hpush : ∀ k, Silent (modify fun s => { s with sinks := s.sinks.push k }) :=
      fun _ _ => ⟨rfl, rfl, rfl, rfl, rfl⟩
    exact hC.after_silent (hpush _) fun _ =>
      hC.after_silent (silent_modifyClient fun _ => rfl) fun _ => hC.pure _
  | addSink h k | removeSink h k =>
    exact hC.after_read (reads_nodeAt h) fun n => hC.after_read (reads_need _ k) fun k =>
      hC.after_silent (silent_changeSinks n _) fun _ => hC.after_read (reads_node n) fun _ =>
        hC.after_read (reads_sinkNames _) fun _ => hC.pure _
  | setSinks h ids save? =>
    exact hC.after_read (reads_nodeAt h) fun n =>
      hC.after_read (reads_mapM (reads_need _) ids) fun _ => hC.after_read (reads_node n) fun _ =>
        hC.after_silent (silent_saveArray save? _) fun _ => hC.silent (silent_changeSinks n _)
  | clearSinks h save? =>
    exact hC.after_read (reads_nodeAt h) fun n => hC.after_read (reads_node n) fun _ =>
      hC.after_silent (silent_saveArray save? _) fun _ => hC.silent (silent_changeSinks n _)
  | sinks h save? =>
    exact hC.after_read (reads_nodeAt h) fun n => hC.after_read (reads_node n) fun _ =>
      hC.silent (silent_saveArray save? _)
  | compareAndSetSinks h expected ids =>
    exact hC.after_read (reads_nodeAt h) fun n => hC.after_read (reads_need _ expected) fun _ =>
      hC.after_read (reads_mapM (reads_need _) ids) fun _ =>
        hC.after_silent (silent_changeSinks n _) fun _ => hC.after_read (reads_node n) fun _ =>
          hC.after_read (reads_sinkNames _) fun _ => hC.pure _
  | newKey id name => exact hC.after_silent (silent_modifyClient fun _ => rfl) fun _ => hC.pure _
  | describeKey id => exact hC.after_read (reads_need _ id) fun _ => hC.pure _
  | attach h key v | attachIfAbsent h key v | detach h key =>
    exact hC.after_read (reads_need _ key) fun key => hC.after_read (reads_nodeAt h) fun n =>
      hC.silent (silent_changeAttachments n _)
  | attachment h key =>
    exact hC.after_read (reads_need _ key) fun _ => hC.after_read (reads_nodeAt h) fun n =>
      hC.after_read (reads_node n) fun _ => hC.pure _
  | log h l message =>
    exact hC.after_read (reads_need _ h) fun h =>
      hC.bind (hC.log hcalls h l message) fun _ => hC.pure _
  | logLazily h l message =>
    exact hC.after_read (reads_need _ h) fun h =>
      hC.bind (hC.logLazily hcalls h l _) fun _ => hC.pure _
  | logRecord h r =>
    exact hC.after_read (reads_need _ h) fun h =>
      hC.bind (hC.logRecord hcalls h r) fun _ => hC.pure _
  | publish h r =>
    exact hC.after_read (reads_nodeAt h) fun n => hC.bind (hC.publish hcalls n r) fun _ => hC.pure _
  | isLoggable h r =>
    exact hC.after_read (reads_nodeAt h) fun n =>
      hC.bind (hC.isLoggable hcalls n r) fun _ => hC.pure _
  | flush h =>
    exact hC.after_read (reads_nodeAt h) fun n => hC.bind (hC.flush hcalls n) fun _ => hC.pure _
  | registerLevel l =>
    exact hC.after_read reads_get fun s =>
      hC.bind (hC.changeLevels fun ls => ls.register s.levelAlive l) fun _ =>
        hC.ofReads reads_levelNames
  | holdLevel id l =>
    exact hC.after_read reads_theNamespace fun _ => hC.after_read reads_get fun s =>
      hC.after_read reads_get fun s' =>
        hC.bind (hC.changeLevels fun ls => ls.registerWeak s.levelAlive s'.client.levels.next l)
          fun _ => hC.after_silent (silent_modifyClient fun _ => rfl) fun _ =>
            hC.ofReads reads_levelNames
  | releaseLevel id =>
    exact hC.after_silent (silent_modifyClient fun _ => rfl) fun _ => hC.ofReads reads_levelNames
  | unregisterLevel name =>
    exact hC.after_read reads_theNamespace fun ns =>
      hC.bind (hC.changeLevels fun _ => (ns.levels.unregister name).2) fun _ => hC.pure _
  | levelForName name =>
    exact hC.after_read reads_theNamespace fun _ => hC.after_read reads_get fun _ =>
      hC.after_read (reads_ofExcept _) fun _ => hC.pure _
  | levelNames => exact hC.ofReads reads_levelNames
  | namedFilter name | isClosed => exact hC.after_read reads_theNamespace fun _ => hC.pure _
  | keepFilter id spec =>
    exact hC.after_read (reads_buildFilter spec) fun f =>
      hC.after_silent (silent_modifyClient fun _ => rfl) fun _ => hC.pure _
  | evaluateFilter id r =>
    exact hC.after_read (reads_need _ id) fun f =>
      hC.bind (hC.evaluate hcalls f r) fun _ => hC.pure _
  | liveNames =>
    exact hC.after_read reads_theNamespace fun _ => hC.after_silent silent_reclaim fun _ =>
      hC.after_read reads_get fun _ => hC.pure _
  | reclaim =>
    exact hC.after_read reads_theNamespace fun _ =>
      hC.after_silent silent_reclaim fun _ => hC.pure _
  | metrics => exact hC.after_read reads_get fun _ => hC.pure _
  | addHook actions =>
    exact hC.after_read reads_get fun _ => hC.after_read (reads_ofBuild _) fun actions =>
      hC.bind (hC.addHook actions) fun _ => hC.pure _
  | close =>
    exact hC.bind (hC.close hcalls) fun _ => hC.after_read reads_get fun _ => hC.pure _
  | settings | describeNamespace =>
    exact hC.after_read reads_theNamespace fun _ => hC.after_read reads_get fun _ => hC.pure _

/-- The property holds of the steps on a walk and of the one that resets the metrics, if it holds of
any change to the client and of metrics that start anew. -/
lemma Run.Composes.take {C : ∀ α : Type, Run α → Prop} (hC : Composes C) (calls : Calls)
    (hclient : ∀ f : Client → Client, C Unit (modifyClient f))
    (hmetrics : C Unit (modify fun s => { s with metrics := {} })) {step : Step}
    (hstep : ¬ step.KeepsStanding) : C Answer (step.take calls) := by
  cases step with
  | startNames id =>
    exact hC.after_read reads_theNamespace fun _ => hC.after_silent silent_reclaim fun _ =>
      hC.bind (hclient _) fun _ => hC.pure _
  | nextName id =>
    exact hC.after_read (reads_need _ id) fun _ => hC.after_read reads_get fun _ =>
      hC.bind (hclient _) fun _ => hC.pure _
  | dropNames id =>
    exact hC.after_read reads_get fun _ => hC.bind (hclient _) fun _ => hC.pure _
  | resetMetrics => exact hC.bind hmetrics fun _ => hC.pure _
  | _ => exact absurd trivial hstep

/-- The same where the property also holds of changes to named filters. -/
theorem Run.Lawful.take {C : ∀ α : Type, Run α → Prop} (hC : Lawful C) {calls : Calls}
    (hcalls : CallsIn C calls) {step : Step} (hstep : step.KeepsStanding)
    (hdrop : step ≠ .dropNamespace) : C Answer (step.take calls) := by
  cases step with
  | registerFilter name spec =>
    exact hC.after_read (reads_buildFilter spec) fun f =>
      hC.bind (hC.changeFilters fun fs => fs.insert name f) fun _ =>
        hC.after_silent silent_settle fun _ => hC.pure _
  | unregisterFilter name =>
    exact hC.after_read reads_theNamespace fun _ =>
      hC.bind (hC.changeFilters fun fs => fs.erase name) fun _ =>
        hC.after_silent silent_settle fun _ => hC.pure _
  | _ => exact hC.toCarries.take hcalls hstep trivial hdrop

end Logging
