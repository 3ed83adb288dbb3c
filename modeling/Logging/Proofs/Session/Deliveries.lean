import Logging.Proofs.Session.Quiet

/-!
# Deliveries of a record

What a call to log a record does on its own account, whatever the predicates and sinks that it runs
do meanwhile. A record that a level or a filter turns away reaches no sink. Any other walks up from
its node (`Walks`): at each node it is given to the sinks that the node has when the walk gets
there, one after the other (`Delivers`), and the node that was just served says whether the walk
goes on. A fault that a sink gives back is reported and counted, and the walk goes on as if there
were none; only a sink that stops breaks it off.

The relations name every call of a sink with the session it is made in. They have exactly one
outcome, which is that of the call (`Fate.run_offer`), so there are no other calls of sinks. Which
sinks these are, on what nodes and in what order, is then read off the relations (`Fate.rounds`).
-/

namespace Logging

/-- The record as it is offered to a node: it keeps the logger that it names, if it names one. -/
def Record.addressed (r : Record) (fullName : String) : Record :=
  if r.loggerName = "" then { r with loggerName := fullName } else r

namespace Session

/-- The session after a sink gave back a fault. Its error channel is told, unless the sink tells
nothing, and the failure is counted. -/
def refused (s : Session) (k : SinkId) (operation : SinkOperation) (loggerName : String)
    (message? : Option String) (f : Fault) : Session :=
  let sink := s.sink k
  let failed := if sink.silent || sink.bare then []
    else [.failed { sink := sink.name, operation, loggerName, message?, fault := f }]
  (s.told (.sinkRefused :: failed)).bump .sinkFailures

/-- The level of a node lets no record of this level pass: the record is below it, or it turns
everything off. -/
def TurnsAway (s : Session) (n : NodeId) (l : Level) : Prop :=
  l.severity < (s.node n).effective ∨ (s.node n).effective = Level.off.severity

end Session

open Session Run

variable {calls calls' : Calls} {r : Record} {n : NodeId} {ks : List SinkId} {path : List NodeId}
  {s : Session}

/-! ### Outcomes of walks -/

/-- A record is given to a sink, in the session that the call finds. -/
structure Delivery where
  sink : SinkId
  record : Record
  before : Session

/-- A node is served: the sessions in which a walk gets there and leaves, and the deliveries
between. -/
structure Visit where
  node : NodeId
  arrival : Session
  deliveries : List Delivery
  departure : Session

/-- A record is given to sinks in turn, each in the session that the one before left. The last
index is how this ends and in which session. -/
inductive Delivers (calls : Calls) (r : Record) :
    List SinkId → Session → List Delivery → Except Stop Unit × Session → Prop
  | done (s : Session) : Delivers calls r [] s [] (.ok (), s)
  | accepted {k ks s s' ds out} : (calls.publish k r).run s = (.ok none, s') →
      Delivers calls r ks s' ds out → Delivers calls r (k :: ks) s (⟨k, r, s⟩ :: ds) out
  | refused {k ks s s' f ds out} : (calls.publish k r).run s = (.ok (some f), s') →
      Delivers calls r ks (s'.refused k .publish r.loggerName (some r.message) f) ds out →
      Delivers calls r (k :: ks) s (⟨k, r, s⟩ :: ds) out
  | stopped {k ks s s' e} : (calls.publish k r).run s = (.error e, s') →
      Delivers calls r (k :: ks) s [⟨k, r, s⟩] (.error e, s')

/-- A record is given to the sinks that a node has now. They stay until all were served, even if
they are taken off the node. -/
def Serves (calls : Calls) (r : Record) (n : NodeId) (s : Session) (ds : List Delivery)
    (out : Except Stop Unit × Session) : Prop :=
  ∃ s', Delivers calls r (s.node n).sinks.sinks (lend s (refsOfSinks (s.node n).sinks)) ds
      (out.1, s') ∧
    out.2 = (regain s' s.inUse).settle

/-- A record is carried along a path upwards, as far as each node that was just served says. -/
inductive Walks (calls : Calls) (r : Record) :
    List NodeId → Session → List Visit → Except Stop Unit × Session → Prop
  | top (s : Session) : Walks calls r [] s [] (.ok (), s)
  | last {n path s ds s'} : Serves calls r n s ds (.ok (), s') → ¬ (s'.node n).useParentSinks →
      Walks calls r (n :: path) s [⟨n, s, ds, s'⟩] (.ok (), s')
  | up {n path s ds s' vs out} : Serves calls r n s ds (.ok (), s') → (s'.node n).useParentSinks →
      Walks calls r path s' vs out → Walks calls r (n :: path) s (⟨n, s, ds, s'⟩ :: vs) out
  | stopped {n path s ds e s'} : Serves calls r n s ds (.error e, s') →
      Walks calls r (n :: path) s [⟨n, s, ds, s'⟩] (.error e, s')

/-- What becomes of a record that is offered to a node: the visits that it makes, and what it is
to be counted as if the call comes back. -/
inductive Fate (calls : Calls) (n : NodeId) (r : Record) (s : Session) :
    List Visit → Except Stop Counter × Session → Prop
  | belowLevel : s.TurnsAway n r.level → Fate calls n r s [] (.ok .belowLevel, s)
  | filtered {r' s'} : ¬ s.TurnsAway n r.level →
      (isLoggable calls n (r.addressed (s.node n).fullName)).run s = (.ok (false, r'), s') →
      Fate calls n r s [] (.ok .filtered, s')
  | interrupted {e s'} : ¬ s.TurnsAway n r.level →
      (isLoggable calls n (r.addressed (s.node n).fullName)).run s = (.error e, s') →
      Fate calls n r s [] (.error e, s')
  | published {r' s' vs s''} : ¬ s.TurnsAway n r.level →
      (isLoggable calls n (r.addressed (s.node n).fullName)).run s = (.ok (true, r'), s') →
      Walks calls r' (s'.tree.lineage n) s' vs (.ok (), s'') →
      Fate calls n r s vs (.ok .published, s'')
  | broken {r' s' vs e s''} : ¬ s.TurnsAway n r.level →
      (isLoggable calls n (r.addressed (s.node n).fullName)).run s = (.ok (true, r'), s') →
      Walks calls r' (s'.tree.lineage n) s' vs (.error e, s'') →
      Fate calls n r s vs (.error e, s'')

/-- How a call to log a record ends: if it comes back it counts what became of the record, and
otherwise it counts nothing. -/
def concluded : Except Stop Counter × Session → Except Stop Unit × Session
  | (.ok c, s) => (.ok (), (s.bump c).told [.logReturned])
  | (.error e, s) => (.error e, s)

/-! ### The calls have these outcomes -/

lemma isEnabled_iff_not_turnsAway {l : Level} :
    (s.node n).isEnabled l ↔ ¬ s.TurnsAway n l := by
  simp only [Node.isEnabled, TurnsAway, Level.off, Bool.and_eq_true, bne_iff_ne, decide_eq_true_eq]
  omega

lemma addressed_eq (r : Record) (name : String) :
    r.addressed name = if r.loggerName.isEmpty then { r with loggerName := name } else r := by
  simp only [Record.addressed, String.isEmpty_iff]

lemma run_refused (k : SinkId) (o : SinkOperation) (name : String) (message? : Option String)
    (f : Fault) (s : Session) :
    (emit .sinkRefused >>= fun _ => report k o name message? f).run s =
      (.ok (), s.refused k o name message? f) := by
  let failed : Event :=
    .failed { sink := (s.sink k).name, operation := o, loggerName := name, message?, fault := f }
  change (if !((s.sink k).silent || (s.sink k).bare) then
      emit failed >>= fun _ => Run.bump .sinkFailures
    else Run.bump .sinkFailures : Run Unit).run (s.told [.sinkRefused]) = _
  cases h : (s.sink k).silent || (s.sink k).bare with
  | true =>
    rw [refused, if_pos h]
    rfl
  | false =>
    rw [refused, if_neg (ne_true_of_eq_false h)]
    change (Except.ok (), ((s.told [.sinkRefused]).told [failed]).bump .sinkFailures) = _
    rw [← told_append]
    rfl

lemma run_deliver (k : SinkId) (s : Session) :
    (deliver calls r k).run s =
      match (calls.publish k r).run s with
      | (.ok none, s') => (.ok (), s')
      | (.ok (some f), s') => (.ok (), s'.refused k .publish r.loggerName (some r.message) f)
      | (.error e, s') => (.error e, s') := by
  rw [deliver, run_bind]
  rcases (calls.publish k r).run s with ⟨_ | _ | f, s'⟩
  · rfl
  · rfl
  · exact run_refused k .publish r.loggerName (some r.message) f s'

lemma run_forM_cons (visit : SinkId → Run Unit) (k : SinkId) (ks : List SinkId) (s : Session) :
    ((k :: ks).forM visit).run s =
      match (visit k).run s with
      | (.ok _, s') => (ks.forM visit).run s'
      | (.error e, s') => (.error e, s') := by
  change (visit k >>= fun _ => ks.forM visit).run s = _
  rw [run_bind]
  rcases (visit k).run s with ⟨_ | _, _⟩ <;> rfl

lemma Delivers.run_eq {ds : List Delivery} {out : Except Stop Unit × Session}
    (h : Delivers calls r ks s ds out) : (ks.forM (deliver calls r)).run s = out := by
  induction h with
  | done s => rfl
  | @accepted k ks s s' ds out hk _ ih =>
    rw [run_forM_cons, run_deliver, hk]
    exact ih
  | @refused k ks s s' f ds out hk _ ih =>
    rw [run_forM_cons, run_deliver, hk]
    exact ih
  | @stopped k ks s s' e hk => rw [run_forM_cons, run_deliver, hk]

lemma exists_delivers (calls : Calls) (r : Record) (ks : List SinkId) (s : Session) :
    ∃ ds out, Delivers calls r ks s ds out := by
  induction ks generalizing s with
  | nil => exact ⟨_, _, .done s⟩
  | cons k ks ih =>
    rcases hk : (calls.publish k r).run s with ⟨e | _ | f, s'⟩
    · exact ⟨_, _, .stopped hk⟩
    · obtain ⟨ds, out, h⟩ := ih s'
      exact ⟨_, _, .accepted hk h⟩
    · obtain ⟨ds, out, h⟩ := ih (s'.refused k .publish r.loggerName (some r.message) f)
      exact ⟨_, _, .refused hk h⟩

lemma Serves.run_eq {ds : List Delivery} {out : Except Stop Unit × Session}
    (h : Serves calls r n s ds out) : (serve (deliver calls r) n).run s = out := by
  obtain ⟨s', hd, hout⟩ := h
  change (borrowing _ _).run s = out
  rw [run_borrowing, hd.run_eq, ← hout]

lemma exists_serves (calls : Calls) (r : Record) (n : NodeId) (s : Session) :
    ∃ ds out, Serves calls r n s ds out := by
  obtain ⟨ds, out, h⟩ := exists_delivers calls r (s.node n).sinks.sinks
    (lend s (refsOfSinks (s.node n).sinks))
  exact ⟨ds, (out.1, (regain out.2 s.inUse).settle), out.2, h, rfl⟩

lemma Walks.run_eq {vs : List Visit} {out : Except Stop Unit × Session}
    (h : Walks calls r path s vs out) : (serveAlong (deliver calls r) path).run s = out := by
  have hstep : ∀ {n path s ds s'}, Serves calls r n s ds (.ok (), s') →
      (serveAlong (deliver calls r) (n :: path)).run s =
        (if (s'.node n).useParentSinks then serveAlong (deliver calls r) path else pure ()).run s' := by
    intro n path s ds s' h
    rw [serveAlong, run_bind, h.run_eq]
    rfl
  induction h with
  | top s => rfl
  | last h hup => rw [hstep h, if_neg hup]; rfl
  | up h hup _ ih => rw [hstep h, if_pos hup, ih]
  | stopped h => rw [serveAlong, run_bind, h.run_eq]

lemma exists_walks (calls : Calls) (r : Record) (path : List NodeId) (s : Session) :
    ∃ vs out, Walks calls r path s vs out := by
  induction path generalizing s with
  | nil => exact ⟨_, _, .top s⟩
  | cons n path ih =>
    obtain ⟨ds, ⟨_ | _, s'⟩, h⟩ := exists_serves calls r n s
    · exact ⟨_, _, .stopped h⟩
    · by_cases hup : (s'.node n).useParentSinks
      · obtain ⟨vs, out, hw⟩ := ih s'
        exact ⟨_, _, .up h hup hw⟩
      · exact ⟨_, _, .last h hup⟩

/-- How an offer ends. -/
def counted : Except Stop Counter × Session → Except Stop Unit × Session
  | (.ok c, s) => (.ok (), s.bump c)
  | (.error e, s) => (.error e, s)

lemma run_offer (calls : Calls) (n : NodeId) (r : Record) (s : Session) :
    (offer calls n r).run s =
      if (s.node n).isEnabled r.level then
        match (isLoggable calls n (r.addressed (s.node n).fullName)).run s with
        | (.ok (true, r'), s') => (publish calls n r' >>= fun _ => Run.bump .published).run s'
        | (.ok (false, _), s') => (.ok (), s'.bump .filtered)
        | (.error e, s') => (.error e, s')
      else (.ok (), s.bump .belowLevel) := by
  rw [addressed_eq]
  change (if !(s.node n).isEnabled r.level then Run.bump .belowLevel
    else isLoggable calls n _ >>= fun o => if o.1 then publish calls n o.2 >>= fun _ =>
      Run.bump .published else Run.bump .filtered : Run Unit).run s = _
  cases (s.node n).isEnabled r.level with
  | false => rfl
  | true =>
    change (isLoggable calls n _ >>= _).run s = _
    rw [run_bind, if_pos rfl]
    rcases (isLoggable calls n _).run s with ⟨_ | ⟨_ | _, r'⟩, s'⟩ <;> rfl

lemma Fate.run_offer {vs : List Visit} {fate : Except Stop Counter × Session}
    (h : Fate calls n r s vs fate) : (offer calls n r).run s = counted fate := by
  have hpass : ∀ {l}, ¬ s.TurnsAway n l → (s.node n).isEnabled l := isEnabled_iff_not_turnsAway.2
  rw [Logging.run_offer]
  cases h with
  | belowLevel h => rw [if_neg fun h' => isEnabled_iff_not_turnsAway.1 h' h]; rfl
  | filtered h hf => rw [if_pos (hpass h), hf]; rfl
  | interrupted h hf => rw [if_pos (hpass h), hf]; rfl
  | published h hf hw =>
    rw [if_pos (hpass h), hf]
    change ((serveAlong _ _) >>= _).run _ = _
    rw [run_bind, hw.run_eq]
    rfl
  | broken h hf hw =>
    rw [if_pos (hpass h), hf]
    change ((serveAlong _ _) >>= _).run _ = _
    rw [run_bind, hw.run_eq]
    rfl

lemma exists_fate (calls : Calls) (n : NodeId) (r : Record) (s : Session) :
    ∃ vs fate, Fate calls n r s vs fate := by
  by_cases h : s.TurnsAway n r.level
  · exact ⟨_, _, .belowLevel h⟩
  · rcases hf : (isLoggable calls n (r.addressed (s.node n).fullName)).run s
      with ⟨e | ⟨_ | _, r'⟩, s'⟩
    · exact ⟨_, _, .interrupted h hf⟩
    · exact ⟨_, _, .filtered h hf⟩
    · obtain ⟨vs, ⟨_ | _, s''⟩, hw⟩ := exists_walks calls r' (s'.tree.lineage n) s'
      · exact ⟨_, _, .broken h hf hw⟩
      · exact ⟨_, _, .published h hf hw⟩

lemma run_logRecord (calls : Calls) (h : HandleId) (r : Record) (s : Session) :
    (logRecord calls h r).run s =
      match (offer calls (s.nodeOf h) r).run s with
      | (.ok _, s') => (.ok (), s'.told [.logReturned])
      | (.error e, s') => (.error e, s') := by
  change (offer calls (s.nodeOf h) r >>= fun _ => emit .logReturned).run s = _
  rw [run_bind]
  rcases (offer calls (s.nodeOf h) r).run s with ⟨_ | _, _⟩ <;> rfl

lemma Fate.run_logRecord {h : HandleId} {vs : List Visit} {fate : Except Stop Counter × Session}
    (hf : Fate calls (s.nodeOf h) r s vs fate) :
    (logRecord calls h r).run s = concluded fate := by
  rw [Logging.run_logRecord, hf.run_offer]
  rcases fate with ⟨_ | _, _⟩ <;> rfl

/-! ### What the deliveries are -/

/-- Other calls do the same at this delivery. -/
def Delivery.Agrees (calls calls' : Calls) (d : Delivery) : Prop :=
  (calls'.publish d.sink d.record).run d.before = (calls.publish d.sink d.record).run d.before

lemma Delivers.congr {ds : List Delivery} {out : Except Stop Unit × Session}
    (h : Delivers calls r ks s ds out) (hc : ∀ d ∈ ds, d.Agrees calls calls') :
    Delivers calls' r ks s ds out := by
  induction h with
  | done s => exact .done s
  | accepted hk _ ih =>
    obtain ⟨hd, hc⟩ := List.forall_mem_cons.1 hc
    exact .accepted (hd.trans hk) (ih hc)
  | refused hk _ ih =>
    obtain ⟨hd, hc⟩ := List.forall_mem_cons.1 hc
    exact .refused (hd.trans hk) (ih hc)
  | stopped hk => exact .stopped ((hc _ List.mem_cons_self).trans hk)

lemma Serves.congr {ds : List Delivery} {out : Except Stop Unit × Session}
    (h : Serves calls r n s ds out) (hc : ∀ d ∈ ds, d.Agrees calls calls') :
    Serves calls' r n s ds out :=
  h.imp fun _ h => ⟨h.1.congr hc, h.2⟩

lemma Walks.congr {vs : List Visit} {out : Except Stop Unit × Session}
    (h : Walks calls r path s vs out) (hc : ∀ v ∈ vs, ∀ d ∈ v.deliveries, d.Agrees calls calls') :
    Walks calls' r path s vs out := by
  induction h with
  | top s => exact .top s
  | last h hup => exact .last (h.congr (hc _ List.mem_cons_self)) hup
  | up h hup _ ih =>
    obtain ⟨hv, hc⟩ := List.forall_mem_cons.1 hc
    exact .up (h.congr hv) hup (ih hc)
  | stopped h => exact .stopped (h.congr (hc _ List.mem_cons_self))

lemma ownFilter_congr (hp : calls'.predicate = calls.predicate) (n : NodeId) (r : Record) :
    ownFilter calls' n r = ownFilter calls n r := by
  rw [ownFilter, ownFilter, hp]

lemma filterChain_congr (hp : calls'.predicate = calls.predicate) (path : List NodeId)
    (r : Record) : filterChain calls' path r = filterChain calls path r := by
  induction path generalizing r with
  | nil => rfl
  | cons n path ih => simp only [filterChain, ownFilter_congr hp, ih]

lemma isLoggable_congr (hp : calls'.predicate = calls.predicate) (n : NodeId) (r : Record) :
    isLoggable calls' n r = isLoggable calls n r := by
  simp only [isLoggable, ownFilter_congr hp, filterChain_congr hp]

lemma Fate.congr {vs : List Visit} {fate : Except Stop Counter × Session}
    (h : Fate calls n r s vs fate) (hp : calls'.predicate = calls.predicate)
    (hc : ∀ v ∈ vs, ∀ d ∈ v.deliveries, d.Agrees calls calls') : Fate calls' n r s vs fate := by
  have hf := isLoggable_congr hp n (r.addressed (s.node n).fullName)
  cases h with
  | belowLevel h => exact .belowLevel h
  | filtered h hl => exact .filtered h (hf ▸ hl)
  | interrupted h hl => exact .interrupted h (hf ▸ hl)
  | published h hl hw => exact .published h (hf ▸ hl) (hw.congr hc)
  | broken h hl hw => exact .broken h (hf ▸ hl) (hw.congr hc)

/-! ### The way of a record -/

/-- A record is taken up a path: to its first nodes, from each to the next because the node that was
just served says so, and the same record to all sinks. -/
structure Climbs (r : Record) (path : List NodeId) (vs : List Visit) : Prop where
  nodes : vs.map Visit.node <+: path
  record : ∀ v ∈ vs, ∀ d ∈ v.deliveries, d.record = r
  goesOn : ∀ v ∈ vs.dropLast, (v.departure.node v.node).useParentSinks

/-- It is taken up to the end: to all sinks that the nodes had when it got there, in order, and as
far as the path goes unless the last node says that it goes no further. -/
structure ClimbsOut (path : List NodeId) (vs : List Visit) : Prop where
  sinks : ∀ v ∈ vs, v.deliveries.map Delivery.sink = (v.arrival.node v.node).sinks.sinks
  ends : vs.map Visit.node = path ∨
    ∃ v, vs.getLast? = some v ∧ ¬ (v.departure.node v.node).useParentSinks

/-- A sink stopped the call, and it was the last one to be called. -/
structure BrokenOff (calls : Calls) (vs : List Visit) (e : Stop) (v : Visit) (d : Delivery) :
    Prop where
  visit : vs.getLast? = some v
  delivery : v.deliveries.getLast? = some d
  stop : ((calls.publish d.sink d.record).run d.before).1 = .error e

lemma Delivers.record_eq {ds : List Delivery} {out : Except Stop Unit × Session}
    (h : Delivers calls r ks s ds out) : ∀ d ∈ ds, d.record = r := by
  induction h with
  | done s => exact List.forall_mem_nil _
  | accepted _ _ ih => exact List.forall_mem_cons.2 ⟨rfl, ih⟩
  | refused _ _ ih => exact List.forall_mem_cons.2 ⟨rfl, ih⟩
  | stopped _ => exact List.forall_mem_singleton.2 rfl

lemma Delivers.sinks_eq {ds : List Delivery} {out : Except Stop Unit × Session}
    (h : Delivers calls r ks s ds out) (hout : out.1 = .ok ()) : ds.map Delivery.sink = ks := by
  induction h with
  | done s => rfl
  | accepted _ _ ih => rw [List.map_cons, ih hout]
  | refused _ _ ih => rw [List.map_cons, ih hout]
  | stopped _ => cases hout

lemma Delivers.last_stopped {ds : List Delivery} {e : Stop} {s' : Session}
    (h : Delivers calls r ks s ds (.error e, s')) :
    ∃ d, ds.getLast? = some d ∧ ((calls.publish d.sink d.record).run d.before).1 = .error e := by
  generalize hout : (Except.error e, s') = out at h
  induction h with
  | done s => cases hout
  | accepted _ _ ih =>
    obtain ⟨d, hd, he⟩ := ih hout
    exact ⟨d, by rw [List.getLast?_cons, hd]; rfl, he⟩
  | refused _ _ ih =>
    obtain ⟨d, hd, he⟩ := ih hout
    exact ⟨d, by rw [List.getLast?_cons, hd]; rfl, he⟩
  | stopped hk =>
    cases hout
    exact ⟨_, rfl, congrArg Prod.fst hk⟩

lemma Serves.record_eq {ds : List Delivery} {out : Except Stop Unit × Session}
    (h : Serves calls r n s ds out) : ∀ d ∈ ds, d.record = r := by
  obtain ⟨_, hd, -⟩ := h
  exact hd.record_eq

/-- A visit that is not the last one is followed by the visits further up. -/
lemma Climbs.cons {ds : List Delivery} {s' : Session} {vs : List Visit} (h : Climbs r path vs)
    (hr : ∀ d ∈ ds, d.record = r) (hp : (s'.node n).useParentSinks) :
    Climbs r (n :: path) (⟨n, s, ds, s'⟩ :: vs) where
  nodes := List.cons_prefix_cons.2 ⟨rfl, h.nodes⟩
  record := List.forall_mem_cons.2 ⟨hr, h.record⟩
  goesOn := by
    cases vs with
    | nil => exact List.forall_mem_nil _
    | cons v' vs => exact List.forall_mem_cons.2 ⟨hp, h.goesOn⟩

lemma climbs_singleton {ds : List Delivery} {s' : Session} (hr : ∀ d ∈ ds, d.record = r) :
    Climbs r (n :: path) [⟨n, s, ds, s'⟩] where
  nodes := List.cons_prefix_cons.2 ⟨rfl, List.nil_prefix⟩
  record := List.forall_mem_singleton.2 hr
  goesOn := List.forall_mem_nil _

lemma Walks.climbs {vs : List Visit} {out : Except Stop Unit × Session}
    (h : Walks calls r path s vs out) : Climbs r path vs := by
  induction h with
  | top s => exact ⟨List.nil_prefix, List.forall_mem_nil _, List.forall_mem_nil _⟩
  | last h _ => exact climbs_singleton h.record_eq
  | up h hp _ ih => exact ih.cons h.record_eq hp
  | stopped h => exact climbs_singleton h.record_eq

/-- A walk that comes to its end has served all sinks of its nodes. -/
lemma Walks.climbsOut {vs : List Visit} {out : Except Stop Unit × Session}
    (h : Walks calls r path s vs out) (hout : out.1 = .ok ()) : ClimbsOut path vs := by
  induction h with
  | top s => exact ⟨List.forall_mem_nil _, Or.inl rfl⟩
  | last h hp =>
    obtain ⟨s', hd, -⟩ := h
    exact ⟨List.forall_mem_singleton.2 (hd.sinks_eq rfl), Or.inr ⟨_, rfl, hp⟩⟩
  | up h _ _ ih =>
    obtain ⟨s', hd, -⟩ := h
    obtain ⟨hsinks, hends⟩ := ih hout
    refine ⟨List.forall_mem_cons.2 ⟨hd.sinks_eq rfl, hsinks⟩, ?_⟩
    rcases hends with hnodes | ⟨v, hv, hp⟩
    · exact Or.inl (congrArg (List.cons _) hnodes)
    · exact Or.inr ⟨v, by rw [List.getLast?_cons, hv]; rfl, hp⟩
  | stopped _ => cases hout

/-- Only a sink that stops breaks a walk off. -/
lemma Walks.brokenOff {vs : List Visit} {e : Stop} {s' : Session}
    (h : Walks calls r path s vs (.error e, s')) : ∃ v d, BrokenOff calls vs e v d := by
  generalize hout : (Except.error e, s') = out at h
  induction h with
  | top s => cases hout
  | last => cases hout
  | up _ _ _ ih =>
    obtain ⟨v, d, h⟩ := ih hout
    exact ⟨v, d, by rw [List.getLast?_cons, h.visit]; rfl, h.delivery, h.stop⟩
  | stopped h =>
    cases hout
    obtain ⟨_, hs, -⟩ := h
    obtain ⟨d, hd, he⟩ := hs.last_stopped
    exact ⟨_, d, rfl, hd, he⟩

/-- The visits that a record makes: none if a level or a filter turns it away, and otherwise the way
up from its node, to the end unless a sink stops the call. -/
structure Rounds (calls : Calls) (n : NodeId) (r : Record) (s : Session) (visits : List Visit)
    (outcome : Except Stop Counter) : Prop where
  turnedAway : s.TurnsAway n r.level → visits = [] ∧ outcome = .ok .belowLevel
  rejected : ∀ {r' s'}, ¬ s.TurnsAway n r.level →
    (isLoggable calls n (r.addressed (s.node n).fullName)).run s = (.ok (false, r'), s') →
      visits = [] ∧ outcome = .ok .filtered
  passed : ∀ {r' s'}, ¬ s.TurnsAway n r.level →
    (isLoggable calls n (r.addressed (s.node n).fullName)).run s = (.ok (true, r'), s') →
      Climbs r' (s'.tree.lineage n) visits ∧
        (outcome = .ok .published ∧ ClimbsOut (s'.tree.lineage n) visits ∨
          ∃ e v d, outcome = .error e ∧ BrokenOff calls visits e v d)

theorem Fate.rounds {vs : List Visit} {fate : Except Stop Counter × Session}
    (h : Fate calls n r s vs fate) : Rounds calls n r s vs fate.1 := by
  cases h with
  | belowLevel hl =>
    exact ⟨fun _ => ⟨rfl, rfl⟩, fun hl' => absurd hl hl', fun hl' => absurd hl hl'⟩
  | filtered hl hj =>
    refine ⟨fun hl' => absurd hl' hl, fun _ _ => ⟨rfl, rfl⟩, fun _ hj' => ?_⟩
    cases hj.symm.trans hj'
  | interrupted hl hj =>
    refine ⟨fun hl' => absurd hl' hl, fun _ hj' => ?_, fun _ hj' => ?_⟩
    · cases hj.symm.trans hj'
    · cases hj.symm.trans hj'
  | published hl hj hw =>
    refine ⟨fun hl' => absurd hl' hl, fun _ hj' => ?_, fun _ hj' => ?_⟩
    · cases hj.symm.trans hj'
    · cases hj.symm.trans hj'
      exact ⟨hw.climbs, Or.inl ⟨rfl, hw.climbsOut rfl⟩⟩
  | broken hl hj hw =>
    refine ⟨fun hl' => absurd hl' hl, fun _ hj' => ?_, fun _ hj' => ?_⟩
    · cases hj.symm.trans hj'
    · cases hj.symm.trans hj'
      obtain ⟨v, d, hb⟩ := hw.brokenOff
      exact ⟨hw.climbs, Or.inr ⟨_, v, d, rfl, hb⟩⟩

/-- A call to log a record has a fate, and it is what the call does. The record makes its rounds, up
from its node, and it calls no sink but at the deliveries of its fate: sinks that behave the same
there, however else they behave, make no difference. -/
theorem logRecord_deliveries (calls : Calls) (h : HandleId) (r : Record) (s : Session) :
    ∃ visits fate, Fate calls (s.nodeOf h) r s visits fate ∧
      (logRecord calls h r).run s = concluded fate ∧
      Rounds calls (s.nodeOf h) r s visits fate.1 ∧
      ∀ calls' : Calls, calls'.predicate = calls.predicate →
        (∀ v ∈ visits, ∀ d ∈ v.deliveries, d.Agrees calls calls') →
        (logRecord calls' h r).run s = concluded fate := by
  obtain ⟨visits, fate, hf⟩ := exists_fate calls (s.nodeOf h) r s
  refine ⟨visits, fate, hf, hf.run_logRecord, hf.rounds, ?_⟩
  intro calls' hp hc
  exact (hf.congr hp hc).run_logRecord

end Logging
