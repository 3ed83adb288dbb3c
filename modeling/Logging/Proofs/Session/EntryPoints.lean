import Logging.Pattern.Compiled
import Logging.Proofs.Session.Deliveries
import Logging.Session.Step

/-!
# Ways to log a message

To log a message is to log a record of it, and a message that is made only if its level passes is
logged like any other then. When and on which thread a record was made is nothing that filters or
callbacks look at, so these origins make no difference, and every sink gets the record with the
origin that it came with. Every operation on records commutes with a change of the origin
(`Filter.evaluate_stamped`, `Run.isLoggable_stamped`, `Fate.stamped`).

A message that is never made, because its level does not pass, leaves no trace in the metrics, while
a message that was there already is counted as being below the level.
-/

namespace Logging

variable {o : Origin}

/-- The record with another origin. -/
def Record.stamped (r : Record) (o : Origin) : Record := { r with origin := o }

namespace Filter

/-- The same verdict, on the record with another origin. -/
def Outcome.stamped (v : Outcome) (o : Origin) : Outcome := (v.1, v.2.stamped o)

/-! ### Filters do not look at the origin -/

variable {π : Type} {m : Type → Type} [Monad m] [LawfulMonad m] {call : π → Record → m Outcome}

mutual

lemma evaluate_stamped
    (hcall : ∀ p r, call p (r.stamped o) = (Outcome.stamped · o) <$> call p r) (f : Filter π)
    (r : Record) : f.evaluate call (r.stamped o) = (Outcome.stamped · o) <$> f.evaluate call r := by
  cases f with
  | not f =>
    rw [evaluate, evaluate, evaluate_stamped hcall f r]
    simp only [bind_map_left, map_bind, map_pure]
    rfl
  | all fs => exact evaluateAll_stamped hcall fs r
  | any fs => exact evaluateAny_stamped hcall fs r
  | named name p => exact hcall p r
  | reference name f => exact evaluate_stamped hcall f r
  | accept | deny | levels | levelRange | levelChange | «match» | substitute =>
    simp only [evaluate, map_pure]
    rfl

lemma evaluateAll_stamped
    (hcall : ∀ p r, call p (r.stamped o) = (Outcome.stamped · o) <$> call p r)
    (fs : List (Filter π)) (r : Record) :
    evaluateAll call fs (r.stamped o) = (Outcome.stamped · o) <$> evaluateAll call fs r := by
  cases fs with
  | nil =>
    simp only [evaluateAll, map_pure]
    rfl
  | cons f fs =>
    rw [evaluateAll, evaluateAll, evaluate_stamped hcall f r]
    simp only [bind_map_left, map_bind]
    refine bind_congr fun v => ?_
    rcases v with ⟨_ | _, r'⟩
    · exact (map_pure (Outcome.stamped · o) (false, r')).symm
    · exact evaluateAll_stamped hcall fs r'

lemma evaluateAny_stamped
    (hcall : ∀ p r, call p (r.stamped o) = (Outcome.stamped · o) <$> call p r)
    (fs : List (Filter π)) (r : Record) :
    evaluateAny call fs (r.stamped o) = (Outcome.stamped · o) <$> evaluateAny call fs r := by
  cases fs with
  | nil =>
    simp only [evaluateAny, map_pure]
    rfl
  | cons f fs =>
    rw [evaluateAny, evaluateAny, evaluate_stamped hcall f r]
    simp only [bind_map_left, map_bind]
    refine bind_congr fun v => ?_
    rcases v with ⟨_ | _, r'⟩
    · exact evaluateAny_stamped hcall fs r'
    · exact (map_pure (Outcome.stamped · o) (true, r')).symm

end

end Filter

/-! ### Callbacks do not look at the origin -/

/-- Predicates and sinks do the same with records that differ in their origin. -/
structure Calls.Blind (calls : Calls) : Prop where
  predicate : ∀ p r o, calls.predicate p (r.stamped o) =
    (Filter.Outcome.stamped · o) <$> calls.predicate p r
  publish : ∀ k r o, calls.publish k (r.stamped o) = calls.publish k r

lemma Calls.blind_within (depth : Nat) : (Calls.within depth).Blind := by
  cases depth with
  | zero => exact ⟨fun _ _ _ => rfl, fun _ _ _ => rfl⟩
  | succ depth =>
    constructor
    case publish => exact fun k r o => rfl
    case predicate =>
      intro p r o
      change p.run (within depth) (r.stamped o) = _ <$> p.run (within depth) r
      simp only [Predicate.run, map_bind, map_pure]
      rfl

open Session

namespace Run

variable {α β : Type} {calls : Calls}

lemma run_map (f : α → β) (x : Run α) (s : Session) :
    (f <$> x).run s =
      match x.run s with
      | (.ok a, s') => (.ok (f a), s')
      | (.error e, s') => (.error e, s') := by
  rw [← bind_pure_comp, run_bind]
  rcases x.run s with ⟨_ | _, _⟩ <;> rfl

lemma borrowing_map (refs : List Ref) (f : α → β) (x : Run α) :
    borrowing refs (f <$> x) = f <$> borrowing refs x := by
  refine ExceptT.ext (funext fun s => ?_)
  rw [run_map, run_borrowing, run_borrowing, run_map]
  rcases x.run (lend s refs) with ⟨_ | _, _⟩ <;> rfl

lemma ownFilter_stamped (hb : calls.Blind) (n : NodeId) (r : Record) :
    ownFilter calls n (r.stamped o) = (Filter.Outcome.stamped · o) <$> ownFilter calls n r := by
  rw [ownFilter, ownFilter, map_bind]
  refine bind_congr fun a => ?_
  cases a.filter? with
  | none => exact (map_pure _ _).symm
  | some f =>
    show borrowing _ _ = _ <$> borrowing _ _
    rw [← borrowing_map, Filter.evaluate_stamped fun p r => hb.predicate p r o]

lemma filterChain_stamped (hb : calls.Blind) (path : List NodeId) (r : Record) :
    filterChain calls path (r.stamped o) =
      (Filter.Outcome.stamped · o) <$> filterChain calls path r := by
  induction path generalizing r with
  | nil => exact (map_pure _ _).symm
  | cons n path ih =>
    rw [filterChain, filterChain, ownFilter_stamped hb, bind_map_left, map_bind]
    refine bind_congr fun v => ?_
    rcases v with ⟨_ | _, r'⟩
    · exact (map_pure _ _).symm
    · change (node n >>= _) = _ <$> (node n >>= _)
      rw [map_bind]
      refine bind_congr fun a => ?_
      cases a.useParentFilters with
      | false => exact (map_pure _ _).symm
      | true => exact ih r'

lemma isLoggable_stamped (hb : calls.Blind) (n : NodeId) (r : Record) :
    isLoggable calls n (r.stamped o) = (Filter.Outcome.stamped · o) <$> isLoggable calls n r := by
  rw [isLoggable, isLoggable, map_bind]
  refine bind_congr fun a => ?_
  cases a.useParentFilters with
  | false => exact ownFilter_stamped hb n r
  | true =>
    change (get >>= _) = _ <$> (get >>= _)
    rw [map_bind]
    exact bind_congr fun s => filterChain_stamped hb (s.tree.lineage n) r

end Run

/-! ### Deliveries with another origin -/

open Run

variable {calls : Calls} {r : Record} {n : NodeId} {ks : List SinkId} {path : List NodeId}
  {s : Session}

def Delivery.stamped (d : Delivery) (o : Origin) : Delivery :=
  { d with record := d.record.stamped o }

def Visit.stamped (v : Visit) (o : Origin) : Visit :=
  { v with deliveries := v.deliveries.map (·.stamped o) }

lemma Delivers.stamped {ds : List Delivery} {out : Except Stop Unit × Session}
    (h : Delivers calls r ks s ds out) (hb : calls.Blind) (o : Origin) :
    Delivers calls (r.stamped o) ks s (ds.map (·.stamped o)) out := by
  induction h with
  | done s => exact .done s
  | accepted hk _ ih => exact .accepted (hb.publish _ r o ▸ hk) ih
  | refused hk _ ih => exact .refused (hb.publish _ r o ▸ hk) ih
  | stopped hk => exact .stopped (hb.publish _ r o ▸ hk)

lemma Serves.stamped {ds : List Delivery} {out : Except Stop Unit × Session}
    (h : Serves calls r n s ds out) (hb : calls.Blind) (o : Origin) :
    Serves calls (r.stamped o) n s (ds.map (·.stamped o)) out :=
  h.imp fun _ h => ⟨h.1.stamped hb o, h.2⟩

lemma Walks.stamped {vs : List Visit} {out : Except Stop Unit × Session}
    (h : Walks calls r path s vs out) (hb : calls.Blind) (o : Origin) :
    Walks calls (r.stamped o) path s (vs.map (·.stamped o)) out := by
  induction h with
  | top s => exact .top s
  | last h hup => exact .last (h.stamped hb o) hup
  | up h hup _ ih => exact .up (h.stamped hb o) hup ih
  | stopped h => exact .stopped (h.stamped hb o)

lemma Record.addressed_stamped (r : Record) (o : Origin) (name : String) :
    (r.stamped o).addressed name = (r.addressed name).stamped o :=
  (apply_ite (Record.stamped · o) (r.loggerName = "") { r with loggerName := name } r).symm

/-- A record with another origin has the same fate, and each sink gets it with that origin. -/
lemma Fate.stamped {vs : List Visit} {fate : Except Stop Counter × Session}
    (h : Fate calls n r s vs fate) (hb : calls.Blind) (o : Origin) :
    Fate calls n (r.stamped o) s (vs.map (·.stamped o)) fate := by
  have hfilters : (isLoggable calls n ((r.stamped o).addressed (s.node n).fullName)).run s =
      match (isLoggable calls n (r.addressed (s.node n).fullName)).run s with
      | (.ok v, s') => (.ok (v.stamped o), s')
      | (.error e, s') => (.error e, s') := by
    rw [Record.addressed_stamped, isLoggable_stamped hb, run_map]
    rcases (isLoggable calls n (r.addressed (s.node n).fullName)).run s with ⟨_ | _, _⟩ <;> rfl
  cases h with
  | belowLevel h => exact .belowLevel h
  | filtered h hl => exact .filtered h (by rw [hfilters, hl]; rfl)
  | interrupted h hl => exact .interrupted h (by rw [hfilters, hl])
  | published h hl hw => exact .published h (by rw [hfilters, hl]; rfl) (hw.stamped hb o)
  | broken h hl hw => exact .broken h (by rw [hfilters, hl]; rfl) (hw.stamped hb o)

/-! ### The ways agree -/

/-- To log a message is to log a record of it. -/
lemma run_log (calls : Calls) (h : HandleId) (l : Level) (message : String) (s : Session) :
    (log calls h l message).run s = (logRecord calls h { level := l, message }).run s := by
  change (if (s.node (s.nodeOf h)).isEnabled l then
      offer calls (s.nodeOf h) { level := l, message } >>= fun _ => emit .logReturned
    else Run.bump .belowLevel >>= fun _ => emit .logReturned : Run Unit).run s = _
  cases he : (s.node (s.nodeOf h)).isEnabled l with
  | true => rfl
  | false =>
    rw [run_logRecord, run_offer, if_neg (ne_true_of_eq_false he)]
    rfl

lemma run_logLazily (calls : Calls) (h : HandleId) (l : Level) (message : Unit → String)
    (s : Session) :
    (logLazily calls h l message).run s =
      if (s.node (s.nodeOf h)).isEnabled l then
        match (log calls h l (message ())).run s with
        | (.ok _, s') => (.ok 1, s')
        | (.error e, s') => (.error e, s')
      else (.ok 0, s) := by
  change (if (s.node (s.nodeOf h)).isEnabled l then
    log calls h l (message ()) >>= fun _ => pure 1 else pure 0 : Run Nat).run s = _
  cases (s.node (s.nodeOf h)).isEnabled l with
  | false => rfl
  | true =>
    change (log calls h l (message ()) >>= fun _ => pure 1).run s = _
    rw [run_bind, if_pos rfl]
    rcases (log calls h l (message ())).run s with ⟨_ | _, _⟩ <;> rfl

/-- A message is logged in the same way as a record of it, whenever and wherever that was made: the
same sinks get the record, apart from its origin, and the session is left the same. It makes no
difference either whether the message was there before its level was found to pass. If the level
does not pass, though, only a message that was there is counted. -/
theorem logs_agree (depth : Nat) (h : HandleId) (l : Level) (message : Unit → String) (o : Origin)
    (s : Session) :
    let calls := Calls.within depth
    let r : Record := { level := l, message := message () }
    ((logRecord calls h (r.stamped o)).run s = (log calls h l (message ())).run s ∧
        ∀ visits fate, Fate calls (s.nodeOf h) r s visits fate →
          Fate calls (s.nodeOf h) (r.stamped o) s (visits.map (·.stamped o)) fate ∧
          (log calls h l (message ())).run s = concluded fate) ∧
      (¬ s.TurnsAway (s.nodeOf h) l → (logLazily calls h l message).run s =
        match (log calls h l (message ())).run s with
        | (.ok _, s') => (.ok 1, s')
        | (.error e, s') => (.error e, s')) ∧
      (s.TurnsAway (s.nodeOf h) l → (logLazily calls h l message).run s = (.ok 0, s) ∧
        (log calls h l (message ())).run s = (.ok (), (s.bump .belowLevel).told [.logReturned])) := by
  intro calls r
  have hb : calls.Blind := Calls.blind_within depth
  have hlog : ∀ {vs fate}, Fate calls (s.nodeOf h) r s vs fate →
      (log calls h l (message ())).run s = concluded fate := fun hf => by
    rw [run_log]
    exact hf.run_logRecord
  refine ⟨⟨?_, fun visits fate hf => ⟨hf.stamped hb o, hlog hf⟩⟩, fun hl => ?_, fun hl => ⟨?_, ?_⟩⟩
  · obtain ⟨vs, fate, hf⟩ := exists_fate calls (s.nodeOf h) r s
    rw [(hf.stamped hb o).run_logRecord, hlog hf]
  · rw [run_logLazily, if_pos (isEnabled_iff_not_turnsAway.2 hl)]
    rcases (log calls h l (message ())).run s with ⟨_ | _, _⟩ <;> rfl
  · rw [run_logLazily, if_neg fun he => isEnabled_iff_not_turnsAway.1 he hl]
  · exact hlog (.belowLevel hl)

open scoped Pattern.Searching in
/-- Below the level the ways differ in what they count. -/
theorem metrics_logLazily_ne_log :
    let s := ((new false .info [] []).steps (Calls.within 0) [.logger "a" (some "h")]).2
    (s.step (Calls.within 0) (.logLazily "h" .debug "x")).2.metrics ≠
      (s.step (Calls.within 0) (.log "h" .debug "x")).2.metrics := by
  decide +kernel

end Logging
