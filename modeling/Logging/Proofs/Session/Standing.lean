import Logging.Proofs.Session.Closure

/-!
# What calls leave as it stands

The counters of a namespace run in step with what is told: a call to log a record that comes back
counts the record once, under one of three heads, and so does the failure of a sink. The difference
between the two is the same after any call, at whatever point it stopped (`Run.Steady`), and only
when the metrics are reset it is another. In the same way only the steps on walks over the live
names change how far these are.
-/

namespace Logging

/-- The counters of what becomes of records. -/
def Counter.OfRecords (c : Counter) : Prop := c = .published ∨ c = .belowLevel ∨ c = .filtered

namespace Session

/-- What no call changes: the walks of the client, and by how much the counters are ahead of what
was told of records and of failures. -/
structure Standing where
  walks : Dict String LiveNames
  records : Int
  failures : Int

def standing (s : Session) : Standing where
  walks := s.client.walks
  records := s.metrics.offered - s.journal.count .logReturned
  failures := s.metrics.sinkFailures - s.journal.count .sinkRefused

variable {s s' : Session}

lemma Silent.standing (h : s.Silent s') : s'.standing = s.standing := by
  simp only [Session.standing, h.walks, h.offered, h.sinkFailures, h.journal]

/-- What is told of neither records nor failures leaves things as they stand. -/
lemma standing_told (s : Session) {events : List Event} (hr : .logReturned ∉ events)
    (hf : .sinkRefused ∉ events) : (s.told events).standing = s.standing := by
  simp [standing, told, List.count_append, List.count_eq_zero.2 hr, List.count_eq_zero.2 hf]

/-- A record that was counted goes with a call that came back. -/
lemma standing_counted (s : Session) {c : Counter} (hc : c.OfRecords) :
    ((s.bump c).told [.logReturned]).standing = s.standing := by
  have hoffered : (s.metrics.bump c).offered = s.metrics.offered + 1 := by
    rcases hc with rfl | rfl | rfl <;>
      simp only [Metrics.bump, Metrics.offered, Metrics.rejected] <;> omega
  have hfailures : (s.metrics.bump c).sinkFailures = s.metrics.sinkFailures := by
    rcases hc with rfl | rfl | rfl <;> rfl
  have hreturned : (s.journal ++ [Event.logReturned]).count .logReturned =
      s.journal.count .logReturned + 1 := by simp
  have hrefused : (s.journal ++ [Event.logReturned]).count .sinkRefused =
      s.journal.count .sinkRefused := by simp
  have hahead : ((s.metrics.offered + 1 : Nat) : Int) -
      ((s.journal.count .logReturned + 1 : Nat) : Int) =
        s.metrics.offered - s.journal.count .logReturned := by omega
  simp only [standing, told, Session.bump, hoffered, hfailures, hreturned, hrefused, hahead]

/-- A failure that was counted goes with a fault that a sink gave back. -/
lemma standing_refused (s : Session) (k : SinkId) (o : SinkOperation) (name : String)
    (message? : Option String) (f : Fault) :
    (s.refused k o name message? f).standing = s.standing := by
  have hfailed : ∀ failure, ((s.told [.sinkRefused]).told [.failed failure]).standing =
      (s.told [.sinkRefused]).standing := fun _ => standing_told _ (by simp) (by simp)
  have htold : (s.told [.sinkRefused]).standing =
      { s.standing with failures := s.standing.failures - 1 } := by
    simp [standing, told, Int.sub_sub]
  have hcounted : ∀ s' : Session, s'.standing = (s.told [.sinkRefused]).standing →
      (s'.bump .sinkFailures).standing = s.standing := by
    intro s' h
    have hbump : (s'.bump .sinkFailures).standing =
        { s'.standing with failures := s'.standing.failures + 1 } := by
      simp [standing, Session.bump, Metrics.bump, Metrics.offered, Metrics.rejected,
        Int.sub_eq_add_neg, Int.add_right_comm]
    rw [hbump, h, htold]
    simp
  rw [refused]
  split_ifs
  · exact hcounted _ rfl
  · exact hcounted _ (by rw [← hfailed, ← told_append]; rfl)

end Session

open Session

lemma Fate.ofRecords {calls : Calls} {n : NodeId} {r : Record} {s : Session} {vs : List Visit}
    {fate : Except Stop Counter × Session} {c : Counter} (h : Fate calls n r s vs fate)
    (hc : fate.1 = .ok c) : c.OfRecords := by
  cases h with
  | belowLevel =>
    cases hc
    exact Or.inr (Or.inl rfl)
  | filtered =>
    cases hc
    exact Or.inr (Or.inr rfl)
  | published =>
    cases hc
    exact Or.inl rfl
  | interrupted | broken => cases hc

namespace Run

variable {α β : Type} {calls : Calls}

/-! ### Calls that leave things as they stand -/

/-- What two calls keep, they keep one after the other. -/
lemma kept_bind {γ : Type} (k : Session → γ) {x : Run α} {f : α → Run β}
    (hx : ∀ s : Session, k (x.run s).2 = k s) (hf : ∀ a, ∀ s : Session, k ((f a).run s).2 = k s)
    (s : Session) : k ((x >>= f).run s).2 = k s := by
  have h := hx s
  rw [run_bind]
  rcases hr : x.run s with ⟨e | a, s'⟩
  · rwa [hr] at h
  · rw [hr] at h
    exact (hf a s').trans h

def Steady (x : Run α) : Prop := ∀ s : Session, (x.run s).2.standing = s.standing

lemma Silent.steady {x : Run α} (h : Silent x) : Steady x := fun s => (h s).standing

lemma Reads.steady {x : Run α} (h : Reads x) : Steady x := h.silent.steady

lemma Steady.bind {x : Run α} {f : α → Run β} (hx : Steady x) (hf : ∀ a, Steady (f a)) :
    Steady (x >>= f) := kept_bind standing hx hf

lemma steady_pure (a : α) : Steady (pure a : Run α) := (reads_pure a).steady

lemma steady_get : Steady (get : Run Session) := reads_get.steady

lemma steady_reclaim : Steady reclaim := silent_reclaim.steady

lemma steady_modifyNamespace (f : Namespace → Namespace) : Steady (modifyNamespace f) :=
  fun _ => rfl

lemma steady_emit {e : Event} (hr : e ≠ .logReturned) (hf : e ≠ .sinkRefused) : Steady (emit e) :=
  fun s => standing_told s (by simpa using hr.symm) (by simpa using hf.symm)

lemma Steady.borrowing {call : Run α} (h : Steady call) (refs : List Ref) :
    Steady (borrowing refs call) := by
  intro s
  rw [run_borrowing]
  calc (regain (call.run (lend s refs)).2 s.inUse).settle.standing
      = (call.run (lend s refs)).2.standing := (Session.silent_settle _).standing
    _ = s.standing := h (lend s refs)

lemma composes_steady : Composes @Steady where
  silent := Silent.steady
  bind := Steady.bind
  borrowing refs h := h.borrowing refs
  emit {e} he := steady_emit (by rintro rfl; exact he) (by rintro rfl; exact he)
  refused k o name message? f s := by
    rw [run_refused]
    exact standing_refused s k o name message? f

lemma steady_addHook (actions : List BoundAction) : Steady (addHook actions) :=
  composes_steady.addHook (fun f _ => steady_modifyNamespace f) (fun _ => steady_emit nofun nofun)
    actions

/-! ### Callbacks -/

/-- What a program gave to the tree leaves things as they stand, too. -/
structure CallsSteady (calls : Calls) : Prop where
  predicate : ∀ p r, Steady (calls.predicate p r)
  publish : ∀ k r, Steady (calls.publish k r)
  flush : ∀ k, Steady (calls.flush k)
  hook : ∀ h, Steady (calls.hook h)

lemma CallsSteady.callsIn (h : CallsSteady calls) : CallsIn @Steady calls :=
  ⟨h.predicate, h.publish, h.flush, h.hook⟩

variable (hcalls : CallsSteady calls)

include hcalls

/-- Up to its end, the call has counted what it went along with, and not yet the record itself. -/
lemma standing_of_fate {n : NodeId} {r : Record} {s : Session} {vs : List Visit}
    {fate : Except Stop Counter × Session} (h : Fate calls n r s vs fate) :
    fate.2.standing = s.standing := by
  have hfilters : ∀ {r' a s'}, (isLoggable calls n r').run s = (a, s') →
      s'.standing = s.standing := fun {r' a s'} hl => by
    have hs := composes_steady.isLoggable hcalls.callsIn n r' s
    rwa [hl] at hs
  have hwalk : ∀ {r' path s' vs out}, Walks calls r' path s' vs out →
      out.2.standing = s'.standing := fun {r' path s' vs out} hw => by
    rw [← hw.run_eq]
    exact composes_steady.serveAlong (composes_steady.deliver hcalls.callsIn r') path s'
  cases h with
  | belowLevel => rfl
  | filtered _ hl | interrupted _ hl => exact hfilters hl
  | published _ hl hw => exact (hwalk hw).trans (hfilters hl)
  | broken _ hl hw => exact (hwalk hw).trans (hfilters hl)

lemma steady_logRecord (h : HandleId) (r : Record) : Steady (logRecord calls h r) := by
  intro s
  obtain ⟨vs, fate, hf⟩ := exists_fate calls (s.nodeOf h) r s
  have hs := standing_of_fate hcalls hf
  rw [hf.run_logRecord]
  rcases fate with ⟨e | c, s'⟩
  · exact hs
  · exact (standing_counted s' (hf.ofRecords rfl)).trans hs

omit hcalls

theorem lawful_steady : Lawful @Steady where
  toComposes := composes_steady
  logRecord hcalls := steady_logRecord ⟨hcalls.predicate, hcalls.publish, hcalls.flush, hcalls.hook⟩
  changeLevels _ := steady_modifyNamespace _
  changeFilters _ := steady_modifyNamespace _
  addHook := steady_addHook
  offerHook := composes_steady.offerHook steady_addHook fun _ => steady_emit nofun nofun
  close hcalls := composes_steady.close hcalls (fun f _ => steady_modifyNamespace f) fun _ =>
    steady_emit nofun nofun

/-- Callbacks may do anything that a client may do but count anew. -/
theorem callsSteady_within (depth : Nat) : CallsSteady (Calls.within depth) :=
  have h := lawful_steady.callsIn_within depth
  ⟨h.predicate, h.publish, h.flush, h.hook⟩

/-! ### Steps -/

lemma standing_modifyClient (f : Client → Client) (s : Session) :
    ((modifyClient f).run s).2.standing = { s.standing with walks := (f s.client).walks } :=
  (Session.silent_settle { s with client := f s.client }).standing

end Run

open Run

/-- A step that is neither on a walk over the live names nor resets the metrics leaves things as
they stand, also when it stops before it has an answer. -/
theorem Step.steady_take [Pattern.Engine] {calls : Calls} (hcalls : CallsSteady calls) {step : Step}
    (hstep : step.KeepsStanding) : Steady (step.take calls) := by
  by_cases hdrop : step = .dropNamespace
  · subst hdrop
    have htakeDown : Steady (modify fun s =>
        { s with tree := s.tree.takeDown Tree.root, scope? := none }) := fun _ => rfl
    refine steady_get.bind fun s => ?_
    cases s.scope?.isSome with
    | false => exact steady_pure _
    | true => exact htakeDown.bind fun _ => Run.silent_settle.steady.bind fun _ => steady_pure _
  · exact lawful_steady.take hcalls.callsIn hstep hdrop

end Logging
