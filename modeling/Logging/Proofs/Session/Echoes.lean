import Logging.Proofs.Session.Settling

/-!
# Records in two sessions

Two calls agree if they answer the same, or stop for the same reason, and leave their sessions
related. While a record is delivered in two sessions that show the same, nothing changes but what
is told and counted (`Run.Aside`): quiet callbacks change nothing else, and as nothing is without an
owner, nothing ends when a call lets go of what it held on to. So what becomes of the record is the
same in both.
-/

namespace Logging

open Session

namespace Run

variable {α β γ δ : Type}

/-! ### Calls that agree -/

/-- Both calls answer, with answers and sessions that are related, or both stop, for one reason. -/
inductive Agree (E : Session → Session → Prop) (Q : α → β → Session → Session → Prop) :
    Except Stop α × Session → Except Stop β × Session → Prop
  | ok {a : α} {b : β} {s u : Session} (h : Q a b s u) : Agree E Q (.ok a, s) (.ok b, u)
  | error {e : Stop} {s u : Session} (h : E s u) : Agree E Q (.error e, s) (.error e, u)

/-- Equal answers, and related sessions. -/
def Same (F : Session → Session → Prop) (a b : α) (s u : Session) : Prop := a = b ∧ F s u

variable {E E' F F' : Session → Session → Prop} {Q Q' : α → β → Session → Session → Prop}
  {R : γ → δ → Session → Session → Prop} {s u : Session}

lemma Agree.mono {p : Except Stop α × Session} {q : Except Stop β × Session} (h : Agree E Q p q)
    (hE : ∀ {s u}, E s u → E' s u) (hQ : ∀ {a b s u}, Q a b s u → Q' a b s u) :
    Agree E' Q' p q := by
  cases h with
  | ok h => exact .ok (hQ h)
  | error h => exact .error (hE h)

theorem Agree.bind {x : Run α} {y : Run β} {f : α → Run γ} {g : β → Run δ}
    (h : Agree E Q (x.run s) (y.run u))
    (hf : ∀ a b s u, Q a b s u → Agree E R ((f a).run s) ((g b).run u)) :
    Agree E R ((x >>= f).run s) ((y >>= g).run u) := by
  rw [run_bind, run_bind]
  generalize x.run s = p, y.run u = q at h
  cases h with
  | ok h => exact hf _ _ _ _ h
  | error h => exact .error h

lemma Agree.bind_same {x y : Run α} {f : α → Run γ} {g : α → Run δ}
    (h : Agree E (Same F) (x.run s) (y.run u))
    (hf : ∀ a s u, F s u → Agree E R ((f a).run s) ((g a).run u)) :
    Agree E R ((x >>= f).run s) ((y >>= g).run u) :=
  h.bind fun a _ s u ⟨hab, hs⟩ => hab ▸ hf a s u hs

lemma agree_pure {a : α} (h : F s u) :
    Agree E (Same F) ((pure a : Run α).run s) ((pure a : Run α).run u) := .ok ⟨rfl, h⟩

/-! ### Beside the sessions -/

/-- The sessions are as they were, but for what was told and counted in both. -/
def Aside (s₀ u₀ s u : Session) : Prop :=
  ∃ j m m', s = { s₀ with journal := j, metrics := m } ∧
    u = { u₀ with journal := j, metrics := m' } ∧ m.withoutPruned = m'.withoutPruned

/-- The calls agree and leave the sessions as they are, beside what is told and counted. -/
def Echoes (s₀ u₀ : Session) (x y : Run α) : Prop :=
  ∀ s u, Aside s₀ u₀ s u →
    Agree (Aside s₀ u₀) (Same (Aside s₀ u₀)) (x.run s) (y.run u)

variable {s₀ u₀ : Session} {x y : Run α}

lemma aside_refl {P : Pairing} (h : Session.Alike P s u) : Aside s u s u :=
  ⟨s.journal, s.metrics, u.metrics, rfl, by rw [h.journal], h.metrics⟩

lemma echoes_pure (a : α) : Echoes s₀ u₀ (pure a : Run α) (pure a) := fun _ _ h => agree_pure h

lemma Echoes.bind {f g : α → Run β} (hx : Echoes s₀ u₀ x y) (hf : ∀ a, Echoes s₀ u₀ (f a) (g a)) :
    Echoes s₀ u₀ (x >>= f) (y >>= g) :=
  fun s u h => (hx s u h).bind_same fun a s u h => hf a s u h

lemma Echoes.ite {p : Prop} [Decidable p] {x' y' : Run α} (hx : Echoes s₀ u₀ x y)
    (hy : Echoes s₀ u₀ x' y') :
    Echoes s₀ u₀ (if p then x else x') (if p then y else y') := by
  split_ifs
  · exact hx
  · exact hy

lemma echoes_forM {f : α → Run Unit} {l : List α} (hf : ∀ a ∈ l, Echoes s₀ u₀ (f a) (f a)) :
    Echoes s₀ u₀ (l.forM f) (l.forM f) := by
  induction l with
  | nil => exact echoes_pure _
  | cons a l ih =>
    refine (hf a List.mem_cons_self).bind fun _ => ih fun b hb => hf b (List.mem_cons_of_mem a hb)

/-- What does not look at the session echoes. -/
lemma Detached.echoes (h : Detached x) : Echoes s₀ u₀ x x := by
  obtain ⟨r, es, h⟩ := h
  rintro s u ⟨j, m, m', rfl, rfl, hm⟩
  rw [h, h]
  have hafter : Aside s₀ u₀ (told { s₀ with journal := j, metrics := m } es)
      (told { u₀ with journal := j, metrics := m' } es) := ⟨j ++ es, m, m', rfl, rfl, hm⟩
  cases r with
  | ok a => exact .ok ⟨rfl, hafter⟩
  | error e => exact .error hafter

lemma echoes_emit (e : Event) : Echoes s₀ u₀ (emit e) (emit e) := (detached_emit e).echoes

lemma echoes_bump (c : Counter) : Echoes s₀ u₀ (bump c) (bump c) := by
  rintro s u ⟨j, m, m', rfl, rfl, hm⟩
  exact .ok ⟨rfl, j, m.bump c, m'.bump c, rfl, rfl, Metrics.withoutPruned_bump hm c⟩

/-- To look at a session is to look at what is not told or counted. -/
lemma echoes_get_bind {f g : Session → Run α}
    (hf : ∀ s u, Aside s₀ u₀ s u → Echoes s₀ u₀ (f s) (g u)) :
    Echoes s₀ u₀ (get >>= f) (get >>= g) := fun s u h => hf s u h s u h

lemma echoes_node_bind {n m : NodeId} {f g : Node → Run α}
    (hf : Echoes s₀ u₀ (f (s₀.node n)) (g (u₀.node m))) :
    Echoes s₀ u₀ (node n >>= f) (node m >>= g) := by
  rintro s u ⟨j, k, k', rfl, rfl, hk⟩
  exact hf _ _ ⟨j, k, k', rfl, rfl, hk⟩

lemma echoes_nodeOf_bind {h : HandleId} {f g : NodeId → Run α}
    (hf : Echoes s₀ u₀ (f (s₀.nodeOf h)) (g (u₀.nodeOf h))) :
    Echoes s₀ u₀ (nodeOf h >>= f) (nodeOf h >>= g) := by
  rintro s u ⟨j, k, k', rfl, rfl, hk⟩
  exact hf _ _ ⟨j, k, k', rfl, rfl, hk⟩

/-- When a call lets go of what it held on to, nothing ends in settled sessions. -/
lemma Echoes.borrowing {refs : List Ref} (hs : s₀.Settled) (hu : u₀.Settled)
    (h : Echoes (lend s₀ refs) (lend u₀ refs) x y) :
    Echoes s₀ u₀ (borrowing refs x) (borrowing refs y) := by
  rintro s u ⟨j, m, m', rfl, rfl, hm⟩
  rw [run_borrowing, run_borrowing]
  have hin := h (lend { s₀ with journal := j, metrics := m } refs)
    (lend { u₀ with journal := j, metrics := m' } refs) ⟨j, m, m', rfl, rfl, hm⟩
  have hout : ∀ {s u}, Aside (lend s₀ refs) (lend u₀ refs) s u →
      Aside s₀ u₀ (regain s s₀.inUse).settle (regain u u₀.inUse).settle := by
    rintro s u ⟨j, m, m', rfl, rfl, hm⟩
    have hs' : (regain { lend s₀ refs with journal := j, metrics := m } s₀.inUse).Settled :=
      hs.of_eq rfl rfl rfl rfl rfl rfl
    have hu' : (regain { lend u₀ refs with journal := j, metrics := m' } u₀.inUse).Settled :=
      hu.of_eq rfl rfl rfl rfl rfl rfl
    rw [hs'.settle_eq, hu'.settle_eq]
    exact ⟨j, m, m', rfl, rfl, hm⟩
  generalize x.run (lend { s₀ with journal := j, metrics := m } refs) = p,
    y.run (lend { u₀ with journal := j, metrics := m' } refs) = q at hin
  cases hin with
  | ok h => exact .ok ⟨h.1, hout h.2⟩
  | error h => exact .error (hout h)

/-! ### Filters -/

section Delivery

variable {P : Pairing} {n m : NodeId} {calls : Calls} (hcalls : CallsDetached calls)
  (hp : Paired P s₀ u₀) (hs : s₀.Settled) (hu : u₀.Settled)

include hcalls hp hs hu

lemma echoes_ownFilter (hn : P.pair n m) (r : Record) :
    Echoes s₀ u₀ (ownFilter calls n r) (ownFilter calls m r) := by
  refine echoes_node_bind ?_
  have hf : (s₀.node n).filter? = (u₀.node m).filter? := (hp.tree.alike hn).filter
  have hq := hp.left.node n
  rw [← hf]
  cases hx : (s₀.node n).filter? with
  | none => exact echoes_pure _
  | some f =>
    exact (detached_evaluate hcalls f (hq f hx) r).echoes.borrowing hs hu

lemma echoes_filterChain {path path' : List NodeId} (hpath : List.Forall₂ P.pair path path')
    (r : Record) : Echoes s₀ u₀ (filterChain calls path r) (filterChain calls path' r) := by
  induction hpath generalizing r with
  | nil => exact echoes_pure _
  | @cons n m path path' hn hpath ih =>
    refine (echoes_ownFilter hcalls hp hs hu hn r).bind fun o => Echoes.ite (echoes_pure _) ?_
    refine echoes_node_bind ?_
    have hpf : (s₀.node n).useParentFilters = (u₀.node m).useParentFilters :=
      (hp.tree.alike hn).parentFilters
    rw [hpf]
    exact Echoes.ite (ih _) (echoes_pure _)

lemma echoes_isLoggable (hn : P.pair n m) (r : Record) :
    Echoes s₀ u₀ (isLoggable calls n r) (isLoggable calls m r) := by
  refine echoes_node_bind ?_
  have hpf : (s₀.node n).useParentFilters = (u₀.node m).useParentFilters :=
    (hp.tree.alike hn).parentFilters
  rw [hpf]
  refine Echoes.ite (echoes_get_bind ?_) (echoes_ownFilter hcalls hp hs hu hn r)
  rintro s u ⟨j, k, k', rfl, rfl, -⟩
  have hline := hp.tree.lineage hp.left.sound.tree.toWellShaped hp.right.sound.tree.toWellShaped hn
  exact echoes_filterChain hcalls hp hs hu hline r

omit hcalls

/-! ### Sinks -/

/-- Visits of a sink that is the same on both sides, whatever else is in use. -/
def Visits (s₀ u₀ : Session) (visit : SinkId → Run Unit) : Prop :=
  ∀ k refs, s₀.sink k = u₀.sink k → Echoes (lend s₀ refs) (lend u₀ refs) (visit k) (visit k)

lemma echoes_serve {visit : SinkId → Run Unit} (hv : Visits s₀ u₀ visit) (hn : P.pair n m) :
    Echoes s₀ u₀ (serve visit n) (serve visit m) := by
  refine echoes_node_bind ?_
  have hsinks : (s₀.node n).sinks.sinks = (u₀.node m).sinks.sinks := (hp.tree.alike hn).sinks
  show Echoes s₀ u₀
    (borrowing ((s₀.node n).sinks.sinks.map Ref.sink) ((s₀.node n).sinks.sinks.forM visit))
    (borrowing ((u₀.node m).sinks.sinks.map Ref.sink) ((u₀.node m).sinks.sinks.forM visit))
  rw [← hsinks]
  refine Echoes.borrowing hs hu (echoes_forM fun k hk => hv k _ ?_)
  exact hp.sink_eq (Or.inr (Or.inr ⟨n, m, hn, hk⟩))

lemma echoes_serveAlong {visit : SinkId → Run Unit} (hv : Visits s₀ u₀ visit)
    {path path' : List NodeId} (hpath : List.Forall₂ P.pair path path') :
    Echoes s₀ u₀ (serveAlong visit path) (serveAlong visit path') := by
  induction hpath with
  | nil => exact echoes_pure _
  | @cons n m path path' hn hpath ih =>
    refine (echoes_serve hp hs hu hv hn).bind fun _ => echoes_node_bind ?_
    have hps : (s₀.node n).useParentSinks = (u₀.node m).useParentSinks :=
      (hp.tree.alike hn).parentSinks
    rw [hps]
    exact Echoes.ite ih (echoes_pure _)

/-- Nodes on the way up from paired nodes are served alike. -/
lemma echoes_serveLineage {visit : SinkId → Run Unit} (hv : Visits s₀ u₀ visit)
    (hn : P.pair n m) :
    Echoes s₀ u₀ (get >>= fun s => serveAlong visit (s.tree.lineage n))
      (get >>= fun u => serveAlong visit (u.tree.lineage m)) := by
  refine echoes_get_bind ?_
  rintro s u ⟨j, k, k', rfl, rfl, -⟩
  have hline := hp.tree.lineage hp.left.sound.tree.toWellShaped hp.right.sound.tree.toWellShaped hn
  exact echoes_serveAlong hp hs hu hv hline

omit hp hs hu

lemma echoes_report {k : SinkId} (hk : s₀.sink k = u₀.sink k) (o : SinkOperation) (name : String)
    (message? : Option String) (f : Fault) :
    Echoes s₀ u₀ (report k o name message? f) (report k o name message? f) := by
  refine echoes_get_bind ?_
  intro s u hsu
  have hk' : s.sink k = u.sink k := by
    obtain ⟨j, i, i', rfl, rfl, -⟩ := hsu
    exact hk
  dsimp only
  rw [hk']
  exact Echoes.ite ((echoes_emit _).bind fun _ => echoes_bump _) (echoes_bump _)

/-- A call of a sink that both sessions have. -/
lemma echoes_sinkCall {b : BoundSink} {k : SinkId} {call : Run α} (hsk : s₀.sink k = b)
    (huk : u₀.sink k = b)
    (h : ∃ a es, ∀ s k', s.sink k' = b → k' = k → call.run s = (a, s.told es)) :
    Echoes s₀ u₀ call call := by
  obtain ⟨r, es, h⟩ := h
  rintro s u ⟨j, i, i', rfl, rfl, hm⟩
  have hafter : Aside s₀ u₀ (told { s₀ with journal := j, metrics := i } es)
      (told { u₀ with journal := j, metrics := i' } es) := ⟨j ++ es, i, i', rfl, rfl, hm⟩
  have hs := h { s₀ with journal := j, metrics := i } k hsk rfl
  have hu := h { u₀ with journal := j, metrics := i' } k huk rfl
  rw [hs, hu]
  cases r with
  | ok a => exact .ok ⟨rfl, hafter⟩
  | error e => exact .error hafter

include hcalls hp

lemma visits_deliver (r : Record) : Visits s₀ u₀ (deliver calls r) := by
  intro k refs hk
  have hk' : (lend s₀ refs).sink k = (lend u₀ refs).sink k := hk
  obtain ⟨a, es, h⟩ := hcalls.publish (s₀.sink k) r (hp.left.quiet_sink k)
  have hpub : Echoes (lend s₀ refs) (lend u₀ refs) (calls.publish k r) (calls.publish k r) := by
    refine echoes_sinkCall (b := s₀.sink k) (k := k) rfl hk.symm ⟨a, es, ?_⟩
    rintro s _ hs rfl
    exact h s _ hs
  apply hpub.bind
  intro f?
  cases f? with
  | none => exact echoes_pure _
  | some f => exact (echoes_emit _).bind fun _ => echoes_report hk' _ _ _ _

lemma visits_flushSink (name : String) : Visits s₀ u₀ (flushSink calls name) := by
  intro k refs hk
  have hk' : (lend s₀ refs).sink k = (lend u₀ refs).sink k := hk
  obtain ⟨a, es, h⟩ := hcalls.flush (s₀.sink k) (hp.left.quiet_sink k)
  have hflush : Echoes (lend s₀ refs) (lend u₀ refs) (calls.flush k) (calls.flush k) := by
    refine echoes_sinkCall (b := s₀.sink k) (k := k) rfl hk.symm ⟨a, es, ?_⟩
    rintro s _ hs rfl
    exact h s _ hs
  apply hflush.bind
  intro f?
  cases f? with
  | none => exact echoes_pure _
  | some f => exact (echoes_emit _).bind fun _ => echoes_report hk' _ _ _ _

include hs hu

theorem echoes_publish (hn : P.pair n m) (r : Record) :
    Echoes s₀ u₀ (publish calls n r) (publish calls m r) :=
  echoes_serveLineage hp hs hu (visits_deliver hcalls hp r) hn

theorem echoes_flush (hn : P.pair n m) : Echoes s₀ u₀ (flush calls n) (flush calls m) := by
  refine echoes_node_bind ?_
  have hname : (s₀.node n).fullName = (u₀.node m).fullName := (hp.tree.alike hn).fullName
  rw [hname]
  exact echoes_serveLineage hp hs hu (visits_flushSink hcalls hp _) hn

/-! ### Logging -/

lemma echoes_offer (hn : P.pair n m) (r : Record) :
    Echoes s₀ u₀ (offer calls n r) (offer calls m r) := by
  refine echoes_node_bind ?_
  have ha : (s₀.node n).Alike (u₀.node m) := hp.tree.alike hn
  have hen : (s₀.node n).isEnabled r.level = (u₀.node m).isEnabled r.level := by
    simp [Node.isEnabled, ha.effective]
  rw [hen, ha.fullName]
  refine Echoes.ite (echoes_bump _) ?_
  refine (echoes_isLoggable hcalls hp hs hu hn _).bind fun o => Echoes.ite ?_ (echoes_bump _)
  exact (echoes_publish hcalls hp hs hu hn o.2).bind fun _ => echoes_bump _

theorem echoes_logRecord (h : HandleId) (r : Record) :
    Echoes s₀ u₀ (logRecord calls h r) (logRecord calls h r) := by
  refine echoes_nodeOf_bind ?_
  exact (echoes_offer hcalls hp hs hu (hp.pair_nodeOf h) r).bind fun _ => echoes_emit _

theorem echoes_log (h : HandleId) (l : Level) (message : String) :
    Echoes s₀ u₀ (log calls h l message) (log calls h l message) := by
  refine echoes_nodeOf_bind (echoes_node_bind ?_)
  have hn := hp.pair_nodeOf h
  have heff : (s₀.node (s₀.nodeOf h)).effective = (u₀.node (u₀.nodeOf h)).effective :=
    (hp.tree.alike hn).effective
  rw [Node.isEnabled, Node.isEnabled, heff]
  refine Echoes.ite ?_ ((echoes_bump _).bind fun _ => echoes_emit _)
  exact (echoes_offer hcalls hp hs hu hn _).bind fun _ => echoes_emit _

theorem echoes_logLazily (h : HandleId) (l : Level) (message : Unit → String) :
    Echoes s₀ u₀ (logLazily calls h l message) (logLazily calls h l message) := by
  refine echoes_nodeOf_bind (echoes_node_bind ?_)
  have heff : (s₀.node (s₀.nodeOf h)).effective = (u₀.node (u₀.nodeOf h)).effective :=
    (hp.tree.alike (hp.pair_nodeOf h)).effective
  rw [Node.isEnabled, Node.isEnabled, heff]
  refine Echoes.ite ?_ (echoes_pure _)
  exact (echoes_log hcalls hp hs hu h l _).bind fun _ => echoes_pure _

omit hp

/-- Quiet hooks keep nothing alive, so they run alike one after the other. -/
theorem echoes_runHooks (hooks : List BoundHook)
    (hq : ∀ h ∈ hooks, h.actions.all Action.isQuiet) :
    Echoes s₀ u₀ (runHooks calls hooks) (runHooks calls hooks) := by
  induction hooks with
  | nil => exact echoes_pure _
  | cons h hooks ih =>
    have htail : ∀ k ∈ hooks, k.actions.all Action.isQuiet := fun k hk =>
      hq k (List.mem_cons_of_mem h hk)
    have hhead : ∀ k ∈ [h], k.actions.all Action.isQuiet := fun k hk =>
      hq k (List.mem_singleton.1 hk ▸ List.mem_cons_self)
    have hrun : Detached (do emit (.hookStarted h.number); calls.hook h) :=
      (detached_emit _).bind fun _ => hcalls.hook h (hq h List.mem_cons_self)
    rw [runHooks, refsOfHooks_of_quiet htail, refsOfHooks_of_quiet hhead]
    exact Echoes.borrowing hs hu ((hrun.echoes.borrowing hs hu).bind fun _ => ih htail)

end Delivery

end Run

end Logging
