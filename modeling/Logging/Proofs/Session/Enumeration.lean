import Logging.Pattern.Compiled
import Logging.Proofs.Session.FullNames
import Logging.Proofs.Session.Standing
import Logging.Proofs.Session.Walks

/-!
# Enumeration while the tree changes

A walk over the live names knows only the nodes that it has before it; it refers to them, so they
stay, with their names and their paths, whatever else happens to the tree. So it is poised whenever
it is asked for a name (`Along`): what it meets comes later than all that it met before, and as long
as a node stays in its place with live handles, one of those before the walk is on the way up from
it, until it is met itself.
-/

namespace Logging

open Run

namespace Session

variable {s s' u : Session} {id : String} {w : LiveNames} {n m : NodeId} {step : Step}
  {us : List Session}

/-! ### What is kept from one session to the next -/

lemma Leads.sameName (h : s.Leads s') (hs : s.Sound) (hn : n < s.tree.nodes.next)
    (hc : s'.tree.contains n) : (s'.node n).SameName (s.node n) := by
  induction h with
  | refl => exact ⟨rfl, rfl, rfl⟩
  | @tail b c h h' ih =>
    have hlt := Nat.lt_of_lt_of_le hn (Leads.next_le h)
    have hb : b.tree.contains n := h'.leads.contains hlt hc
    refine Node.SameName.trans ?_ (ih hb)
    cases h' with
    | change h' => exact h'.sameName (Leads.sound h hs).tree.toWellShaped hlt hc
    | aside ht =>
      rw [node, node, ht]
      exact ⟨rfl, rfl, rfl⟩

/-- A node that is there keeps its way up and its path. -/
lemma Leads.lineage_eq_and_path_eq (h : s.Leads s') (hs : s.Sound) (hg : s'.Grounded)
    (hn : n < s.tree.nodes.next) (hc : s'.tree.contains n) :
    s'.tree.lineage n = s.tree.lineage n ∧ s'.tree.path n = s.tree.path n :=
  Tree.lineage_eq_and_path_eq hs.tree.toWellShaped (h.sound hs).tree.toWellShaped
    (fun _ => h.sameName hs) (fun _ _ => hg.parent) hn hc

lemma poised_of_leads {ns : List NodeId} (h : LiveNames.Poised s.tree ns) (hl : s.Leads s')
    (hs : s.Sound) (hg : s'.Grounded) (hc : ∀ n ∈ ns, s'.tree.contains n) :
    LiveNames.Poised s'.tree ns := by
  have hpath : ∀ n ∈ ns, s'.tree.path n = s.tree.path n := fun n hn =>
    (hl.lineage_eq_and_path_eq hs hg (Tree.lt_next_of_contains (h.there n hn)) (hc n hn)).2
  refine ⟨hc, fun n hn => ?_, h.apart.imp_of_mem fun {n m} hn hm hb => ?_⟩
  · have hname := (hl.sameName hs (Tree.lt_next_of_contains (h.there n hn)) (hc n hn)).fullName
    refine ⟨?_, ?_⟩
    · rw [hpath n hn]
      exact hname.trans (h.spells n hn).fullName
    · rw [hpath n hn]
      exact (h.spells n hn).dotless
  · rw [hpath n hn, hpath m hm]
    exact hb

/-! ### A walk in a session -/

/-- A walk that is under way in a session. -/
structure Enumerating (s : Session) (id : String) (w : LiveNames) : Prop where
  sound : s.Sound
  grounded : s.Grounded
  spelled : s.Spelled
  walk : s.client.walks.get? id = some w
  poised : LiveNames.Poised s.tree w.pending

/-- The node whose name a walk gives next. -/
def sighted? (s : Session) (id : String) : Option NodeId :=
  (s.client.walks.get? id).bind fun w => (w.next s.tree).1

namespace Enumerating

lemma sighted? (h : s.Enumerating id w) : s.sighted? id = (w.next s.tree).1 := by
  rw [Session.sighted?, h.walk, Option.bind_some]

lemma wellShaped (h : s.Enumerating id w) : s.tree.WellShaped := h.sound.tree.toWellShaped

lemma poised_next (h : s.Enumerating id w) : LiveNames.Poised s.tree (w.next s.tree).2.pending :=
  (h.poised.next h.wellShaped h.spelled.dotless).1

lemma meets (h : s.Enumerating id w) (hn : s.sighted? id = some n) :
    LiveNames.Meets s.tree w.pending n (w.next s.tree).2.pending :=
  (h.poised.next h.wellShaped h.spelled.dotless).2 n (h.sighted? ▸ hn)

lemma pending_of_none (h : s.Enumerating id w) (hn : s.sighted? id = none) :
    (w.next s.tree).2.pending = [] := by
  rcases h.poised.next_spec h.wellShaped with ⟨n, w', hnext, -, -⟩ | ⟨hnext, -⟩
  · rw [h.sighted?, hnext] at hn
    cases hn
  · rw [hnext]

end Enumerating

/-- What a walk has before it is there. -/
lemma Grounded.contains_of_pending (hg : s.Grounded) (hw : s.client.walks.get? id = some w)
    (hn : n ∈ w.pending) : s.tree.contains n := by
  apply hg.outer
  have hc : .node n ∈ refsOfClient s.client :=
    node_mem_refsOfClient_iff.2 (Or.inr ⟨id, w, hw, hn⟩)
  simp [outerRefs, hc]

/-- A walk is under way after a step if it was poised, in the tree before, where it is then. -/
lemma enumerating_step [Pattern.Engine] {depth : Nat} (hs : s.Sound) (hg : s.Grounded)
    (hd : s.Spelled) (hp : LiveNames.Poised s.tree w.pending)
    (hw : (s.step (Calls.within depth) step).2.client.walks.get? id = some w) :
    (s.step (Calls.within depth) step).2.Enumerating id w := by
  have hc := conduct_step_all depth hs step
  have hg' := hc.grounded hg
  exact {
    sound := hc.sound hs
    grounded := hg'
    spelled := hc.course.spelled hs hd
    walk := hw
    poised := poised_of_leads hp (hc.leads hs) hs hg' fun n => hg'.contains_of_pending hw }

/-- The session in which a walk is somewhere. -/
def withWalk (s : Session) (id : String) (w : LiveNames) : Session :=
  { s with client := { s.client with walks := s.client.walks.insert id w } }

lemma walk_settle_withWalk (s : Session) (id : String) (w : LiveNames) :
    (s.withWalk id w).settle.client.walks.get? id = some w := by
  rw [(ends_settle (s.withWalk id w)).keeps.client]
  exact (Dict.get?_insert ..).trans (if_pos rfl)

end Session

open Session

/-! ### Steps on walks -/

namespace Run

variable {α β : Type} {id : String}

/-- The call leaves a walk where it is. -/
def SparesWalk (id : String) (x : Run α) : Prop :=
  ∀ s : Session, (x.run s).2.client.walks.get? id = s.client.walks.get? id

lemma Steady.sparesWalk {x : Run α} (h : Steady x) : SparesWalk id x := fun s =>
  congrArg (fun a => a.walks.get? id) (h s)

lemma SparesWalk.bind {x : Run α} {f : α → Run β} (hx : SparesWalk id x)
    (hf : ∀ a, SparesWalk id (f a)) : SparesWalk id (x >>= f) :=
  kept_bind (fun s => s.client.walks.get? id) hx hf

lemma sparesWalk_modifyClient {f : Client → Client}
    (hf : ∀ c, (f c).walks.get? id = c.walks.get? id) : SparesWalk id (modifyClient f) := fun s =>
  (congrArg (fun a => a.walks.get? id) (standing_modifyClient f s)).trans (hf s.client)

end Run

namespace Step

variable {id : String} {step : Step}

/-- Whether the step asks a walk for a name. -/
def isNext (id : String) : Step → Bool
  | nextName j => j == id
  | _ => false

lemma eq_of_isNext (h : step.isNext id) : step = .nextName id := by
  cases step with
  | nextName j => rw [eq_of_beq h]
  | _ => cases h

/-- Only steps on a walk change where it is. -/
lemma sparesWalk_take [Pattern.Engine] {calls : Calls} (hcalls : CallsSteady calls)
    (hstart : step ≠ .startNames id) (hdrop : step ≠ .dropNames id)
    (hnext : step.isNext id = false) :
    SparesWalk id (step.take calls) := by
  have hsteady : step.KeepsStanding → SparesWalk id (step.take calls) := fun h =>
    (step.steady_take hcalls h).sparesWalk
  cases step with
  | resetMetrics => exact fun _ => rfl
  | startNames j =>
    have hj : j ≠ id := fun h => hstart (h ▸ rfl)
    refine reads_theNamespace.steady.sparesWalk.bind fun _ => steady_reclaim.sparesWalk.bind fun _ =>
      SparesWalk.bind (sparesWalk_modifyClient fun c => ?_) fun _ => (steady_pure _).sparesWalk
    exact (Dict.get?_insert ..).trans (if_neg hj)
  | nextName j =>
    have hj : j ≠ id := beq_eq_false_iff_ne.1 hnext
    refine (reads_need _ j).steady.sparesWalk.bind fun _ => steady_get.sparesWalk.bind fun _ =>
      SparesWalk.bind (sparesWalk_modifyClient fun c => ?_) fun _ => (steady_pure _).sparesWalk
    exact (Dict.get?_insert ..).trans (if_neg hj)
  | dropNames j =>
    have hj : j ≠ id := fun h => hdrop (h ▸ rfl)
    refine steady_get.sparesWalk.bind fun _ =>
      SparesWalk.bind (sparesWalk_modifyClient fun c => ?_) fun _ => (steady_pure _).sparesWalk
    exact (Dict.get?_erase ..).trans (if_neg hj)
  | _ => exact hsteady trivial

end Step

lemma run_nextName [Pattern.Engine] {s : Session} {id : String} {w : LiveNames} (calls : Calls)
    (hw : s.client.walks.get? id = some w) :
    ((Step.nextName id).take calls).run s =
      (.ok (.text? ((w.next s.tree).1.map fun n => (s.node n).fullName)),
        (s.withWalk id (w.next s.tree).2).settle) := by
  rw [Step.take, run_bind, run_need, hw]
  rfl

lemma run_startNames [Pattern.Engine] {s : Session} (calls : Calls) (hn : s.scope?.isSome)
    (id : String) :
    (((Step.startNames id).take calls).run s).2 =
      (s.reclaim.2.withWalk id (LiveNames.start Tree.root)).settle := by
  obtain ⟨ns, hns⟩ := Option.isSome_iff_exists.1 hn
  rw [Step.take, run_bind, run_theNamespace, hns]
  rfl

namespace Session

variable {s s' u v : Session} {id : String} {w : LiveNames} {n m : NodeId} {step : Step}
  {steps : List Step} {us before after : List Session} {depth : Nat}

/-! ### All that a walk is asked -/

/-- The sessions in which a walk is asked for a name while steps are taken. -/
def asks [Pattern.Engine] (calls : Calls) (id : String) : Session → List Step → List Session
  | _, [] => []
  | s, step :: more =>
    let later := asks calls id (s.step calls step).2 more
    if step.isNext id then s :: later else later

/-- What a walk answers when it is asked for a name, of all answers to some steps. -/
def answers (id : String) (steps : List Step) (reports : List Report) :
    List (Except Stop Answer) :=
  ((steps.zip reports).filter fun a => a.1.isNext id).map fun a => a.2.answer

lemma answers_steps [Pattern.Engine] (calls : Calls) (id : String) (s : Session)
    (steps : List Step) :
    answers id steps (s.steps calls steps).1 =
      (asks calls id s steps).map fun u => (u.step calls (.nextName id)).1.answer := by
  induction steps generalizing s with
  | nil => rfl
  | cons step more ih =>
    have hmore := ih (s.step calls step).2
    rw [answers] at hmore ⊢
    rw [asks, Session.steps, List.zip_cons_cons, List.filter_cons]
    cases hn : step.isNext id with
    | true =>
      obtain rfl := Step.eq_of_isNext hn
      rw [if_pos rfl, if_pos rfl, List.map_cons, List.map_cons, hmore]
    | false => rw [if_neg Bool.false_ne_true, if_neg Bool.false_ne_true, hmore]

/-- A walk is asked for names in some sessions, each of which leads to those after it; at first it
is where it is said to be, and every time it goes on from where the last answer left it. -/
inductive Along (id : String) : LiveNames → List Session → Prop
  | done (w : LiveNames) : Along id w []
  | ask {w : LiveNames} {u : Session} {us : List Session} (h : u.Enumerating id w)
      (hl : ∀ v ∈ us, u.Leads v) (more : Along id (w.next u.tree).2 us) : Along id w (u :: us)

lemma leads_of_mem_asks [Pattern.Engine] (hs : s.Sound)
    (hu : u ∈ asks (Calls.within depth) id s steps) :
    s.Leads u := by
  induction steps generalizing s with
  | nil => cases hu
  | cons step more ih =>
    have hc := conduct_step_all depth hs step
    have hlater : u ∈ asks (Calls.within depth) id (s.step (Calls.within depth) step).2 more →
        s.Leads u := fun hu => (hc.leads hs).trans (ih (hc.sound hs) hu)
    rw [asks] at hu
    split_ifs at hu
    · rcases List.mem_cons.1 hu with rfl | hu
      · exact .refl u
      · exact hlater hu
    · exact hlater hu

/-- What other steps do in between leaves a walk where it is. -/
theorem along_asks [Pattern.Engine] (h : s.Enumerating id w) (hstart : .startNames id ∉ steps)
    (hdrop : .dropNames id ∉ steps) : Along id w (asks (Calls.within depth) id s steps) := by
  induction steps generalizing s w with
  | nil => exact .done w
  | cons step more ih =>
    obtain ⟨hstart, hstart'⟩ := List.ne_and_not_mem_of_not_mem_cons hstart
    obtain ⟨hdrop, hdrop'⟩ := List.ne_and_not_mem_of_not_mem_cons hdrop
    rw [asks]
    cases hn : step.isNext id with
    | true =>
      obtain rfl := Step.eq_of_isNext hn
      have hwalk : ({ s with journal := [] } : Session).client.walks.get? id = some w := h.walk
      have hw : (s.step (Calls.within depth) (.nextName id)).2.client.walks.get? id =
          some (w.next s.tree).2 := by
        rw [step_client, run_nextName _ hwalk]
        exact walk_settle_withWalk _ id _
      have hnext := enumerating_step h.sound h.grounded h.spelled h.poised_next hw
      rw [if_pos rfl]
      refine .ask h (fun v hv => ?_) (ih hnext hstart' hdrop')
      exact ((conduct_step_all depth h.sound _).leads h.sound).trans
        (leads_of_mem_asks hnext.sound hv)
    | false =>
      have hw : (s.step (Calls.within depth) step).2.client.walks.get? id = some w := by
        rw [step_client]
        exact (Step.sparesWalk_take (callsSteady_within depth) (Ne.symm hstart) (Ne.symm hdrop)
          hn _).trans h.walk
      rw [if_neg Bool.false_ne_true]
      exact ih (enumerating_step h.sound h.grounded h.spelled h.poised hw) hstart' hdrop'

lemma Along.exists_enumerating (h : Along id w us) (hu : u ∈ us) :
    ∃ w, u.Enumerating id w := by
  induction h with
  | done => cases hu
  | ask h _ _ ih =>
    rcases List.mem_cons.1 hu with rfl | hu
    · exact ⟨_, h⟩
    · exact ih hu

/-! ### What a walk meets -/

/-- A node that a walk has met in a session. -/
structure Sighting where
  session : Session
  node : NodeId

namespace Sighting

def path (a : Sighting) : List String := a.session.tree.path a.node

def name (a : Sighting) : String := (a.session.node a.node).fullName

end Sighting

/-- What a walk meets in the sessions in which it is asked. -/
def sightings (id : String) (us : List Session) : List Sighting :=
  us.filterMap fun u => (u.sighted? id).map (Sighting.mk u)

lemma sightings_of_none (hu : u.sighted? id = none) (us : List Session) :
    sightings id (u :: us) = sightings id us := by
  rw [sightings, List.filterMap_cons, hu]
  rfl

lemma sightings_of_some (hu : u.sighted? id = some n) (us : List Session) :
    sightings id (u :: us) = ⟨u, n⟩ :: sightings id us := by
  rw [sightings, List.filterMap_cons, hu]
  rfl

lemma mem_sightings_iff {a : Sighting} :
    a ∈ sightings id us ↔ a.session ∈ us ∧ a.session.sighted? id = some a.node := by
  rw [sightings, List.mem_filterMap]
  constructor
  · rintro ⟨u, hu, ha⟩
    obtain ⟨n, hn, rfl⟩ := Option.map_eq_some_iff.1 ha
    exact ⟨hu, hn⟩
  · rintro ⟨hu, ha⟩
    exact ⟨a.session, hu, by rw [ha]; rfl⟩

/-- What a walk has before it keeps its path until it is asked again. -/
lemma Along.path_eq (h : Along id w (u :: us)) :
    ∀ v ∈ us.head?, ∀ m ∈ (w.next u.tree).2.pending, v.tree.path m = u.tree.path m := by
  intro v hv m hm
  cases h with
  | ask h hl more =>
    cases more with
    | done => cases hv
    | ask h' _ _ =>
      obtain rfl := Option.some.inj hv
      exact ((hl _ List.mem_cons_self).lineage_eq_and_path_eq h.sound h'.grounded
        (Tree.lt_next_of_contains (h.poised_next.there m hm)) (h'.poised.there m hm)).2

/-- What comes before all that a walk has before it comes before all that it meets. -/
lemma Along.lt (h : Along id w us) {q : List String}
    (hq : ∀ u ∈ us.head?, ∀ m ∈ w.pending, q < u.tree.path m) :
    ∀ a ∈ sightings id us, q < a.path := by
  induction h generalizing q with
  | done => exact fun a ha => absurd ha List.not_mem_nil
  | @ask w u us h hl more ih =>
    have hpath := (Along.ask h hl more).path_eq
    cases hu : u.sighted? id with
    | none =>
      -- the walk is at its end, and nothing is before it
      rw [sightings_of_none hu]
      refine ih fun v _ m hm => ?_
      rw [h.pending_of_none hu] at hm
      cases hm
    | some n =>
      have hmeets := h.meets hu
      have hn : q < u.tree.path n := by
        obtain ⟨m, hm, hp⟩ := hmeets.ahead
        exact Path.lt_of_lt_of_prefix (hq u rfl m hm) hp
      rw [sightings_of_some hu]
      refine List.forall_mem_cons.2 ⟨hn, ih fun v hv m hm => ?_⟩
      rw [hpath v hv m hm]
      exact List.lt_trans hn (hmeets.past m hm)

/-- A walk meets nodes in the order of their paths. -/
theorem Along.sorted (h : Along id w us) :
    (sightings id us).Pairwise fun a b => a.path < b.path := by
  induction h with
  | done => exact List.Pairwise.nil
  | @ask w u us h hl more ih =>
    have hpath := (Along.ask h hl more).path_eq
    cases hu : u.sighted? id with
    | none => rwa [sightings_of_none hu]
    | some n =>
      rw [sightings_of_some hu]
      refine List.pairwise_cons.2 ⟨more.lt fun v hv m hm => ?_, ih⟩
      rw [hpath v hv m hm]
      exact (h.meets hu).past m hm

/-- It meets no node twice. -/
lemma Along.nodup (h : Along id w us) : ((sightings id us).map Sighting.node).Nodup := by
  have hall := h.sorted
  induction h with
  | done => exact List.nodup_nil
  | @ask w u us h hl more ih =>
    cases hu : u.sighted? id with
    | none =>
      rw [sightings_of_none hu] at hall ⊢
      exact ih hall
    | some n =>
      rw [sightings_of_some hu] at hall ⊢
      obtain ⟨hlt, hall⟩ := List.pairwise_cons.1 hall
      refine List.nodup_cons.2 ⟨fun hn => ?_, ih hall⟩
      obtain ⟨⟨v, n⟩, ha, rfl⟩ := List.mem_map.1 hn
      obtain ⟨hv, hvn⟩ := mem_sightings_iff.1 ha
      obtain ⟨w', h'⟩ := more.exists_enumerating hv
      have hpath := ((hl v hv).lineage_eq_and_path_eq h.sound h'.grounded
        (Tree.lt_next_of_contains (h.meets hu).there) (h'.meets hvn).there).2
      have hlt : u.tree.path n < v.tree.path n := hlt ⟨v, n⟩ ha
      rw [hpath] at hlt
      exact List.lt_irrefl _ hlt

lemma mem_of_cons_eq_append (h : v :: us = before ++ u :: after) : v ∈ before ++ [u] := by
  cases before with
  | nil => exact List.mem_singleton.2 (List.cons.inj h).1
  | cons b before => exact (List.cons.inj h).1 ▸ List.mem_cons_self

/-- A node that stays in its place with live handles is met before the walk is at its end: until
then one of the nodes before the walk is on the way up from it. -/
lemma Along.mem (h : Along id w us) {way : List NodeId} (hway : ∃ m ∈ w.pending, m ∈ way)
    (hus : us = before ++ u :: after) (hu : u.sighted? id = none)
    (hn : ∀ v ∈ before ++ [u],
      v.tree.Reached n ∧ (v.node n).hasLiveHandles ∧ v.tree.lineage n = way) :
    n ∈ (sightings id us).map Sighting.node := by
  induction h generalizing before with
  | done => cases before <;> cases hus
  | @ask w v us h hl more ih =>
    obtain ⟨hreached, hlive, rfl⟩ := hn v (mem_of_cons_eq_append hus)
    have hahead : n ∈ LiveNames.liveAmong v.tree (LiveNames.ahead v.tree w.pending) :=
      List.mem_filter.2 ⟨(LiveNames.mem_ahead_iff_of_reached h.wellShaped hreached).2 hway, hlive⟩
    rcases h.poised.next_spec h.wellShaped with ⟨n', w', hnext, hlist, -⟩ | ⟨-, hlist⟩
    · have hsighted : v.sighted? id = some n' := by rw [h.sighted?, hnext]
      rw [sightings_of_some hsighted, List.map_cons]
      rw [hlist] at hahead
      rcases List.mem_cons.1 hahead with rfl | hahead
      · exact List.mem_cons_self
      · refine List.mem_cons_of_mem _ ?_
        cases before with
        | nil =>
          rw [(List.cons.inj hus).1, hu] at hsighted
          cases hsighted
        | cons b before =>
          refine ih ?_ (List.cons.inj hus).2 fun v hv => hn v (List.mem_cons_of_mem b hv)
          rw [hnext]
          exact (LiveNames.mem_ahead_iff_of_reached h.wellShaped hreached).1
            (List.mem_of_mem_filter hahead)
    · rw [hlist] at hahead
      cases hahead

lemma contains_of_hasLiveHandles {t : Tree} (h : (t.node n).hasLiveHandles) : t.contains n := by
  by_contra hn
  rw [Tree.node_of_not_contains hn] at h
  cases h

/-- A walk from the root meets every node that stays, since the root is on the way up from it. -/
lemma Along.mem_of_stays (h : Along id (LiveNames.start Tree.root) us)
    (hus : us = before ++ u :: after) (hu : u.sighted? id = none)
    (hn : ∀ v ∈ before ++ [u], v.tree.Reached n ∧ (v.node n).hasLiveHandles) :
    n ∈ (sightings id us).map Sighting.node := by
  cases h with
  | done => cases before <;> cases hus
  | @ask _ v us h hl more =>
    have hv := mem_of_cons_eq_append hus
    have hlt : n < v.tree.nodes.next :=
      Tree.lt_next_of_contains (contains_of_hasLiveHandles (hn v hv).2)
    have hway : ∀ v' ∈ before ++ [u], v'.tree.lineage n = v.tree.lineage n := by
      intro v' hv'
      have hmem : v' ∈ v :: us := by
        rw [hus, List.append_cons]
        exact List.mem_append_left after hv'
      rcases List.mem_cons.1 hmem with rfl | hmem
      · rfl
      · obtain ⟨w', h'⟩ := more.exists_enumerating hmem
        exact ((hl v' hmem).lineage_eq_and_path_eq h.sound h'.grounded hlt
          (contains_of_hasLiveHandles (hn v' hv').2)).1
    exact (Along.ask h hl more).mem
      ⟨Tree.root, List.mem_singleton.2 rfl, (hn v hv).1.root_mem_lineage h.wellShaped⟩ hus hu
      fun v' hv' => ⟨(hn v' hv').1, (hn v' hv').2, hway v' hv'⟩

/-- The name that a walk gives next. -/
def nextName? (s : Session) (id : String) : Option String :=
  (s.sighted? id).map fun n => (s.node n).fullName

lemma Enumerating.answer [Pattern.Engine] (h : s.Enumerating id w) (calls : Calls) :
    (s.step calls (.nextName id)).1.answer = .ok (.text? (s.nextName? id)) := by
  have hwalk : ({ s with journal := [] } : Session).client.walks.get? id = some w := h.walk
  rw [step, run_nextName calls hwalk, nextName?, h.sighted?]
  rfl

/-- What a client sees that goes along a walk, whatever else happens in between. -/
structure Enumerates (id : String) (us : List Session) : Prop where
  /-- Names are spelled by paths. -/
  spelled : ∀ a ∈ sightings id us, a.name = Path.fullName a.path
  /-- A path comes before what it begins, and otherwise paths go by segments. -/
  sorted : (sightings id us).Pairwise fun a b => a.path < b.path
  distinct : ((sightings id us).map Sighting.name).Nodup
  live : ∀ a ∈ sightings id us, (a.session.node a.node).hasLiveHandles
  /-- Until the walk is at its end, it meets once each node that is in its place with live handles
  whenever the walk is asked. -/
  once : ∀ {before u after n}, us = before ++ u :: after → u.sighted? id = none →
    (∀ v ∈ before ++ [u], v.tree.Reached n ∧ (v.node n).hasLiveHandles) →
      ((sightings id us).map Sighting.node).count n = 1

theorem Along.enumerates (h : Along id (LiveNames.start Tree.root) us) : Enumerates id us := by
  have hmeets : ∀ a ∈ sightings id us, ∃ w ns ns',
      a.session.Enumerating id w ∧ LiveNames.Meets a.session.tree ns a.node ns' := by
    intro a ha
    obtain ⟨hu, hn⟩ := mem_sightings_iff.1 ha
    obtain ⟨w, hw⟩ := h.exists_enumerating hu
    exact ⟨w, _, _, hw, hw.meets hn⟩
  constructor
  case spelled =>
    intro a ha
    obtain ⟨_, _, _, _, hm⟩ := hmeets a ha
    exact hm.spells.fullName
  case sorted => exact h.sorted
  case distinct =>
    rw [List.nodup_iff_pairwise_ne, List.pairwise_map]
    refine h.sorted.imp_of_mem fun {a b} ha hb hlt hname => ?_
    obtain ⟨_, _, _, _, hm⟩ := hmeets a ha
    obtain ⟨_, _, _, _, hm'⟩ := hmeets b hb
    have hpath : a.path = b.path := by
      apply Path.fullName_injective hm.spells.dotless hm'.spells.dotless
      exact hm.spells.fullName.symm.trans (Eq.trans hname hm'.spells.fullName)
    rw [hpath] at hlt
    exact List.lt_irrefl _ hlt
  case live =>
    intro a ha
    obtain ⟨_, _, _, _, hm⟩ := hmeets a ha
    exact hm.live
  case once =>
    intro before u after n hus hu hn
    exact List.count_eq_one_of_mem h.nodup (h.mem_of_stays hus hu hn)

/-! ### A walk that nothing interrupts -/

lemma node_mem_refs_of_reached (hscope : s.scope?.isSome) (hn : s.tree.Reached n) :
    .node n ∈ s.refs := by
  rcases Tree.reached_iff.1 hn with rfl | hn
  · obtain ⟨ns, hns⟩ := Option.isSome_iff_exists.1 hscope
    exact mem_refs_of_scope hns (node_mem_refsOfNamespace_iff.2 rfl)
  · obtain ⟨-, p, k, hk, -⟩ := hn.last
    exact node_mem_refs_iff.2 (Or.inr (Or.inr ⟨p, Or.inr ⟨k, hk⟩⟩))

/-- What a walk lets go of is still referred to if it is in its place. -/
lemma Settled.withWalk (hs : s.Settled) (hscope : s.scope?.isSome)
    (hw : s.client.walks.get? id = some w) (hp : ∀ n ∈ w.pending, s.tree.Reached n)
    (w' : LiveNames) : (s.withWalk id w').Settled := by
  refine hs.of_same (fun r hr => by cases r <;> exact hr) fun r hr => ?_
  rcases mem_refs_iff.1 hr with h | h | h | h | h | h
  · exact mem_refs_iff.2 (Or.inl h)
  · rw [refsOfClient, List.mem_append] at h
    rcases h with h | h
    · exact mem_refs_of_client (List.mem_append_left _ h)
    · obtain ⟨w₀, hw₀, h⟩ := List.mem_flatMap.1 h
      obtain ⟨n, hn, rfl⟩ := List.mem_map.1 h
      obtain ⟨j, hj⟩ := Dict.mem_values_iff.1 hw₀
      by_cases h' : id = j
      · subst h'
        obtain rfl : w = w₀ := Option.some.inj (hw.symm.trans hj)
        exact node_mem_refs_of_reached hscope (hp n hn)
      · refine mem_refs_of_client (node_mem_refsOfClient_iff.2 (Or.inr ⟨j, w₀, ?_, hn⟩))
        exact (Dict.get?_insert ..).trans ((if_neg h').trans hj)
  · exact mem_refs_iff.2 (Or.inr (Or.inr (Or.inl h)))
  · exact mem_refs_iff.2 (Or.inr (Or.inr (Or.inr (Or.inl h))))
  · exact mem_refs_iff.2 (Or.inr (Or.inr (Or.inr (Or.inr (Or.inl h)))))
  · exact mem_refs_iff.2 (Or.inr (Or.inr (Or.inr (Or.inr (Or.inr h)))))

/-- A walk that is asked in a settled session lets go of nothing that ends. -/
lemma step_nextName [Pattern.Engine] (calls : Calls) (hs : s.Settled) (hscope : s.scope?.isSome)
    (hw : s.client.walks.get? id = some w) (hp : ∀ n ∈ w.pending, s.tree.Reached n) :
    (s.step calls (.nextName id)).2 =
      { s.withWalk id (w.next s.tree).2 with journal := [] } := by
  have hwalk : ({ s with journal := [] } : Session).client.walks.get? id = some w := hw
  have hsettled : (({ s with journal := [] } : Session).withWalk id (w.next s.tree).2).Settled :=
    Settled.withWalk (hs.of_eq rfl rfl rfl rfl rfl rfl) hscope hwalk hp _
  rw [step, run_nextName calls hwalk, hsettled.settle_eq]
  rfl

/-- Asked again and again, a walk gives the names of the live nodes ahead of it, in order. -/
lemma answers_nextName [Pattern.Engine] (h : s.Enumerating id w) (hs : s.Settled)
    (hscope : s.scope?.isSome) (hp : ∀ n ∈ w.pending, s.tree.Reached n) (k : Nat) :
    (s.steps (Calls.within depth) (List.replicate k (.nextName id))).1.map Report.answer =
      (List.range k).map fun i =>
        .ok (.text? (LiveNames.namesAmong s.tree (LiveNames.ahead s.tree w.pending))[i]?) := by
  induction k generalizing s w with
  | zero => rfl
  | succ k ih =>
    have ht := h.wellShaped
    have hnext := step_nextName (Calls.within depth) hs hscope h.walk hp
    have hwalk : (s.step (Calls.within depth) (.nextName id)).2.client.walks.get? id =
        some (w.next s.tree).2 := by
      rw [hnext]
      exact (Dict.get?_insert ..).trans (if_pos rfl)
    have htree : (s.step (Calls.within depth) (.nextName id)).2.tree = s.tree := by
      rw [hnext]
      rfl
    have hscope' : (s.step (Calls.within depth) (.nextName id)).2.scope?.isSome := by
      rw [hnext]
      exact hscope
    have hmore := ih (enumerating_step h.sound h.grounded h.spelled h.poised_next hwalk)
      ((conduct_step_all depth h.sound _).settled h.grounded hs) hscope'
      (htree ▸ h.poised.reached_next ht hp)
    rw [htree] at hmore
    rw [List.replicate_succ, steps, List.map_cons, h.answer, nextName?, h.sighted?, hmore,
      List.range_succ_eq_map, List.map_cons, List.map_map]
    rcases h.poised.next_spec ht with ⟨n, w', hn, hlist, -⟩ | ⟨hn, hlist⟩
    · rw [hn, LiveNames.namesAmong, LiveNames.namesAmong, hlist]
      rfl
    · rw [hn, LiveNames.namesAmong, LiveNames.namesAmong, hlist]
      rfl

/-! ### From the start -/

lemma step_scope? [Pattern.Engine] (calls : Calls) (s : Session) (step : Step) :
    (s.step calls step).2.scope? =
      ((step.take calls).run ({ s with journal := [] } : Session)).2.scope? := rfl

lemma scope?_startNames [Pattern.Engine] (calls : Calls) (hscope : s.scope?.isSome) (id : String) :
    (s.step calls (.startNames id)).2.scope? = s.scope? := by
  have hscope' : ({ s with journal := [] } : Session).scope?.isSome := hscope
  rw [step_scope?, run_startNames calls hscope', (ends_settle _).keeps.scope]
  exact (keeps_reclaim _).scope

/-- A walk is under way once it has started. -/
lemma enumerating_startNames [Pattern.Engine] (hs : s.Sound) (hg : s.Grounded) (hd : s.Spelled)
    (hscope : s.scope?.isSome) (id : String) :
    (s.step (Calls.within depth) (.startNames id)).2.Enumerating id
      (LiveNames.start Tree.root) := by
  have hc := conduct_step_all depth hs (.startNames id)
  have hs' := hc.sound hs
  have hg' := hc.grounded hg
  have hd' := hc.course.spelled hs hd
  have hscope' : ({ s with journal := [] } : Session).scope?.isSome := hscope
  have hwalk : (s.step (Calls.within depth) (.startNames id)).2.client.walks.get? id =
      some (LiveNames.start Tree.root) := by
    rw [step_client, run_startNames _ hscope']
    exact walk_settle_withWalk _ id _
  have hroot := hg'.contains_of_pending hwalk (List.mem_singleton.2 rfl)
  exact ⟨hs', hg', hd', hwalk, LiveNames.poised_start hs'.tree.toWellShaped hroot hd'.root⟩

/-- From its start to its end, and whatever the client does in between, a walk meets nodes with live
handles in the order of their paths, under different names, and each node that stays in its place
with live handles once. If nothing happens in between, the answers are the names of all such nodes,
one after another. -/
theorem enumerates_steps [Pattern.Engine] (depth : Nat) (strong : Bool) (baseline : Level)
    (levels : List Level) (filters : List (String × NodeFilter)) (steps more : List Step)
    (id : String) :
    let s := ((new strong baseline levels filters).steps (Calls.within depth) steps).2
    let start := (s.step (Calls.within depth) (.startNames id)).2
    s.scope?.isSome → .startNames id ∉ more → .dropNames id ∉ more →
      let asked := asks (Calls.within depth) id start more
      (answers id more (start.steps (Calls.within depth) more).1 =
        asked.map fun u => .ok (.text? (u.nextName? id))) ∧
      Enumerates id asked ∧
      ∃ ns : List NodeId, ns.Pairwise (fun n m => start.tree.path n < start.tree.path m) ∧
        (∀ n, n ∈ ns ↔ start.tree.Reached n ∧ (start.node n).hasLiveHandles) ∧
        LiveNames.all start.tree = (ns.map fun n => (start.node n).fullName) ∧
        ∀ k, (start.steps (Calls.within depth) (List.replicate k (.nextName id))).1.map
            Report.answer =
          (List.range k).map fun i => .ok (.text? (LiveNames.all start.tree)[i]?) := by
  intro s start hscope hstart hdrop
  have hs : s.Sound := sound_steps depth strong baseline levels filters steps
  obtain ⟨hg, hsettled⟩ := orderly_steps depth strong baseline levels filters steps
  have hcourse := (conduct_all depth (sound_new strong baseline levels filters) steps).course
  have hd : s.Spelled := hcourse.spelled (sound_new _ _ _ _) (spelled_new _ _ _ _)
  have h : start.Enumerating id (LiveNames.start Tree.root) :=
    enumerating_startNames hs hg hd hscope id
  have halong : Along id (LiveNames.start Tree.root) (asks (Calls.within depth) id start more) :=
    along_asks h hstart hdrop
  refine ⟨?_, halong.enumerates, ?_⟩
  · rw [answers_steps]
    refine List.map_congr_left fun u hu => ?_
    obtain ⟨w, hw⟩ := halong.exists_enumerating hu
    exact hw.answer _
  have ht := h.wellShaped
  have hroot := h.poised.there Tree.root (List.mem_singleton.2 rfl)
  obtain ⟨hsorted, hmem⟩ := LiveNames.liveAmong_order ht
  refine ⟨_, hsorted, hmem, LiveNames.all_eq ht hroot, fun k => ?_⟩
  have hscope' : start.scope?.isSome := (scope?_startNames (Calls.within depth) hscope id) ▸ hscope
  have hreached : ∀ n ∈ (LiveNames.start Tree.root).pending, start.tree.Reached n := fun n hn =>
    ⟨[], congrArg some (List.mem_singleton.1 hn).symm⟩
  have hahead : LiveNames.ahead start.tree (LiveNames.start Tree.root).pending =
      LiveNames.order start.tree Tree.root := List.flatMap_singleton _ _
  have hall : start.Settled := (conduct_step_all depth hs _).settled hg hsettled
  rw [answers_nextName h hall hscope' hreached k, hahead, LiveNames.all_eq ht hroot]

open scoped Pattern.Searching in
/-- Nodes come and go while a walk is under way: one that is made behind it is not met, nor is one
that is pruned before it, and one that is made before it is. -/
theorem enumerates_steps_between :
    let s := ((new false .info [] []).steps (Calls.within 0)
      [.logger "a.b.c" (some "c"), .logger "a" (some "a")]).2
    let start := (s.step (Calls.within 0) (.startNames "w")).2
    let more : List Step := [.nextName "w", .dropHandle "c", .logger "A" (some "A"),
      .logger "a.b.d" (some "d"), .nextName "w", .nextName "w"]
    (s.scope?.isSome ∧ .startNames "w" ∉ more ∧ .dropNames "w" ∉ more) ∧
      Enumerates "w" (asks (Calls.within 0) "w" start more) ∧
      (sightings "w" (asks (Calls.within 0) "w" start more)).map Sighting.name =
        ["a", "a.b.d"] := by
  intro s start more
  have hscope : s.scope?.isSome := by decide +kernel
  have hstart : .startNames "w" ∉ more := by simp [more]
  have hdrop : .dropNames "w" ∉ more := by simp [more]
  exact ⟨⟨hscope, hstart, hdrop⟩, (enumerates_steps 0 false .info [] [] _ more "w" hscope hstart
    hdrop).2.1, by decide +kernel⟩

end Session

end Logging
