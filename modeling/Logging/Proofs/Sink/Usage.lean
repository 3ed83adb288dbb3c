import Mathlib.Data.List.Induction
import Mathlib.Tactic.Common
import Logging.Proofs.Data.Dict
import Logging.Sink.Usage

/-!
# The history of an array of sinks

An array of sinks in use holds what the changes so far make of the empty list, and each change puts
another array in its place. So a swap for an array that was saved goes through just if nothing was
changed since that array was the current one (`recounts_after`), whatever the contents are by now.
-/

namespace Logging.SinkArray

/-! ### Installing arrays -/

variable {σ : Type} {a b : SinkArray σ}

@[simp] lemma install_sinks (a : SinkArray σ) (l : List σ) : (a.install l).sinks = l := rfl

@[simp] lemma install_owner (a : SinkArray σ) (l : List σ) : (a.install l).owner = a.owner := rfl

@[simp] lemma install_version (a : SinkArray σ) (l : List σ) :
    (a.install l).version = a.version + 1 := rfl

lemma same_self (a : SinkArray σ) : a.same a = true := by simp [same]

lemma compareAndSet_self (a : SinkArray σ) (l : List σ) :
    a.compareAndSet a l = (true, a.install l) :=
  if_pos a.same_self

lemma remove_eq [DecidableEq σ] (a : SinkArray σ) (s : σ) :
    a.remove s = if s ∈ a.sinks then (true, a.install (a.sinks.erase s)) else (false, a) := by
  rw [remove, compareAndSet_self]

namespace User

/-- A sink by its number, with its name. -/
abbrev Sink := Nat × String

variable {u : User} {step : Use} {id : String}

/-! ### Changes -/

/-- What a step with its answer makes of the content; nothing if it leaves the array in place. -/
def change? [DecidableEq σ] (sink : String → σ) : Use → Response → Option (List σ → List σ)
  | .add s, _ => some (· ++ [sink s])
  | .remove s, .flag true => some (·.erase (sink s))
  | .set ids _, _ => some fun _ => ids.map sink
  | .clear _, _ => some fun _ => []
  | .compareAndSet _ ids, .flag true => some fun _ => ids.map sink
  | _, _ => none

/-- Steps with their answers. -/
def trace (u : User) : List Use → List (Use × Response)
  | [] => []
  | step :: steps => (step, (u.use step).1) :: (u.use step).2.trace steps

/-- The changes among some steps. -/
def changes [DecidableEq σ] (sink : String → σ) (t : List (Use × Response)) :
    List (List σ → List σ) :=
  t.filterMap fun e => change? sink e.1 e.2

/-- What the changes among some steps make of the empty array. -/
def content [DecidableEq σ] (sink : String → σ) (t : List (Use × Response)) : List σ :=
  (changes sink t).foldl (fun l f => f l) []

/-- The name under which a step saves the array that is current before it. -/
def saves? : Use → Option String
  | .set _ save? | .clear save? => save?
  | .snapshot save => some save
  | _ => none

/-- A user who has taken some steps. -/
def after (u : User) (uses : List Use) : User := (u.useAll uses).2

/-! ### One step -/

@[simp] lemma save_sinks (u : User) (id? : Option String) (a : SinkArray Sink) :
    (u.save id? a).sinks = u.sinks := by cases id? <;> rfl

lemma use_sinks (u : User) (step : Use) : (u.use step).2.sinks = u.sinks := by
  cases step with
  | compareAndSet expected ids =>
    rw [use]
    split <;> rfl
  | snapshot save => rfl
  | _ => simp [use]

lemma use_sink (u : User) (step : Use) : (u.use step).2.sink = u.sink := by
  funext id
  rw [sink, sink, use_sinks]

/-- A step that changes the content installs another array, any other step leaves it in place. -/
lemma use_array (u : User) (step : Use) :
    (u.use step).2.array = match change? u.sink step (u.use step).1 with
      | some f => u.array.install (f u.array.sinks)
      | none => u.array := by
  cases step with
  | remove s =>
    rw [use, remove_eq]
    by_cases hs : u.sink s ∈ u.array.sinks <;> simp [hs, change?]
  | compareAndSet expected ids =>
    rw [use]
    split
    · next a _ =>
      rw [compareAndSet]
      by_cases ha : u.array.same a <;> simp [ha, change?]
    · rfl
  | _ => rfl

lemma use_saved (u : User) (step : Use) (id : String) :
    (u.use step).2.saved.get? id =
      if saves? step = some id then some u.array else u.saved.get? id := by
  cases step with
  | set ids save? =>
    cases save? with
    | none => rfl
    | some save => simp [use, User.save, saves?, Dict.get?_insert]
  | clear save? =>
    cases save? with
    | none => rfl
    | some save => simp [use, User.save, saves?, Dict.get?_insert]
  | snapshot save => simp [use, User.save, saves?, Dict.get?_insert]
  | compareAndSet expected ids =>
    rw [use]
    split <;> rfl
  | _ => rfl

/-! ### A run -/

lemma after_append (u : User) (uses more : List Use) :
    u.after (uses ++ more) = (u.after uses).after more := by
  induction uses generalizing u with
  | nil => rfl
  | cons step steps ih => exact ih _

lemma trace_append (u : User) (uses more : List Use) :
    u.trace (uses ++ more) = u.trace uses ++ (u.after uses).trace more := by
  induction uses generalizing u with
  | nil => rfl
  | cons step steps ih => exact congrArg (_ :: ·) (ih _)

/-- The answers of a trace are those that the user is given. -/
lemma trace_answers (u : User) (uses : List Use) :
    (u.trace uses).map Prod.snd = (u.useAll uses).1.map Prod.fst := by
  induction uses generalizing u with
  | nil => rfl
  | cons step steps ih => exact congrArg (_ :: ·) (ih _)

lemma changes_cons [DecidableEq σ] (sink : String → σ) (step : Use) (r : Response)
    (t : List (Use × Response)) :
    changes sink ((step, r) :: t) = (change? sink step r).toList ++ changes sink t := by
  rw [changes, List.filterMap_cons]
  cases change? sink step r <;> rfl

lemma changes_append [DecidableEq σ] (sink : String → σ) (t t' : List (Use × Response)) :
    changes sink (t ++ t') = changes sink t ++ changes sink t' := List.filterMap_append

lemma after_sink (u : User) (uses : List Use) : (u.after uses).sink = u.sink := by
  induction uses generalizing u with
  | nil => rfl
  | cons step steps ih => exact (ih _).trans (u.use_sink step)

/-- Along a run the array is installed anew with each change, and with nothing else. -/
lemma array_after (u : User) (uses : List Use) :
    (u.after uses).array.owner = u.array.owner ∧
      (u.after uses).array.version = u.array.version + (changes u.sink (u.trace uses)).length ∧
      (u.after uses).array.sinks =
        (changes u.sink (u.trace uses)).foldl (fun l f => f l) u.array.sinks := by
  induction uses generalizing u with
  | nil => exact ⟨rfl, rfl, rfl⟩
  | cons step steps ih =>
    obtain ⟨howner, hversion, hsinks⟩ := ih (u.use step).2
    have harray := u.use_array step
    rw [u.use_sink step] at hversion hsinks
    have hstep : u.after (step :: steps) = (u.use step).2.after steps := rfl
    rw [hstep, howner, hversion, hsinks, trace, changes_cons, harray]
    cases change? u.sink step (u.use step).1 with
    | none => exact ⟨rfl, rfl, rfl⟩
    | some f => exact ⟨rfl, by simp [Nat.add_assoc, Nat.add_comm], rfl⟩

/-- An array that was saved stays as it was for as long as its name is not used again. -/
lemma saved_after (u : User) (uses : List Use) (h : ∀ step ∈ uses, saves? step ≠ some id) :
    (u.after uses).saved.get? id = u.saved.get? id := by
  induction uses generalizing u with
  | nil => rfl
  | cons step steps ih =>
    have hsteps := ih (u.use step).2 fun s hs => h s (List.mem_cons_of_mem _ hs)
    exact hsteps.trans ((u.use_saved step id).trans (if_neg (h step List.mem_cons_self)))

/-- An array of some time is still the current one just if nothing was changed since. -/
lemma same_after_iff (u : User) (uses : List Use) :
    (u.after uses).array.same u.array ↔ changes u.sink (u.trace uses) = [] := by
  obtain ⟨howner, hversion, -⟩ := u.array_after uses
  simp [same, howner, hversion]

lemma use_compareAndSet (u : User) (id : String) (ids : List String) :
    (u.use (.compareAndSet id ids)).1 = .flag ((u.saved.get? id).any u.array.same) := by
  rw [use]
  split
  · next a ha =>
    rw [compareAndSet, ha, Option.any_some]
    by_cases hsame : u.array.same a <;> simp [hsame]
  · next ha =>
    rw [ha]
    rfl

/-- A swap that does not go through changes nothing. -/
lemma use_compareAndSet_of_false {ids : List String}
    (h : (u.use (.compareAndSet id ids)).1 = .flag false) :
    (u.use (.compareAndSet id ids)).2 = u := by
  rw [use] at h ⊢
  split at h
  · next a ha =>
    rw [compareAndSet] at h ⊢
    by_cases hsame : u.array.same a
    · simp [hsame] at h
    · simp [hsame]
  · rfl

/-- Every array that is saved was the current one at some time. -/
lemma exists_before_of_saved (h : u.saved = ∅) (uses : List Use) {a : SinkArray Sink}
    (ha : (u.after uses).saved.get? id = some a) :
    ∃ before between, uses = before ++ between ∧ a = (u.after before).array := by
  induction uses using List.reverseRecOn with
  | nil =>
    rw [after, useAll, h] at ha
    cases ha
  | append_singleton uses step ih =>
    have hlast : u.after (uses ++ [step]) = ((u.after uses).use step).2 := u.after_append uses [step]
    rw [hlast, use_saved] at ha
    split_ifs at ha
    · cases ha
      exact ⟨uses, [step], rfl, rfl⟩
    · obtain ⟨before, between, rfl, rfl⟩ := ih ha
      exact ⟨before, between ++ [step], by simp, rfl⟩

/-- Once a swap for a saved array does not go through, it never does again. -/
lemma compareAndSet_append (h : u.saved = ∅) (uses more : List Use) {ids ids' : List String}
    (hfalse : ((u.after uses).use (.compareAndSet id ids)).1 = .flag false)
    (hmore : ∀ step ∈ more, saves? step ≠ some id) :
    ((u.after (uses ++ more)).use (.compareAndSet id ids')).1 = .flag false := by
  rw [use_compareAndSet, Response.flag.injEq] at hfalse ⊢
  rw [after_append, saved_after _ _ hmore]
  cases ha : (u.after uses).saved.get? id with
  | none => rfl
  | some a =>
    obtain ⟨before, between, rfl, rfl⟩ := exists_before_of_saved h uses ha
    rw [ha, Option.any_some, Bool.eq_false_iff, ne_eq, after_append, same_after_iff] at hfalse
    rw [Option.any_some, Bool.eq_false_iff, ne_eq, after_append, ← after_append, same_after_iff,
      trace_append, changes_append, List.append_eq_nil_iff]
    exact fun hnil => hfalse hnil.1

/-! ### Sinks -/

/-- The sinks that a user was given are told apart by their numbers. -/
lemma sink_inj {sinks : List (String × String)} {a b : String}
    (ha : ((new sinks).sinks.get? a).isSome) (hb : ((new sinks).sinks.get? b).isSome)
    (h : ((new sinks).sink a).1 = ((new sinks).sink b).1) : a = b := by
  have hmem : ∀ {c : String} {s : Sink}, (new sinks).sinks.get? c = some s →
      ∃ name, sinks[s.1]? = some (c, name) := by
    intro c s hc
    obtain ⟨⟨⟨c', name⟩, i⟩, hi, he⟩ := List.mem_map.1 (Dict.mem_of_get?_ofList hc)
    cases he
    exact ⟨name, List.mem_zipIdx_iff_getElem?.1 hi⟩
  obtain ⟨s, hs⟩ := Option.isSome_iff_exists.1 ha
  obtain ⟨t, ht⟩ := Option.isSome_iff_exists.1 hb
  obtain ⟨name, hn⟩ := hmem hs
  obtain ⟨name', hn'⟩ := hmem ht
  rw [sink, sink, hs, ht, Option.getD_some, Option.getD_some] at h
  rw [h, hn'] at hn
  cases hn
  rfl

/-! ### The history -/

/-- Whether an array has a content, and its user is told so. -/
structure Shows (u : User) (l : List Sink) : Prop where
  sinks_eq : u.array.sinks = l
  size_eq : u.array.size = l.length
  isEmpty_iff : u.array.isEmpty ↔ l = []
  remove : ∀ s, (u.use (.remove s)).1 = .flag (u.sink s ∈ l)
  set : ∀ ids save?, (u.use (.set ids save?)).1 = .names (l.map Prod.snd)
  clear : ∀ save?, (u.use (.clear save?)).1 = .names (l.map Prod.snd)

lemma shows_sinks (u : User) : u.Shows u.array.sinks where
  sinks_eq := rfl
  size_eq := rfl
  isEmpty_iff := List.isEmpty_iff
  remove s := by
    rw [use, remove_eq]
    by_cases hs : u.sink s ∈ u.array.sinks <;> simp [hs]
  set _ _ := rfl
  clear _ := rfl

/-- What has become of the array that a step saved under a name, some steps later. -/
structure Handed (u : User) (before : List Use) (step : Use) (between : List Use)
    (id : String) : Prop where
  /-- It is still the array that was current before the step. -/
  kept : (u.after (before ++ step :: between)).saved.get? id = some (u.after before).array
  shown : ((u.after (before ++ step :: between)).use (.saved id)).1 =
    .names ((content u.sink (u.trace before)).map Prod.snd)
  /-- It can be swapped for another one if nothing was changed since, whatever it holds. -/
  swap : ∀ ids, ((u.after (before ++ step :: between)).use (.compareAndSet id ids)).1 =
    .flag (changes u.sink ((u.after before).trace (step :: between))).isEmpty

/-- Whether what a user is told about an array recounts what became of it. -/
structure Recounts (u : User) (uses : List Use) : Prop where
  answers : (u.trace uses).map Prod.snd = (u.useAll uses).1.map Prod.fst
  shows : (u.after uses).Shows (content u.sink (u.trace uses))
  handed : ∀ before step between id, uses = before ++ step :: between → saves? step = some id →
    (∀ s ∈ between, saves? s ≠ some id) → u.Handed before step between id
  /-- A swap that does not go through changes nothing, -/
  failed : ∀ id ids, ((u.after uses).use (.compareAndSet id ids)).1 = .flag false →
    ((u.after uses).use (.compareAndSet id ids)).2 = u.after uses
  /-- and the array is never the current one again. -/
  replaced : ∀ id ids, ((u.after uses).use (.compareAndSet id ids)).1 = .flag false →
    ∀ more, (∀ s ∈ more, saves? s ≠ some id) → ∀ ids',
      ((u.after (uses ++ more)).use (.compareAndSet id ids')).1 = .flag false
  /-- Sinks are told apart by who they are, whatever their names. -/
  same : ∀ a b, (u.sinks.get? a).isSome → (u.sinks.get? b).isSome →
    ((u.after uses).use (.same a b)).1 = .flag (a = b) ∧ (u.sink a = u.sink b ↔ a = b)

lemma content_eq (sinks : List (String × String)) (uses : List Use) :
    ((new sinks).after uses).array.sinks =
      content (new sinks).sink ((new sinks).trace uses) := ((new sinks).array_after uses).2.2

/-- The array that a step saves is from then on known under the name, with what it held. -/
lemma handed_new (sinks : List (String × String)) (before : List Use) {step : Use}
    {between : List Use} (hstep : saves? step = some id)
    (hbetween : ∀ s ∈ between, saves? s ≠ some id) :
    (new sinks).Handed before step between id := by
  have hafter : (new sinks).after (before ++ step :: between) =
      (((new sinks).after before).use step).2.after between := after_append _ _ _
  have hkept : ((new sinks).after (before ++ step :: between)).saved.get? id =
      some ((new sinks).after before).array := by
    rw [hafter, saved_after _ _ hbetween, use_saved, if_pos hstep]
  refine ⟨hkept, ?_, fun ids => ?_⟩
  · rw [use, hkept, Option.map_some, Option.getD_some, names, content_eq]
  · have hsame := ((new sinks).after before).same_after_iff (step :: between)
    rw [after_sink] at hsame
    rw [use_compareAndSet, hkept, Option.any_some, after_append, Response.flag.injEq,
      Bool.eq_iff_iff, hsame, List.isEmpty_iff]

/-- An array of sinks in use is the list that its history makes of the empty list. Arrays that
were handed out stay as they are, and one can be swapped for another just if it was not replaced. -/
theorem recounts_new (sinks : List (String × String)) (uses : List Use) :
    (new sinks).Recounts uses where
  answers := trace_answers _ _
  shows := by
    rw [← content_eq]
    exact shows_sinks _
  handed := by
    rintro before step between id - hstep hbetween
    exact handed_new sinks before hstep hbetween
  failed _ _ := use_compareAndSet_of_false
  replaced _ _ hfalse more hmore _ := compareAndSet_append rfl uses more hfalse hmore
  same a b ha hb := by
    have hiff : ((new sinks).sink a).1 = ((new sinks).sink b).1 ↔ a = b :=
      ⟨sink_inj ha hb, fun h => h ▸ rfl⟩
    refine ⟨?_, fun h => sink_inj ha hb (congrArg Prod.fst h), fun h => h ▸ rfl⟩
    rw [use, after_sink, Response.flag.injEq, Bool.eq_iff_iff, beq_iff_eq, hiff, decide_eq_true_iff]

-- the content is the same as when the array was saved, but the array is another one
example : ((new [("a", "A")]).useAll
    [.snapshot "k", .add "a", .remove "a", .compareAndSet "k" []]).1.map Prod.fst =
      [.nothing, .nothing, .flag true, .flag false] := by decide

end User

end Logging.SinkArray
