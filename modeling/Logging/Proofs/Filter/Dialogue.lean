import Logging.Proofs.Filter.Laws

/-!
# Filters as dialogues

What is left of the evaluation of a filter if nothing is known of predicates is a dialogue: it ends,
or asks a predicate about a record and goes on as the answer says. Any evaluation is a run of this
dialogue (`Filter.run_dialogue`), and filters are equivalent exactly if they lead the same dialogue
on every record (`Filter.equivalent_iff`).

How a dialogue unfolds is fixed by the answers (`Dialogue.Unfolds`), wherever these come from.
-/

namespace Logging

/-- A computation that asks predicates about records. -/
inductive Dialogue (π α : Type)
  | done (a : α)
  | ask (p : π) (r : Record) (next : Filter.Outcome → Dialogue π α)

namespace Dialogue

variable {π α β : Type}

/-- Go on after a dialogue. -/
def andThen : Dialogue π α → (α → Dialogue π β) → Dialogue π β
  | done a, k => k a
  | ask p r next, k => ask p r fun o => (next o).andThen k

instance : Monad (Dialogue π) where
  pure := done
  bind := andThen

@[simp]
lemma pure_eq_done (a : α) : (pure a : Dialogue π α) = done a := rfl

@[simp]
lemma done_bind (a : α) (k : α → Dialogue π β) : done a >>= k = k a := rfl

@[simp]
lemma ask_bind (p : π) (r : Record) (next : Filter.Outcome → Dialogue π α)
    (k : α → Dialogue π β) : ask p r next >>= k = ask p r fun o => next o >>= k := rfl

instance : LawfulMonad (Dialogue π) := by
  apply LawfulMonad.mk' (Dialogue π)
  case id_map =>
    intro α d
    induction d with
    | done a => rfl
    | ask p r next ih => exact congrArg (ask p r) (funext ih)
  case pure_bind => exact fun a f => rfl
  case bind_assoc =>
    intro α β γ d f g
    induction d with
    | done a => rfl
    | ask p r next ih => exact congrArg (ask p r) (funext ih)

/-- A single question. -/
def question (p : π) (r : Record) : Dialogue π Filter.Outcome := ask p r done

variable {m : Type → Type} [Monad m] (call : π → Record → m Filter.Outcome)

/-- The dialogue with predicates that are called in this way. -/
def run : Dialogue π α → m α
  | done a => pure a
  | ask p r next => do (next (← call p r)).run

@[simp]
lemma run_done (a : α) : (done a : Dialogue π α).run call = pure a := rfl

variable [LawfulMonad m]

@[simp]
lemma run_question (p : π) (r : Record) : (question p r).run call = call p r := by
  simp [question, run]

@[simp]
lemma run_bind (d : Dialogue π α) (k : α → Dialogue π β) :
    (d >>= k).run call = d.run call >>= fun a => (k a).run call := by
  induction d with
  | done a => simp
  | ask p r next ih => simp [run, ih]

end Dialogue

namespace Filter

variable {π : Type}

/-- The dialogue that the evaluation of a filter leads. -/
def dialogue (f : Filter π) (r : Record) : Dialogue π Outcome := f.evaluate Dialogue.question r

section

variable {m : Type → Type} [Monad m] [LawfulMonad m] (call : π → Record → m Outcome)

mutual

/-- A filter is evaluated by leading its dialogue. -/
theorem run_dialogue (f : Filter π) (r : Record) : (f.dialogue r).run call = f.evaluate call r := by
  cases f with
  | not f => simp [dialogue, evaluate, ← run_dialogue f r]
  | all fs => exact run_dialogueAll fs r
  | any fs => exact run_dialogueAny fs r
  | named name p => simp [dialogue, evaluate]
  | reference name f => exact run_dialogue f r
  | accept | deny | levels | levelRange | levelChange | «match» | substitute => rfl

theorem run_dialogueAll (fs : List (Filter π)) (r : Record) :
    (evaluateAll Dialogue.question fs r).run call = evaluateAll call fs r := by
  cases fs with
  | nil => rfl
  | cons f fs =>
    simp only [evaluateAll, Dialogue.run_bind, ← run_dialogue f r, dialogue]
    apply bind_congr
    rintro ⟨_ | _, r'⟩
    · rfl
    · exact run_dialogueAll fs r'

theorem run_dialogueAny (fs : List (Filter π)) (r : Record) :
    (evaluateAny Dialogue.question fs r).run call = evaluateAny call fs r := by
  cases fs with
  | nil => rfl
  | cons f fs =>
    simp only [evaluateAny, Dialogue.run_bind, ← run_dialogue f r, dialogue]
    apply bind_congr
    rintro ⟨_ | _, r'⟩
    · exact run_dialogueAny fs r'
    · rfl

end

end

/-- Filters are equivalent if they ask the same questions, whatever the answers, and end alike. -/
theorem equivalent_iff {f g : Filter π} : f.Equivalent g ↔ ∀ r, f.dialogue r = g.dialogue r := by
  constructor
  · intro h r
    exact h Dialogue.question r
  · intro h m _ _ call r
    rw [← run_dialogue, ← run_dialogue, h]

end Filter

/-! ### Answers -/

/-- A question that was asked of a predicate, and what came of it. -/
structure Exchange (π ε : Type) where
  predicate : π
  record : Record
  answer : Except ε Filter.Outcome

namespace Dialogue

variable {π ε α β : Type} {d : Dialogue π α} {k : α → Dialogue π β} {es es' : List (Exchange π ε)}
  {x : Except ε α} {y : Except ε β} {a : α}

/-- The dialogue asks exactly these questions, if they are answered in this way, and ends so. A
question that is not answered ends it. -/
inductive Unfolds : Dialogue π α → List (Exchange π ε) → Except ε α → Prop
  | done (a : α) : Unfolds (done a) [] (.ok a)
  | answered {p r next o es x} : Unfolds (next o) es x →
      Unfolds (ask p r next) (⟨p, r, .ok o⟩ :: es) x
  | broken {p r next e} : Unfolds (ask p r next) [⟨p, r, .error e⟩] (.error e)

lemma Unfolds.bind (h : d.Unfolds es (.ok a)) (hk : (k a).Unfolds es' y) :
    (d >>= k).Unfolds (es ++ es') y := by
  generalize hx : Except.ok a = x at h
  induction h with
  | done b =>
    cases hx
    exact hk
  | answered _ ih => exact .answered (ih hx)
  | broken => cases hx

lemma Unfolds.bind_broken {e : ε} (h : d.Unfolds es (.error e)) :
    (d >>= k).Unfolds es (.error e) := by
  generalize hx : Except.error e = x at h
  induction h with
  | done b => cases hx
  | answered _ ih => exact .answered (ih hx)
  | broken =>
    cases hx
    exact .broken

/-- What comes of a dialogue and of what follows it comes of the one and then of the other. -/
lemma Unfolds.of_bind {b : β} (h : (d >>= k).Unfolds es (.ok b)) :
    ∃ a es₁ es₂, es = es₁ ++ es₂ ∧ d.Unfolds es₁ (.ok a) ∧ (k a).Unfolds es₂ (.ok b) := by
  induction d generalizing es with
  | done a => exact ⟨a, [], es, rfl, .done a, h⟩
  | ask p r next ih =>
    cases h with
    | answered h =>
      obtain ⟨a, es₁, es₂, rfl, h₁, h₂⟩ := ih _ h
      exact ⟨a, _, es₂, rfl, .answered h₁, h₂⟩

/-- If the answers do not depend on when they are given, the outcome is found without the
questions. -/
theorem Unfolds.run_eq {call : π → Record → Except ε Filter.Outcome} (h : d.Unfolds es x)
    (hes : ∀ e ∈ es, call e.predicate e.record = e.answer) : d.run call = x := by
  induction h with
  | done a => rfl
  | @answered p r next o es x _ ih =>
    obtain ⟨ho, hes⟩ := List.forall_mem_cons.1 hes
    rw [run, ho]
    exact ih hes
  | broken => rw [run, List.forall_mem_singleton.1 hes]; rfl

end Dialogue

namespace Filter

variable {π ε : Type} {fs gs : List (Filter π)} {r r' : Record} {es : List (Exchange π ε)}

@[simp]
lemma dialogue_all_nil : (all ([] : List (Filter π))).dialogue r = .done (true, r) := rfl

lemma dialogue_all_cons (f : Filter π) :
    (all (f :: fs)).dialogue r = (do
      let (verdict, r) ← f.dialogue r
      if verdict then (all fs).dialogue r else .done (false, r)) := rfl

lemma dialogue_all_append :
    (all (fs ++ gs)).dialogue r = (do
      let (verdict, r) ← (all fs).dialogue r
      if verdict then (all gs).dialogue r else .done (false, r)) := by
  simp only [dialogue, evaluate, evaluateAll_append, Dialogue.pure_eq_done]

/-- A rejection is that of the first filter that rejects, after those before it accepted. Those
behind it are asked nothing. -/
lemma rejected_at (h : ((all fs).dialogue r).Unfolds es (.ok (false, r'))) :
    ∃ lower f upper r₁ es₁ es₂, fs = lower ++ f :: upper ∧ es = es₁ ++ es₂ ∧
      ((all lower).dialogue r).Unfolds es₁ (.ok (true, r₁)) ∧
      (f.dialogue r₁).Unfolds es₂ (.ok (false, r')) := by
  induction fs generalizing r es with
  | nil => cases h
  | cons f fs ih =>
    rw [dialogue_all_cons] at h
    obtain ⟨⟨verdict, r₁⟩, es₁, es₂, rfl, h₁, h₂⟩ := h.of_bind
    cases verdict with
    | false =>
      cases h₂
      exact ⟨[], f, fs, r, [], es₁, rfl, by simp, .done _, h₁⟩
    | true =>
      obtain ⟨lower, g, upper, r₂, es₂, es₃, rfl, rfl, h₂, h₃⟩ := ih h₂
      refine ⟨f :: lower, g, upper, r₂, es₁ ++ es₂, es₃, rfl, by simp, ?_, h₃⟩
      rw [dialogue_all_cons]
      exact h₁.bind h₂

end Filter

end Logging
