import Mathlib.Tactic.Common
import Logging.Proofs.Filter.Dialogue

/-!
# What filters can touch

A filter without predicates asks nobody, so all there is to its evaluation is a function from
records to outcomes (`Filter.Framed`). This function sees no more of a record than its severity and
its message, and writes no more than the level, which becomes that of a `levelChange`, and the
message, which only a `substitute` changes.

Both are shown at once, for two records that a filter cannot tell apart (`judged`): parts that were
rejected or negated leave their changes behind, and so decide what later parts see.
-/

namespace Logging

/-- Two records that filters cannot tell apart. -/
structure Record.Alike (r r' : Record) : Prop where
  severity : r.severity = r'.severity
  message : r.message = r'.message

lemma Record.Alike.refl (r : Record) : r.Alike r := ⟨rfl, rfl⟩

namespace Filter

variable {π : Type}

/-! ### Parts -/

mutual

/-- The filters that occur in a filter, itself first. -/
def subfilters : Filter π → List (Filter π)
  | not f => not f :: f.subfilters
  | all fs => all fs :: subfiltersList fs
  | any fs => any fs :: subfiltersList fs
  | reference name f => reference name f :: f.subfilters
  | f => [f]

def subfiltersList : List (Filter π) → List (Filter π)
  | [] => []
  | f :: fs => f.subfilters ++ subfiltersList fs

end

/-! ### Changes to a record -/

/-- The second record comes from the first by changes that are made by some of the filters. -/
structure Rewrites (fs : List (Filter π)) (r r' : Record) : Prop where
  loggerName : r'.loggerName = r.loggerName
  origin : r'.origin = r.origin
  level : r'.level = r.level ∨ levelChange r'.level ∈ fs
  message : r'.message = r.message ∨ ∃ p replacement everywhere,
    substitute p replacement everywhere ∈ fs

namespace Rewrites

variable {fs gs : List (Filter π)} {r r' r'' : Record}

lemma refl (fs : List (Filter π)) (r : Record) : Rewrites fs r r :=
  ⟨rfl, rfl, .inl rfl, .inl rfl⟩

lemma mono (h : Rewrites fs r r') (hfs : fs ⊆ gs) : Rewrites gs r r' where
  loggerName := h.loggerName
  origin := h.origin
  level := h.level.imp_right fun hl => hfs hl
  message := h.message.imp_right fun ⟨p, t, e, hs⟩ => ⟨p, t, e, hfs hs⟩

lemma trans (h : Rewrites fs r r') (h' : Rewrites fs r' r'') : Rewrites fs r r'' where
  loggerName := h'.loggerName.trans h.loggerName
  origin := h'.origin.trans h.origin
  level := by
    rcases h'.level with hl | hl
    · rw [hl]
      exact h.level
    · exact .inr hl
  message := by
    rcases h'.message with hm | hm
    · rw [hm]
      exact h.message
    · exact .inr hm

/-- Where nothing changes records, they stay. -/
lemma eq_of_forall (h : Rewrites fs r r') (hl : ∀ l, levelChange l ∉ fs)
    (hs : ∀ p replacement everywhere, substitute p replacement everywhere ∉ fs) : r' = r := by
  have hlevel := h.level.resolve_right (hl _)
  have hmessage := h.message.resolve_right fun ⟨p, t, e, hm⟩ => hs p t e hm
  obtain ⟨level, message, loggerName, origin⟩ := r
  obtain ⟨level', message', loggerName', origin'⟩ := r'
  simp only [Record.mk.injEq]
  exact ⟨hlevel, hmessage, h.loggerName, h.origin⟩

end Rewrites

/-! ### Evaluation -/

/-- On two records that are alike the dialogues ask nothing and give the same verdict. The records
that they leave are alike again, and rewritten by the filters only. -/
def Judged (fs : List (Filter π)) (d d' : Dialogue π Outcome) (r r' : Record) : Prop :=
  ∃ verdict s s', d = .done (verdict, s) ∧ d' = .done (verdict, s') ∧ s.Alike s' ∧
    Rewrites fs r s ∧ Rewrites fs r' s'

variable {r r' : Record}

/-- A test changes nothing. -/
lemma judged_test (fs : List (Filter π)) (h : r.Alike r') {b b' : Bool} (hb : b = b') :
    Judged fs (.done (b, r)) (.done (b', r')) r r' :=
  ⟨b, r, r', rfl, by rw [hb], h, .refl fs r, .refl fs r'⟩

lemma Judged.mono {fs gs : List (Filter π)} {d d' : Dialogue π Outcome} (h : Judged fs d d' r r')
    (hfs : fs ⊆ gs) : Judged gs d d' r r' := by
  obtain ⟨v, s, s', hd, hd', hs, hr, hr'⟩ := h
  exact ⟨v, s, s', hd, hd', hs, hr.mono hfs, hr'.mono hfs⟩

/-- What is done after a verdict sees records that are alike. -/
lemma Judged.bind {fs : List (Filter π)} {d d' : Dialogue π Outcome}
    {k : Outcome → Dialogue π Outcome} (h : Judged fs d d' r r')
    (hk : ∀ verdict s s', s.Alike s' → Judged fs (k (verdict, s)) (k (verdict, s')) s s') :
    Judged fs (d >>= k) (d' >>= k) r r' := by
  obtain ⟨v, s, s', rfl, rfl, hs, hr, hr'⟩ := h
  obtain ⟨w, t, t', hd, hd', ht, hs, hs'⟩ := hk v s s' hs
  exact ⟨w, t, t', hd, hd', ht, hr.trans hs, hr'.trans hs'⟩

lemma subset_subfiltersList_left (f : Filter π) (fs : List (Filter π)) :
    f.subfilters ⊆ subfiltersList (f :: fs) := List.subset_append_left _ _

lemma subset_subfiltersList_right (f : Filter π) (fs : List (Filter π)) :
    subfiltersList fs ⊆ subfiltersList (f :: fs) := List.subset_append_right _ _

mutual

/-- A filter without predicates judges records that are alike in the same way. -/
theorem judged (f : Filter π) (hf : f.predicates = []) {r r' : Record} (h : r.Alike r') :
    Judged f.subfilters (f.dialogue r) (f.dialogue r') r r' := by
  cases f with
  | accept | deny => exact judged_test _ h rfl
  | not f =>
    have hsub : f.subfilters ⊆ (not f).subfilters := List.subset_cons_self _ _
    exact ((judged f hf h).mono hsub).bind fun _ _ _ hs => judged_test _ hs rfl
  | all fs => exact (judgedAll fs hf h).mono (List.subset_cons_self _ _)
  | any fs => exact (judgedAny fs hf h).mono (List.subset_cons_self _ _)
  | levels ls => exact judged_test _ h (by rw [h.severity])
  | levelRange min minIn max maxIn => exact judged_test _ h (by rw [h.severity])
  | levelChange l =>
    have hr (r : Record) : Rewrites [(levelChange l : Filter π)] r { r with level := l } :=
      ⟨rfl, rfl, .inr List.mem_cons_self, .inl rfl⟩
    exact ⟨true, _, _, rfl, rfl, ⟨rfl, h.message⟩, hr r, hr r'⟩
  | «match» p => exact judged_test _ h (by rw [h.message])
  | substitute p t e =>
    have hr (r : Record) :
        Rewrites [(substitute p t e : Filter π)] r { r with message := p.replace e t r.message } :=
      ⟨rfl, rfl, .inl rfl, .inr ⟨p, t, e, List.mem_cons_self⟩⟩
    exact ⟨true, _, _, rfl, rfl, ⟨h.severity, by rw [h.message]⟩, hr r, hr r'⟩
  | named name p => cases hf
  | reference name f => exact (judged f hf h).mono (List.subset_cons_self _ _)

theorem judgedAll (fs : List (Filter π)) (hfs : predicatesList fs = []) {r r' : Record}
    (h : r.Alike r') :
    Judged (subfiltersList fs) (evaluateAll Dialogue.question fs r)
      (evaluateAll Dialogue.question fs r') r r' := by
  cases fs with
  | nil => exact judged_test _ h rfl
  | cons f fs =>
    obtain ⟨hf, hfs⟩ := List.append_eq_nil_iff.1 hfs
    refine ((judged f hf h).mono (subset_subfiltersList_left f fs)).bind fun v s s' hs => ?_
    cases v with
    | false => exact judged_test _ hs rfl
    | true => exact (judgedAll fs hfs hs).mono (subset_subfiltersList_right f fs)

theorem judgedAny (fs : List (Filter π)) (hfs : predicatesList fs = []) {r r' : Record}
    (h : r.Alike r') :
    Judged (subfiltersList fs) (evaluateAny Dialogue.question fs r)
      (evaluateAny Dialogue.question fs r') r r' := by
  cases fs with
  | nil => exact judged_test _ h rfl
  | cons f fs =>
    obtain ⟨hf, hfs⟩ := List.append_eq_nil_iff.1 hfs
    refine ((judged f hf h).mono (subset_subfiltersList_left f fs)).bind fun v s s' hs => ?_
    cases v with
    | false => exact (judgedAny fs hfs hs).mono (subset_subfiltersList_right f fs)
    | true => exact judged_test _ hs rfl

end

/-! ### The frame -/

/-- A function is all there is to the evaluation of a filter, and is confined in what it reads and
in what it writes. -/
structure Framed (f : Filter π) (judge : Record → Outcome) : Prop where
  evaluate_eq : ∀ {m : Type → Type} [Monad m] [LawfulMonad m] (call : π → Record → m Outcome)
    (r : Record), f.evaluate call r = pure (judge r)
  loggerName : ∀ r, (judge r).2.loggerName = r.loggerName
  timestamp : ∀ r, (judge r).2.origin.timestamp = r.origin.timestamp
  threadId : ∀ r, (judge r).2.origin.threadId = r.origin.threadId
  threadName : ∀ r, (judge r).2.origin.threadName? = r.origin.threadName?
  level : ∀ r, (judge r).2.level = r.level ∨ levelChange (judge r).2.level ∈ f.subfilters
  message : ∀ r, (judge r).2.message ≠ r.message → ∃ p replacement everywhere,
    substitute p replacement everywhere ∈ f.subfilters
  unchanged : (∀ l, levelChange l ∉ f.subfilters) →
    (∀ p replacement everywhere, substitute p replacement everywhere ∉ f.subfilters) →
    ∀ r, (judge r).2 = r
  /-- Of a record no more is read than severity and message. -/
  reads : ∀ r r', r.severity = r'.severity → r.message = r'.message →
    (judge r).1 = (judge r').1 ∧ (judge r).2.message = (judge r').2.message

/-- A filter in which no predicate occurs reads severities and messages only, and writes only levels
that occur in it and, if a substitution does, messages. -/
theorem exists_framed (f : Filter π) (hf : f.predicates = []) : ∃ judge, f.Framed judge := by
  have hjudge (r : Record) : ∃ o, f.dialogue r = .done o ∧ Rewrites f.subfilters r o.2 := by
    obtain ⟨v, s, _, hd, -, -, hs, -⟩ := judged f hf (.refl r)
    exact ⟨(v, s), hd, hs⟩
  choose judge hdone hr using hjudge
  refine ⟨judge, {
    evaluate_eq := fun call r => by rw [← run_dialogue, hdone, Dialogue.run_done]
    loggerName := fun r => (hr r).loggerName
    timestamp := fun r => by rw [(hr r).origin]
    threadId := fun r => by rw [(hr r).origin]
    threadName := fun r => by rw [(hr r).origin]
    level := fun r => (hr r).level
    message := fun r hm => (hr r).message.resolve_left hm
    unchanged := fun hl hs r => (hr r).eq_of_forall hl hs
    reads := fun r r' hs hm => ?_ }⟩
  obtain ⟨v, s, s', hd, hd', ha, -, -⟩ := judged f hf ⟨hs, hm⟩
  rw [hdone, Dialogue.done.injEq] at hd hd'
  rw [hd, hd']
  exact ⟨rfl, ha.message⟩

/-- The level that a rejected part gave to a record stays, and is what a later part sees. -/
theorem exists_framed_rejected :
    let f : Filter Empty := all [any [not (levelChange .warn), accept], levels [.warn]]
    let r : Record := { level := .info, message := "x" }
    f.predicates = [] ∧ ∃ judge, f.Framed judge ∧ judge r = (true, { r with level := .warn }) := by
  intro f r
  obtain ⟨judge, h⟩ := exists_framed f rfl
  have hr : (true, { r with level := .warn }) = judge r :=
    h.evaluate_eq (m := Id) (fun _ r => (true, r)) r
  exact ⟨rfl, judge, h, hr.symm⟩

end Filter

end Logging
