import Mathlib.Tactic.Common
import Logging.Pattern.Compiled
import Logging.Proofs.Expression.Inlining
import Logging.Proofs.Session.Closure
import Logging.Proofs.Session.FilterTexts
import Logging.Proofs.Session.Quiet

/-!
# Filters that were registered

A filter that is registered under a name is what the name stands for in all texts that are read from
then on, unless the name is a keyword: then it makes no difference. So a text may be given a name
and be left out in all places where this name is used.
-/

namespace Logging.Session

open Expression

variable {s : Session} {spec : FilterSpec} {f : NodeFilter} {name : String}

/-- The session with one more filter that goes by a name. -/
def withFilter (s : Session) (name : String) (f : NodeFilter) : Session :=
  { s with scope? := s.scope?.map fun ns => { ns with filters := ns.filters.insert name f } }

lemma resolver_withFilter (hs : s.scope?.isSome) (name : String) (f : NodeFilter) :
    (s.withFilter name f).resolver = s.resolver.define name f := by
  obtain ⟨ns, hns⟩ := Option.isSome_iff_exists.1 hs
  have hlookup : ∀ k, (ns.filters.insert name f).get? k =
      if name = k then some f else ns.filters.get? k := fun k => Dict.get?_insert ..
  simp only [resolver, withFilter, levelAlive, hns, Option.map_some, Option.bind_some, hlookup,
    Resolver.define]

lemma resolver_settle (s : Session) : s.settle.resolver = s.resolver := by
  have h := (ends_settle s).keeps
  rw [resolver, resolver, levelAlive, levelAlive, h.scope, h.client]

lemma run_buildFilter [Pattern.Engine] (hb : s.buildFilter spec = .ok f) :
    (Run.buildFilter spec).run s = (.ok f, s) := by
  have hget : (get : Run Session).run s = (.ok s, s) := rfl
  rw [Run.buildFilter, Run.run_bind, hget]
  simp only [hb]
  rfl

lemma run_registerFilter [Pattern.Engine] (calls : Calls) (name : String)
    (hb : s.buildFilter spec = .ok f) :
    ((Step.registerFilter name spec).take calls).run s =
      (.ok .nothing, (s.withFilter name f).settle) := by
  rw [Step.take, Run.run_bind, run_buildFilter hb]
  rfl

/-- To register a filter has an answer, and then the name stands for the filter. -/
lemma step_registerFilter [Pattern.Engine] (hs : s.scope?.isSome) (hb : s.buildFilter spec = .ok f)
    (calls : Calls) (name : String) :
    ∃ s', s.step calls (.registerFilter name spec) = (⟨.ok .nothing, []⟩, s') ∧
      s'.resolver = s.resolver.define name f := by
  let s₀ : Session := { s with journal := [] }
  have hsame : s.SameNames s₀ := ⟨rfl, rfl, rfl, rfl, rfl⟩
  rw [hsame.buildFilter] at hb
  have hjournal := (silent_settle (s₀.withFilter name f)).journal
  refine ⟨{ (s₀.withFilter name f).settle with journal := [] }, ?_, ?_⟩
  · rw [step, run_registerFilter calls name hb]
    simp only [hjournal]
    rfl
  · exact (resolver_settle _).trans (resolver_withFilter (s := s₀) hs name f)

/-- A filter that was registered under a name is read from this name, whatever kind of filter it is.
A keyword is read as before, as are all other texts. -/
theorem parseFilter_registered [Pattern.Engine] (calls : Calls) (s : Session) (hs : s.scope?.isSome)
    (hb : s.buildFilter spec = .ok f) (hi : IsIdentifier name) :
    ∃ s', s.step calls (.registerFilter name spec) = (⟨.ok .nothing, []⟩, s') ∧
      (name ∉ keywords → ∃ g, s'.parseFilter name = .ok g ∧ g.Equivalent f) ∧
      (name ∈ keywords → ∀ text, s'.parseFilter text = s.parseFilter text) := by
  obtain ⟨s', hstep, hr⟩ := step_registerFilter hs hb calls name
  refine ⟨s', hstep, fun hn => ?_, fun hn text => ?_⟩
  · refine ⟨f.registeredAs name, ?_, Filter.equivalent_registeredAs name f⟩
    rw [parseFilter_eq_ok_iff, hr]
    exact parse_define s.resolver f hi hn
  · rw [parseFilter, parseFilter, hr, parse_define_of_mem s.resolver f hn]

open scoped Pattern.Searching in
/-- The name has several parts, and the filter changes records. -/
theorem parseFilter_registered_dotted :
    ∃ s', (new true .info [] []).step (Calls.within 0)
        (.registerFilter "$é.b" (.levelChange .warn)) = (⟨.ok .nothing, []⟩, s') ∧
      ∃ g, s'.parseFilter "$é.b" = .ok g ∧ g.Equivalent (.levelChange .warn) := by
  let s := new true .info [] []
  have hb : s.buildFilter (.levelChange .warn) = .ok (.levelChange .warn) := rfl
  have hi : IsIdentifier "$é.b" := by decide +kernel
  obtain ⟨s', hstep, hg, -⟩ := parseFilter_registered (Calls.within 0) s rfl hb hi
  exact ⟨s', hstep, hg (by decide)⟩

open scoped Pattern.Searching in
/-- Whatever is registered under a keyword, the keyword is read as before. -/
theorem not_parseFilter_registered_accept :
    IsIdentifier "accept" ∧ ∃ s', (new true .info [] []).step (Calls.within 0)
        (.registerFilter "accept" .deny) = (⟨.ok .nothing, []⟩, s') ∧
      ¬ ∃ g, s'.parseFilter "accept" = .ok g ∧ g.Equivalent .deny := by
  let s := new true .info [] []
  have hb : s.buildFilter .deny = .ok .deny := rfl
  have haccept : parse s.resolver "accept" = .ok .accept := by
    have htokens : tokenize "accept" = .ok [⟨.ident "accept", 0⟩] := by decide +kernel
    exact parse_eq_ok_iff.2 ⟨_, htokens, .accept, ⟨.accept, by decide⟩, rfl⟩
  obtain ⟨s', hstep, hr⟩ := step_registerFilter (s := s) rfl hb (Calls.within 0) "accept"
  refine ⟨by decide +kernel, s', hstep, ?_⟩
  rintro ⟨g, hg, hequiv⟩
  rw [parseFilter_eq_ok_iff, hr, parse_define_of_mem _ _ (by decide), haccept] at hg
  cases hg
  have hverdict := hequiv (m := Id) (fun _ r => (true, r)) { level := .info, message := "" }
  cases congrArg Prod.fst hverdict

/-- To register a text under a name and to put the text in place of the name comes to the same: if
the second can be read before, the first can be read afterwards, and is the same filter. -/
theorem parseFilter_inlined [Pattern.Engine] (calls : Calls) (s : Session) (hs : s.scope?.isSome)
    {n : String} (hn : n ∉ keywords) {inner outer text : String} {f₁ g : NodeFilter}
    (h₁ : s.parseFilter inner = .ok f₁) (hi : Inlines n inner outer text)
    (hg : s.parseFilter text = .ok g) :
    ∃ s' f, s.step calls (.registerFilter n (.expression inner)) = (⟨.ok .nothing, []⟩, s') ∧
      s'.parseFilter outer = .ok f ∧ f.Equivalent g := by
  have hb : s.buildFilter (.expression inner) = .ok f₁ := by
    rw [buildFilter, h₁]
    rfl
  obtain ⟨s', hstep, hr⟩ := step_registerFilter hs hb calls n
  rw [parseFilter_eq_ok_iff] at h₁ hg
  obtain ⟨f, hf, hfg⟩ := exists_parse_of_inlines hn h₁ hi hg
  exact ⟨s', f, hstep, parseFilter_eq_ok_iff.2 (hr ▸ hf), hfg⟩

open scoped Pattern.Searching in
/-- The name is also that of a level, and of another filter, which the text is about. -/
theorem parseFilter_inlined_level :
    ∃ s' f g, (new true .info [] [("INFO", .deny)]).step (Calls.within 0)
        (.registerFilter "INFO" (.expression "not(INFO)")) = (⟨.ok .nothing, []⟩, s') ∧
      s'.parseFilter "any(INFO,levels(INFO))" = .ok f ∧
      (new true .info [] [("INFO", .deny)]).parseFilter "any(not(INFO),levels(INFO))" = .ok g ∧
      f.Equivalent g := by
  let s := new true .info [] [("INFO", .deny)]
  have hn : "INFO" ∉ keywords := by decide
  have h₁ : s.parseFilter "not(INFO)" = .ok (.not (.reference "INFO" .deny)) := by
    have htokens : tokenize "not(INFO)" = .ok [⟨.ident "not", 0⟩, ⟨.leftParen, 3⟩,
      ⟨.ident "INFO", 4⟩, ⟨.rightParen, 8⟩] := by decide +kernel
    have hderives : Derives (.not (.ident "INFO")) _ := .not (.ident hn)
    exact parseFilter_eq_ok_iff.2 (parse_eq_ok_iff.2 ⟨_, htokens, _, ⟨hderives, by decide⟩, rfl⟩)
  have hg : s.parseFilter "any(not(INFO),levels(INFO))" =
      .ok (.any [.not (.reference "INFO" .deny), .levels [.info]]) := by
    have htokens : tokenize "any(not(INFO),levels(INFO))" = .ok [⟨.ident "any", 0⟩,
      ⟨.leftParen, 3⟩, ⟨.ident "not", 4⟩, ⟨.leftParen, 7⟩, ⟨.ident "INFO", 8⟩, ⟨.rightParen, 12⟩,
      ⟨.comma, 13⟩, ⟨.ident "levels", 14⟩, ⟨.leftParen, 20⟩, ⟨.ident "INFO", 21⟩,
      ⟨.rightParen, 25⟩, ⟨.rightParen, 26⟩] := by decide +kernel
    have hderives : Derives (.any [.not (.ident "INFO"), .levels ["INFO"]]) _ :=
      .any (.more (.not (.ident hn)) (.one (.levels (.one rfl))))
    exact parseFilter_eq_ok_iff.2 (parse_eq_ok_iff.2 ⟨_, htokens, _, ⟨hderives, by decide⟩, rfl⟩)
  have hi : Inlines "INFO" "not(INFO)" "any(INFO,levels(INFO))" "any(not(INFO),levels(INFO))" := by
    have word {n : String} (h : IsIdentifier n) : Lexeme n.toList (.ident n) := .ident h
    have any := word (n := "any") (by decide +kernel)
    have info := word (n := "INFO") (by decide +kernel)
    have levels := word (n := "levels") (by decide +kernel)
    have opening : Lexeme ['('] .leftParen := .punctuation (by simp [punctuation])
    have comma : Lexeme [','] .comma := .punctuation (by simp [punctuation])
    have closing : Lexeme [')'] .rightParen := .punctuation (by simp [punctuation])
    let pieces : List Piece := [.ofLexeme any, .ofLexeme opening, .ofLexeme info, .ofLexeme comma,
      .ofLexeme levels, .ofLexeme opening, .ofLexeme info, .ofLexeme closing, .ofLexeme closing]
    have hapart : Apart pieces := by simp [Apart, pieces, Piece.ofLexeme]
    exact ⟨⟨pieces, [], by simp, maximal_of_apart (by simp) hapart⟩, rfl, rfl⟩
  obtain ⟨s', f, hstep, hf, hfg⟩ := parseFilter_inlined (Calls.within 0) s rfl hn h₁ hi hg
  exact ⟨s', f, _, hstep, hf, hg, hfg⟩

end Logging.Session
