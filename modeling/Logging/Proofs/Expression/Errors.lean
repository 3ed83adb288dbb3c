import Mathlib.Tactic.Common
import Logging.Pattern.Compiled
import Logging.Proofs.Expression.Layout
import Logging.Proofs.Expression.Stuck

/-!
# Errors point at the first token that cannot go on

An error of the reader is at a token, or at the end of the text. The tokens before it begin an
expression, and no expression begins with these and the token at the error (`parse_error_located`).
To the grammar, an expression may be nested as deeply as it likes, and any string is a pattern. If
it is one of these that is reported, there may be an expression that begins so, but all of them are
nested too deeply, or have a pattern that is none.
-/

namespace Logging.Expression

open Logging.Filter (Shaped)
open Phrases

variable {π : Type} {names : Resolver π} {stop d : Nat} {r : Rule} {e e₀ : Expr} {us : List Token}
  {text : String} {error : Error}

/-! ### Places in a text -/

/-- A flaw shows between two characters. -/
lemma Flaw.exists_append {cs : List Char} {offset : Nat} {cause : Cause}
    (h : Flaw cs offset cause) : ∃ before after, cs = before ++ after ∧ offset = width before := by
  cases h with
  | unexpectedChar | unterminatedString | unterminatedEscape => exact ⟨[], _, rfl, rfl⟩
  | invalidEscape => exact ⟨_, _, rfl, rfl⟩

lemma boundary_of_tokenize (h : tokenize text = .error error) :
    ∃ before after, text = before ++ after ∧ error.position = before.utf8ByteSize := by
  obtain ⟨l, rest, offset, rfl, -, -, hflaw, hposition⟩ := ((tokenize_exact text).error_iff _).1 h
  obtain ⟨before, after, hrest, rfl⟩ := hflaw.exists_append
  refine ⟨String.ofList l.text ++ String.ofList before, String.ofList after, ?_, ?_⟩
  · rw [String.append_assoc, ← String.ofList_append, ← hrest, String.ofList_toList]
  · rw [hposition, String.utf8ByteSize_append, ← width_toList (String.ofList before),
      String.toList_ofList]

lemma position_lt_utf8ByteSize {ts : List Placed} {u : Placed} (h : tokenize text = .ok ts)
    (hu : u ∈ ts) : u.position < text.utf8ByteSize := by
  obtain ⟨before, source, after, rfl, hlexeme, hposition⟩ := (tokenize_exact text).offset ts h u hu
  have hpos := hlexeme.width_pos
  rw [width_toList] at hpos
  rw [hposition, String.utf8ByteSize_append, String.utf8ByteSize_append]
  omega

/-- The place where a reader of tokens fails, in terms of the text. -/
lemma boundary_of_position {us vs : List Placed} (h : tokenize text = .ok (us ++ vs))
    (hposition : error.position = (vs.head?.map Placed.position).getD text.utf8ByteSize) :
    (∃ before after, text = before ++ after ∧ error.position = before.utf8ByteSize) ∧
      ∀ u ∈ us, u.position < error.position := by
  cases vs with
  | nil =>
    refine ⟨⟨text, "", (String.append_empty).symm, hposition⟩, fun u hu => ?_⟩
    rw [hposition]
    exact position_lt_utf8ByteSize h (List.mem_append_left _ hu)
  | cons v vs =>
    constructor
    · obtain ⟨before, source, after, htext, -, hv⟩ :=
        (tokenize_exact text).offset _ h v (List.mem_append_right _ List.mem_cons_self)
      exact ⟨before, source ++ after, by rw [htext, String.append_assoc], hposition.trans hv⟩
    · intro u hu
      have hlt := List.pairwise_append.1 ((tokenize_exact text).increasing _ h)
      rw [hposition]
      exact hlt.2.2 u hu v List.mem_cons_self

/-! ### Names of levels -/

/-- A name of a level, as an item of a list. -/
def Phrases.LevelItem (names : Resolver π) (_ : Rule) (n : String) (ts : List Token) : Prop :=
  IsName n ts ∧ (names.level? n).isSome

lemma Phrases.items_levelItem : items (LevelItem names) = levels names := by
  ext r ts
  constructor
  · rintro ⟨n, rfl, hn⟩
    exact ⟨_, rfl, n, rfl, hn⟩
  · rintro ⟨_, rfl, n, rfl, hn⟩
    exact ⟨n, rfl, hn⟩

/-- An identifier that stands for a level. -/
lemma writable_levels (hl : ∃ n, IsIdentifier n ∧ (names.level? n).isSome) :
    Writable (levels names) := by
  obtain ⟨n, hn, hsome⟩ := hl
  refine ⟨[.ident n], ⟨_, rfl, n, rfl, hsome⟩, fun m hm => ?_⟩
  cases List.mem_singleton.1 hm
  exact hn

/-! ### Trees that keep to a rule -/

lemma Expr.forall_mem_patternsList_iff {P : String → Prop} {es : List Expr} :
    (∀ p ∈ patternsList es, P p) ↔ ∀ e ∈ es, ∀ p ∈ e.patterns, P p := by
  induction es with
  | nil => simp [patternsList]
  | cons e es ih => rw [patternsList, List.forall_mem_append, ih, List.forall_mem_cons]

section

variable [Pattern.Engine]

namespace Expr

/-- The tree keeps to the rule, with `d` as the bound on its nesting. -/
def Keeps (d : Nat) : Rule → Expr → Prop
  | .grammar, _ => True
  | .nesting, e => e.depth ≤ d
  | .patterns, e => ∀ p ∈ e.patterns, (Pattern.Engine.compile? p).isSome

lemma keeps_not_iff : Keeps (d + 1) r (.not e) ↔ e.Keeps d r := by
  cases r with
  | grammar | patterns => exact Iff.rfl
  | nesting => exact Nat.succ_le_succ_iff

/-- Expressions with no others in them keep to any bound. -/
lemma keeps_leaf_iff (hd : e.depth = 1) : e.Keeps (d + 1) r ↔
    (r = .patterns → ∀ p ∈ e.patterns, (Pattern.Engine.compile? p).isSome) := by
  cases r with
  | grammar => simp [Keeps]
  | nesting => simp [Keeps, hd]
  | patterns => exact ⟨fun h _ => h, fun h => h rfl⟩

lemma keeps_leaf (hd : e.depth = 1) (hp : e.patterns = []) (r : Rule) : e.Keeps (d + 1) r :=
  (keeps_leaf_iff hd).2 fun _ p h => by simp [hp] at h

lemma keeps_pattern_iff {p : String} (hd : e.depth = 1) (hp : e.patterns = [p]) :
    e.Keeps (d + 1) r ↔ (r = .patterns → (Pattern.Engine.compile? p).isSome) := by
  simp [keeps_leaf_iff hd, hp]

/-- Conjunctions and disjunctions keep to a rule if their parts do. -/
lemma keeps_parts_iff {es : List Expr} (hd : e.depth = depthList es + 1)
    (hp : e.patterns = patternsList es) : e.Keeps (d + 1) r ↔ ∀ e' ∈ es, e'.Keeps d r := by
  cases r with
  | grammar => simp [Keeps]
  | nesting =>
    rw [Keeps, hd, Nat.succ_le_succ_iff, depthList_le_iff]
    rfl
  | patterns =>
    rw [Keeps, hp, forall_mem_patternsList_iff]
    rfl

variable (names) in
/-- The names in the tree stand for something. -/
def Named (e : Expr) : Prop := Known names e.levelNames e.filterNames []

/-- Names of levels may be all the names that there are. -/
lemma named_iff (hf : e.filterNames = []) :
    e.Named names ↔ ∀ n ∈ e.levelNames, (names.level? n).isSome := by
  simp [Named, known_iff, hf]

lemma named_of_nameless (hl : e.levelNames = []) (hf : e.filterNames = []) : e.Named names := by
  simp [named_iff hf, hl]

lemma known_list_iff {es : List Expr} :
    Known names (levelNamesList es) (filterNamesList es) [] ↔ ∀ e ∈ es, e.Named names := by
  induction es with
  | nil => simp [known_iff, levelNamesList, filterNamesList]
  | cons e es ih =>
    rw [levelNamesList, filterNamesList, List.forall_mem_cons, ← ih, Named, ← known_append_iff]
    rfl

end Expr

/-- A tree that derives the tokens, with names that stand for something, and keeps to the rule. -/
structure Tree (names : Resolver π) (d : Nat) (r : Rule) (e : Expr) (ts : List Token) : Prop where
  derives : Derives e ts
  named : e.Named names
  keeps : e.Keeps d r

lemma separated_tree_iff {es : List Expr} : Separated (Tree names d r) es us ↔
    Separated Derives es us ∧ (∀ e ∈ es, e.Named names) ∧ ∀ e ∈ es, e.Keeps d r := by
  have h : Separated (Tree names d r) es us ↔
      Separated (fun e us => Derives e us ∧ e.Named names ∧ e.Keeps d r) es us := by
    constructor
    · exact Separated.imp_mem fun e _ us he => ⟨he.derives, he.named, he.keeps⟩
    · exact Separated.imp_mem fun e _ us he => ⟨he.1, he.2.1, he.2.2⟩
  rw [h, Separated.and_iff]
  simp only [forall_and]

/-! ### The phrases that are expressions -/

/-- Expressions that are nested no deeper than `d` if they keep to the bound. -/
abbrev Phrases.expressions (names : Resolver π) (d : Nat) : Phrases := items (Tree names d)

namespace Phrases

lemma mem_expressions_iff :
    us ∈ expressions names d r ↔ ∃ e, Derives e us ∧ e.Named names ∧ e.Keeps d r := by
  constructor
  · rintro ⟨e, h⟩
    exact ⟨e, h.derives, h.named, h.keeps⟩
  · rintro ⟨e, h, hn, hk⟩
    exact ⟨e, h, hn, hk⟩

lemma code_expressions : Code (expressions names d) where
  le := by
    rintro r us ⟨e, h⟩
    exact ⟨e, h.derives, h.named, trivial⟩
  unique := by
    rintro us vs rest rest' ⟨e, h⟩ ⟨e', h'⟩ heq
    exact (prefixFree_derives h.derives h'.derives heq).2

lemma writable_expressions : Writable (expressions names d) := by
  refine ⟨[.ident "accept"], ⟨.accept, .accept, Expr.named_of_nameless rfl rfl, trivial⟩, fun n hn => ?_⟩
  cases List.mem_singleton.1 hn
  exact Filter.isIdentifier_of_mem_keywords (by simp [keywords])

lemma exists_ident_of_mem_expressions (h : us ∈ expressions names d r) :
    ∃ n ts, us = .ident n :: ts := by
  obtain ⟨e, h⟩ := h
  exact h.derives.head

lemma nil_not_mem_expressions (r : Rule) : [] ∉ expressions names d r := fun h => by
  obtain ⟨_, _, h⟩ := exists_ident_of_mem_expressions h
  cases h

/-! ### What follows an identifier -/

/-- Nothing follows an identifier that is an expression by itself. -/
lemma mem_leaf_iff {n : String} (h : ∀ e us, Derives e (.ident n :: us) ↔ e = e₀ ∧ us = [])
    (hn : e₀.Named names) (hd : e₀.depth = 1) (hp : e₀.patterns = []) :
    .ident n :: us ∈ expressions names (d + 1) r ↔ us ∈ (1 : Phrases) r := by
  simp only [mem_expressions_iff, h]
  constructor
  · rintro ⟨_, ⟨-, rfl⟩, -⟩
    rfl
  · rintro rfl
    exact ⟨e₀, ⟨rfl, rfl⟩, hn, Expr.keeps_leaf hd hp r⟩

lemma mem_ident_iff {n : String} (hn : n ∉ keywords) (hf : (names.filter? n).isSome) :
    .ident n :: us ∈ expressions names (d + 1) r ↔ us ∈ (1 : Phrases) r := by
  have hnamed : (Expr.ident n).Named names := by
    simpa [Expr.Named, Expr.known_iff, Expr.levelNames, Expr.filterNames] using hf
  exact mem_leaf_iff (fun _ _ => derives_ident_iff hn) hnamed rfl rfl

lemma mem_not_iff : .ident "not" :: us ∈ expressions names (d + 1) r ↔
    us ∈ parens (expressions names d) r := by
  simp only [mem_parens_iff, mem_expressions_iff, derives_not_iff]
  constructor
  · rintro ⟨_, ⟨e, ts, rfl, rfl, h⟩, hn, hk⟩
    exact ⟨ts, rfl, e, h, hn, Expr.keeps_not_iff.1 hk⟩
  · rintro ⟨ts, rfl, e, h, hn, hk⟩
    exact ⟨_, ⟨e, ts, rfl, rfl, h⟩, hn, Expr.keeps_not_iff.2 hk⟩

/-- Expressions follow the keywords of conjunctions and of disjunctions. -/
lemma mem_parts_iff {n : String} {tree : List Expr → Expr}
    (h : ∀ e us, Derives e (.ident n :: us) ↔
      ∃ es ts, e = tree es ∧ us = .leftParen :: ts ++ [.rightParen] ∧ Separated Derives es ts)
    (hn : ∀ es, (tree es).Named names ↔ ∀ e ∈ es, e.Named names)
    (hk : ∀ es, (tree es).Keeps (d + 1) r ↔ ∀ e ∈ es, e.Keeps d r) :
    .ident n :: us ∈ expressions names (d + 1) r ↔ us ∈ list (Tree names d) r := by
  simp only [mem_list_iff, mem_expressions_iff, h, separated_tree_iff, ← hn, ← hk]
  constructor
  · rintro ⟨_, ⟨es, ts, rfl, rfl, h⟩, hn, hk⟩
    exact ⟨es, ts, rfl, h, hn, hk⟩
  · rintro ⟨es, ts, rfl, h, hn, hk⟩
    exact ⟨_, ⟨es, ts, rfl, rfl, h⟩, hn, hk⟩

lemma mem_levels_iff : .ident "levels" :: us ∈ expressions names (d + 1) r ↔
    us ∈ list (LevelItem names) r := by
  have hs : ∀ ns ts, Separated (LevelItem names r) ns ts ↔
      Separated IsName ns ts ∧ ∀ n ∈ ns, (names.level? n).isSome := fun _ _ => Separated.and_iff
  simp only [mem_list_iff, mem_expressions_iff, derives_levels_iff, hs]
  constructor
  · rintro ⟨_, ⟨ns, ts, rfl, rfl, h⟩, hn, -⟩
    exact ⟨ns, ts, rfl, h, hn.levels⟩
  · rintro ⟨ns, ts, rfl, h, hn⟩
    exact ⟨_, ⟨ns, ts, rfl, rfl, h⟩, (Expr.named_iff rfl).2 hn, Expr.keeps_leaf rfl rfl r⟩

lemma mem_levelRange_iff : .ident "levelRange" :: us ∈ expressions names (d + 1) r ↔
    us ∈ (openings * (levels names * (token .comma * (levels names * closings)))) r := by
  simp only [mem_expressions_iff, derives_levelRange_iff, mem_single_mul_iff, mem_single_iff]
  constructor
  · rintro ⟨_, ⟨minIn, min, max, maxIn, rfl, rfl⟩, hn, -⟩
    have hmin := hn.levels min (by simp [Expr.levelNames])
    have hmax := hn.levels max (by simp [Expr.levelNames])
    exact ⟨_, _, rfl, ⟨minIn, rfl⟩, _, _, rfl, ⟨min, rfl, hmin⟩, _, _, rfl, rfl,
      _, _, rfl, ⟨max, rfl, hmax⟩, _, rfl, maxIn, rfl⟩
  · rintro ⟨_, _, rfl, ⟨minIn, rfl⟩, _, _, rfl, ⟨min, rfl, hmin⟩, _, _, rfl, rfl,
      _, _, rfl, ⟨max, rfl, hmax⟩, _, rfl, maxIn, rfl⟩
    refine ⟨_, ⟨minIn, min, max, maxIn, rfl, rfl⟩, (Expr.named_iff rfl).2 ?_,
      Expr.keeps_leaf rfl rfl r⟩
    simp [Expr.levelNames, hmin, hmax]

lemma mem_levelChange_iff : .ident "levelChange" :: us ∈ expressions names (d + 1) r ↔
    us ∈ parens (levels names) r := by
  simp only [mem_expressions_iff, derives_levelChange_iff, mem_parens_iff, mem_single_iff]
  constructor
  · rintro ⟨_, ⟨n, rfl, rfl⟩, hn, -⟩
    exact ⟨_, rfl, _, rfl, n, rfl, hn.levels n (by simp [Expr.levelNames])⟩
  · rintro ⟨_, rfl, _, rfl, n, rfl, hn⟩
    refine ⟨_, ⟨n, rfl, rfl⟩, (Expr.named_iff rfl).2 ?_, Expr.keeps_leaf rfl rfl r⟩
    simpa [Expr.levelNames] using hn

lemma mem_match_iff : .ident "match" :: us ∈ expressions names (d + 1) r ↔
    us ∈ (token .leftParen * (sources * token .rightParen)) r := by
  simp only [mem_expressions_iff, derives_match_iff, mem_single_mul_iff, mem_sources_mul_iff,
    mem_single_iff]
  constructor
  · rintro ⟨_, ⟨p, rfl, rfl⟩, -, hk⟩
    exact ⟨_, _, rfl, rfl, p, _, rfl, (Expr.keeps_pattern_iff rfl rfl).1 hk, _, rfl, rfl⟩
  · rintro ⟨_, _, rfl, rfl, p, _, rfl, hp, _, rfl, rfl⟩
    exact ⟨_, ⟨p, rfl, rfl⟩, Expr.named_of_nameless rfl rfl, (Expr.keeps_pattern_iff rfl rfl).2 hp⟩

/-- The strings of a substitution. -/
def substitution : Phrases :=
  token .leftParen * (sources * (token .comma * (strings * token .rightParen)))

lemma mem_substitution_iff : us ∈ substitution r ↔
    ∃ p s, us = [.leftParen, .string p, .comma, .string s, .rightParen] ∧
      (r = .patterns → (Pattern.Engine.compile? p).isSome) := by
  simp only [substitution, mem_single_mul_iff, mem_sources_mul_iff, mem_single_iff]
  constructor
  · rintro ⟨_, _, rfl, rfl, p, _, rfl, hp, _, _, rfl, rfl, _, _, rfl, ⟨s, rfl⟩, _, rfl, rfl⟩
    exact ⟨p, s, rfl, hp⟩
  · rintro ⟨p, s, rfl, hp⟩
    exact ⟨_, _, rfl, rfl, p, _, rfl, hp, _, _, rfl, rfl, _, _, rfl, ⟨s, rfl⟩, _, rfl, rfl⟩

/-- Strings follow the keywords of both substitutions. -/
lemma mem_substitute_iff {n : String} {everywhere : Bool}
    (h : ∀ e us, Derives e (.ident n :: us) ↔ ∃ p s, e = .substitute p s everywhere ∧
      us = [.leftParen, .string p, .comma, .string s, .rightParen]) :
    .ident n :: us ∈ expressions names (d + 1) r ↔ us ∈ substitution r := by
  simp only [mem_substitution_iff, mem_expressions_iff, h]
  constructor
  · rintro ⟨_, ⟨p, s, rfl, rfl⟩, -, hk⟩
    exact ⟨p, s, rfl, (Expr.keeps_pattern_iff rfl rfl).1 hk⟩
  · rintro ⟨p, s, rfl, hp⟩
    exact ⟨_, ⟨p, s, rfl, rfl⟩, Expr.named_of_nameless rfl rfl, (Expr.keeps_pattern_iff rfl rfl).2 hp⟩

end Phrases

/-! ### The reader -/

namespace Parse

variable {inner : Parse (Filter π)} {ts : List Placed}

lemma outcome_levelRange (hl : Writable (levels names)) (position : Nat) (ts : List Placed) :
    Outcome stop (openings * (levels names * (token .comma * (levels names * closings)))) ts
      ((term stop names inner "levelRange" position).run ts) := by
  have hend : Writable (levels names * closings) := hl.mul writable_closings
  have hcomma : Writable (token .comma * (levels names * closings)) :=
    (writable_token (by simp)).mul hend
  refine Outcome.bind code_single (hl.mul hcomma) (outcome_rangeStart ts) fun minIn _ ts _ => ?_
  refine Outcome.bind code_single hcomma (outcome_level hl ts) fun min _ ts _ => ?_
  refine Outcome.bind code_single hend (outcome_expect (by simp) ts) fun _ _ ts _ => ?_
  refine Outcome.bind code_single writable_closings (outcome_level hl ts) fun max _ ts _ => ?_
  exact (outcome_rangeEnd ts).map

lemma outcome_match (ts : List Placed) :
    Outcome stop (token .leftParen * (sources * token .rightParen)) ts
      ((do
        let (source, position) ← parens stop (string stop)
        return .match (← pattern source position) : Parse (Filter π)).run ts) := by
  rw [parens_bind]
  have hclose : Writable (token .rightParen) := writable_token (by simp)
  exact Outcome.bind code_single (writable_sources.mul hclose) (outcome_expect (by simp) ts)
    fun _ _ ts _ => outcome_source (fun _ => Filter.match) hclose (outcome_expect (by simp)) ts

lemma outcome_substitution (everywhere : Bool) (ts : List Placed) :
    Outcome stop Phrases.substitution ts
      ((substitution stop everywhere : Parse (Filter π)).run ts) := by
  have hclose : Writable (token .rightParen) := writable_token (by simp)
  have hcomma : Writable (token .comma * (strings * token .rightParen)) :=
    (writable_token (by simp)).mul (writable_strings.mul hclose)
  refine Outcome.bind code_single (writable_sources.mul hcomma) (outcome_expect (by simp) ts)
    fun _ _ ts _ => ?_
  have htail : ∀ ts, Outcome stop (token .comma * (strings * token .rightParen)) ts
      ((expect stop .comma >>= fun _ => string stop >>= fun b => expect stop .rightParen >>=
        fun _ => pure b.1).run ts) := fun ts => by
    refine Outcome.bind code_single (writable_strings.mul hclose) (outcome_expect (by simp) ts)
      fun _ _ ts _ => Outcome.bind code_single hclose (outcome_string ts) fun b _ ts _ => ?_
    exact (outcome_expect (by simp) ts).map (f := fun _ => b.1)
  have h := outcome_source (fun s p => (.substitute p s everywhere : Filter π)) hcomma htail ts
  simpa only [bind_assoc, pure_bind] using h

/-- What follows an identifier is read as the rest of an expression that begins with it. -/
lemma outcome_term (hl : Writable (levels names))
    (hi : ∀ ts, Outcome stop (expressions names d) ts (inner.run ts)) (n : String) (position : Nat)
    (ts : List Placed) : Outcome stop (expressions names (d + 1)) (⟨.ident n, position⟩ :: ts)
      ((term stop names inner n position).run ts) := by
  cases n using keyword_cases with
  | accept =>
    exact (Outcome.pure _).cons nil_not_mem_expressions fun _ _ =>
      mem_leaf_iff (fun _ _ => derives_accept_iff) (Expr.named_of_nameless rfl rfl) rfl rfl
  | deny =>
    exact (Outcome.pure _).cons nil_not_mem_expressions fun _ _ =>
      mem_leaf_iff (fun _ _ => derives_deny_iff) (Expr.named_of_nameless rfl rfl) rfl rfl
  | not =>
    have h := outcome_parens code_expressions writable_expressions hi ts
    exact (h.map (f := Filter.not)).cons nil_not_mem_expressions fun _ _ => mem_not_iff
  | all =>
    have h := outcome_list code_expressions writable_expressions hi ts
    exact (h.map (f := Filter.all)).cons nil_not_mem_expressions fun _ _ =>
      mem_parts_iff (fun _ _ => derives_all_iff) (fun _ => Expr.known_list_iff)
        fun _ => Expr.keeps_parts_iff rfl rfl
  | any =>
    have h := outcome_list code_expressions writable_expressions hi ts
    exact (h.map (f := Filter.any)).cons nil_not_mem_expressions fun _ _ =>
      mem_parts_iff (fun _ _ => derives_any_iff) (fun _ => Expr.known_list_iff)
        fun _ => Expr.keeps_parts_iff rfl rfl
  | levels =>
    have hitems : ∀ ts, Outcome stop (items (LevelItem names)) ts ((level stop names).run ts) :=
      fun ts => items_levelItem ▸ outcome_level hl ts
    have hc : Code (items (LevelItem names)) := items_levelItem ▸ code_single
    have h := outcome_list hc (items_levelItem ▸ hl) hitems ts
    exact (h.map (f := Filter.levels)).cons nil_not_mem_expressions fun _ _ => mem_levels_iff
  | levelRange =>
    exact (outcome_levelRange hl position ts).cons nil_not_mem_expressions
      fun _ _ => mem_levelRange_iff
  | levelChange =>
    have hlevel : ∀ ts, Outcome stop (levels names) ts ((level stop names).run ts) :=
      outcome_level hl
    have h := outcome_parens code_single hl hlevel ts
    exact (h.map (f := Filter.levelChange)).cons nil_not_mem_expressions
      fun _ _ => mem_levelChange_iff
  | «match» =>
    exact (outcome_match ts).cons nil_not_mem_expressions fun _ _ => mem_match_iff
  | substitute =>
    exact (outcome_substitution false ts).cons nil_not_mem_expressions fun _ _ =>
      mem_substitute_iff fun _ _ => derives_substitute_iff
  | substituteAll =>
    exact (outcome_substitution true ts).cons nil_not_mem_expressions fun _ _ =>
      mem_substitute_iff fun _ _ => derives_substituteAll_iff
  | ident n hn =>
    rw [term_ident inner hn]
    cases hf : names.filter? n with
    | some f =>
      exact (Outcome.pure _).cons nil_not_mem_expressions fun _ _ =>
        mem_ident_iff hn (by rw [hf]; rfl)
    | none =>
      refine Outcome.stuck writable_expressions (.unknownFilter n) ?_
      rintro ws ⟨e, h⟩
      obtain ⟨m, ws, rfl⟩ := h.derives.head
      refine ⟨_, ws, rfl, fun heq => ?_⟩
      cases heq
      obtain ⟨rfl, rfl⟩ := (derives_ident_iff hn).1 h.derives
      have hsome := h.named.filters n (by simp [Expr.filterNames])
      rw [hf] at hsome
      cases hsome

/-- An expression is taken, or the reader is stuck. -/
lemma outcome_expr (hl : Writable (levels names)) (d : Nat) (ts : List Placed) :
    Outcome stop (expressions names d) ts ((expr stop names d).run ts) := by
  induction d generalizing ts with
  | zero =>
    -- no expression is nested so little, so none that keeps to the bound begins here
    refine Outcome.stuck writable_expressions .tooDeep ?_
    rintro ws ⟨e, h⟩
    exact absurd h.keeps (Nat.not_le.2 (depth_pos e))
  | succ d ih =>
    cases ts with
    | nil =>
      refine Outcome.stuck writable_expressions (.missing .filter) fun ws hws => ?_
      obtain ⟨n, ws, rfl⟩ := exists_ident_of_mem_expressions hws
      exact ⟨_, ws, rfl, by simp⟩
    | cons t ts =>
      obtain ⟨t, position⟩ := t
      cases t with
      | ident n => exact outcome_term hl ih n position ts
      | _ =>
        refine Outcome.stuck writable_expressions (.unexpected .filter _) fun ws hws => ?_
        obtain ⟨n, ws, rfl⟩ := exists_ident_of_mem_expressions hws
        exact ⟨_, ws, rfl, by simp⟩

/-- The reader fails behind the tokens `us`, at the first one of `vs` or at the end. -/
lemma stuck_whole (hl : Writable (levels names)) {error : Error}
    (h : (whole stop names).run ts = .error error) : ∃ us vs, ts = us ++ vs ∧
      error.position = (vs.head?.map Placed.position).getD stop ∧
      (∃ more, Shaped more ∧ us.map Placed.token ++ more ∈ expressions names maxNesting .grammar) ∧
      ∀ more, more.head? = vs.head?.map Placed.token →
        us.map Placed.token ++ more ∉ expressions names maxNesting error.cause.rule := by
  have hexpr : Outcome stop _ ts _ := outcome_expr hl maxNesting ts
  rw [whole, StateT.run_bind] at h
  cases hrun : (expr stop names maxNesting).run ts with
  | error error' =>
    rw [hrun] at h hexpr
    cases h
    obtain ⟨us, vs, rfl, hs⟩ := hexpr
    exact ⟨us, vs, rfl, hs.position, hs.viable, fun more hmore hmem =>
      hs.rejected more hmore _ hmem List.prefix_rfl⟩
  | ok y =>
    obtain ⟨f, rest⟩ := y
    rw [hrun] at h hexpr
    obtain ⟨us, rfl, hus⟩ := hexpr
    cases rest with
    | nil => cases h
    | cons t rest =>
      cases h
      refine ⟨us, t :: rest, rfl, rfl, ⟨[], shaped_nil, ?_⟩, fun more hmore hmem => ?_⟩
      · rw [List.append_nil]
        exact hus .grammar
      · -- the expression before the token would go on as another one
        have heq := code_expressions.unique (hus .grammar) (code_expressions.le hmem)
          (by rw [List.append_nil] : us.map Placed.token ++ more = _ ++ [])
        rw [List.self_eq_append_right] at heq
        rw [heq] at hmore
        cases hmore

end Parse

/-! ### Errors of texts -/

/-- The grammar derives the tokens, and the names in the tree stand for something. How deep they are
nested, and what is a pattern, is of no account. -/
def Derivable (names : Resolver π) (ts : List Token) : Prop :=
  ∃ e, Derives e ts ∧ e.Named names

/-- The error is behind the tokens `us`, at the first one of `vs`, or at the end of the text if
there is none. -/
structure LocatedBehind (names : Resolver π) (text : String) (error : Error)
    (us vs : List Placed) : Prop where
  position : error.position = (vs.head?.map Placed.position).getD text.utf8ByteSize
  before : ∀ u ∈ us, u.position < error.position
  viable : ∃ more, Shaped more ∧ Derivable names (us.map Placed.token ++ more)
  rejected : error.cause ≠ .tooDeep → error.cause ≠ .invalidPattern →
    ∀ more, more.head? = vs.head?.map Placed.token →
      ¬ Derivable names (us.map Placed.token ++ more)
  tooDeep : error.cause = .tooDeep → ∀ more, more.head? = vs.head?.map Placed.token →
    ∀ e, Derives e (us.map Placed.token ++ more) → e.Named names → maxNesting < e.depth
  invalidPattern : error.cause = .invalidPattern → ∀ more, more.head? = vs.head?.map Placed.token →
    ∀ e, Derives e (us.map Placed.token ++ more) → e.Named names →
      ∃ p ∈ e.patterns, Pattern.Engine.compile? p = none

/-- The error is one of an expression, between two characters of the text. If the text has tokens,
it is at the first of them that cannot go on. -/
structure Located (names : Resolver π) (text : String) (error : Error) : Prop where
  fault : ∃ message, error.toFault = .expression error.position message
  boundary : ∃ before after, text = before ++ after ∧ error.position = before.utf8ByteSize
  le : error.position ≤ text.utf8ByteSize
  token : ∀ ts, tokenize text = .ok ts →
    ∃ us vs, ts = us ++ vs ∧ LocatedBehind names text error us vs

lemma of_parse_eq_error (h : parse names text = .error error) : tokenize text = .error error ∨
    ∃ ts, tokenize text = .ok ts ∧
      (Parse.whole text.utf8ByteSize names).run ts = .error error := by
  rw [parse] at h
  cases htokens : tokenize text with
  | error error' =>
    rw [htokens] at h
    cases h
    exact .inl rfl
  | ok ts =>
    rw [htokens] at h
    change Prod.fst <$> (Parse.whole text.utf8ByteSize names).run ts = _ at h
    refine .inr ⟨ts, rfl, ?_⟩
    cases hrun : (Parse.whole text.utf8ByteSize names).run ts with
    | error error' =>
      rw [hrun] at h
      cases h
      rfl
    | ok y =>
      rw [hrun] at h
      cases h

lemma locatedBehind_of_stuck {us vs : List Placed} (h : tokenize text = .ok (us ++ vs))
    (hposition : error.position = (vs.head?.map Placed.position).getD text.utf8ByteSize)
    (hviable : ∃ more, Shaped more ∧
      us.map Placed.token ++ more ∈ expressions names maxNesting .grammar)
    (hrejected : ∀ more, more.head? = vs.head?.map Placed.token →
      us.map Placed.token ++ more ∉ expressions names maxNesting error.cause.rule) :
    LocatedBehind names text error us vs where
  position := hposition
  before := (boundary_of_position h hposition).2
  viable := by
    obtain ⟨more, hmore, e, h⟩ := hviable
    exact ⟨more, hmore, e, h.derives, h.named⟩
  rejected hdeep hpattern more hmore := by
    rintro ⟨e, he, hn⟩
    exact hrejected more hmore ⟨e, he, hn, Cause.rule_eq_grammar hdeep hpattern ▸ trivial⟩
  tooDeep hc more hmore e he hn := by
    by_contra hle
    rw [hc] at hrejected
    exact hrejected more hmore ⟨e, he, hn, Nat.not_lt.1 hle⟩
  invalidPattern hc more hmore e he hn := by
    by_contra hall
    rw [hc] at hrejected
    refine hrejected more hmore ⟨e, he, hn, fun p hp => ?_⟩
    rw [Option.isSome_iff_ne_none]
    exact fun hnone => hall ⟨p, hp, hnone⟩

/-- Errors point at the first token that cannot go on: the tokens before it begin an expression,
and none begins with these and the token. -/
theorem parse_error_located (hl : ∃ n, IsIdentifier n ∧ (names.level? n).isSome)
    (h : parse names text = .error error) : Located names text error := by
  have hplace : (∃ before after, text = before ++ after ∧
      error.position = before.utf8ByteSize) ∧ ∀ ts, tokenize text = .ok ts →
        ∃ us vs, ts = us ++ vs ∧ LocatedBehind names text error us vs := by
    obtain herror | ⟨ts, hts, hrun⟩ := of_parse_eq_error h
    · refine ⟨boundary_of_tokenize herror, fun ts hts => ?_⟩
      rw [herror] at hts
      cases hts
    · obtain ⟨us, vs, rfl, hposition, hviable, hrejected⟩ :=
        Parse.stuck_whole (writable_levels hl) hrun
      refine ⟨(boundary_of_position hts hposition).1, fun ts' hts' => ?_⟩
      rw [hts] at hts'
      cases hts'
      exact ⟨us, vs, rfl, locatedBehind_of_stuck hts hposition hviable hrejected⟩
  obtain ⟨⟨before, after, htext, hposition⟩, htoken⟩ := hplace
  refine ⟨⟨_, rfl⟩, ⟨before, after, htext, hposition⟩, ?_, htoken⟩
  rw [hposition, htext, String.utf8ByteSize_append]
  exact Nat.le_add_right _ _

end

open scoped Pattern.Searching in
/-- A name that is no level, behind one that is. -/
theorem parse_error_located_level :
    let names : Resolver Unit :=
      ⟨fun n => if n = "INFO" then some ⟨"INFO", 800⟩ else none, fun _ => none⟩
    (∃ n, IsIdentifier n ∧ (names.level? n).isSome) ∧
      parse names "levels(INFO,LOUD)" = .error ⟨12, .unknownLevel "LOUD"⟩ ∧
        Located names "levels(INFO,LOUD)" ⟨12, .unknownLevel "LOUD"⟩ := by
  intro names
  have hl : ∃ n, IsIdentifier n ∧ (names.level? n).isSome :=
    ⟨"INFO", by decide +kernel, by decide⟩
  have htokens : tokenize "levels(INFO,LOUD)" = .ok [⟨.ident "levels", 0⟩, ⟨.leftParen, 6⟩,
      ⟨.ident "INFO", 7⟩, ⟨.comma, 11⟩, ⟨.ident "LOUD", 12⟩, ⟨.rightParen, 16⟩] := by
    decide +kernel
  have h : parse names "levels(INFO,LOUD)" = .error ⟨12, .unknownLevel "LOUD"⟩ := by
    rw [parse, htokens]
    rfl
  exact ⟨hl, h, parse_error_located hl h⟩

end Logging.Expression
