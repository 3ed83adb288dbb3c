import Mathlib.Computability.Language
import Mathlib.Tactic.Common
import Logging.Proofs.Expression.RoundTrip

/-!
# Where reading gets stuck

A reader takes phrases of a language from the front of its input, or gets stuck: the tokens before a
place begin some phrase, and no phrase begins with these and the token in this place (`Stuck`). The
parts of the reader are followed one by one, each of them with its phrases. Where one of them is
stuck, so is all that it is part of (`Outcome.bind`). For this, no phrase of a part may go on as
another one (`Code`), or else the input could be divided among the parts in another way, and some
phrase has to be there for each part that is still to come (`Writable`).

Two rules are no part of the grammar: how deep expressions may be nested, and which strings are
patterns. So the phrases are given with regard to a rule, and input that breaks it is stuck with
regard to the phrases that keep to it.
-/

namespace Logging.Expression

open Logging.Filter (Shaped)

variable {π α β : Type}

/-! ### Rules and phrases -/

/-- What an expression has to keep to: the grammar, with names that stand for something; the bound
on its nesting; the form of patterns. -/
inductive Rule
  | grammar
  | nesting
  | patterns

/-- The rule that is broken. -/
def Cause.rule : Cause → Rule
  | .tooDeep => .nesting
  | .invalidPattern => .patterns
  | _ => .grammar

lemma Cause.rule_eq_grammar {c : Cause} (hdeep : c ≠ .tooDeep) (hpattern : c ≠ .invalidPattern) :
    c.rule = .grammar := by
  cases c with
  | tooDeep => exact absurd rfl hdeep
  | invalidPattern => exact absurd rfl hpattern
  | _ => rfl

/-- The sequences of tokens that have the form of something, and which of them keep to a rule. -/
abbrev Phrases := Rule → Language Token

namespace Phrases

variable {K L : Phrases} {r : Rule} {P : Token → Prop} {us ts : List Token} {t : Token}

/-- Phrases of one token. -/
def single (P : Token → Prop) : Phrases := fun _ => {ts | ∃ t, ts = [t] ∧ P t}

lemma mem_single_iff : us ∈ single P r ↔ ∃ t, us = [t] ∧ P t := Iff.rfl

lemma mem_single_mul_iff :
    us ∈ (single P * K) r ↔ ∃ t ts, us = t :: ts ∧ P t ∧ ts ∈ K r := by
  constructor
  · rintro ⟨_, ⟨t, rfl, ht⟩, ts, hts, rfl⟩
    exact ⟨t, ts, rfl, ht, hts⟩
  · rintro ⟨t, ts, rfl, ht, hts⟩
    exact ⟨[t], ⟨t, rfl, ht⟩, ts, hts, rfl⟩

/-- No phrase goes on as another, and no rule allows what the grammar does not. -/
structure Code (K : Phrases) : Prop where
  le : ∀ ⦃r us⦄, us ∈ K r → us ∈ K .grammar
  unique : ∀ ⦃us vs rest rest'⦄, us ∈ K .grammar → vs ∈ K .grammar →
    us ++ rest = vs ++ rest' → us = vs

lemma code_single : Code (single P) where
  le _ _ h := h
  unique := by
    rintro _ _ rest rest' ⟨t, rfl, -⟩ ⟨u, rfl, -⟩ h
    cases h
    rfl

/-- Some phrase can be written in a text. -/
def Writable (K : Phrases) : Prop := ∃ ts ∈ K .grammar, Shaped ts

lemma shaped_append (hts : Shaped ts) (hus : Shaped us) : Shaped (ts ++ us) :=
  fun n hn => (List.mem_append.1 hn).elim (hts n) (hus n)

lemma shaped_nil : Shaped [] := fun _ h => absurd h List.not_mem_nil

lemma shaped_of_ne_ident (ht : ∀ n, t ≠ .ident n) : Shaped [t] :=
  fun n hn => absurd (List.mem_singleton.1 hn).symm (ht n)

lemma Writable.mul (hK : Writable K) (hL : Writable L) : Writable (K * L) := by
  obtain ⟨ts, hts, hts'⟩ := hK
  obtain ⟨us, hus, hus'⟩ := hL
  exact ⟨ts ++ us, Language.append_mem_mul hts hus, shaped_append hts' hus'⟩

lemma writable_single (hP : P t) (ht : ∀ n, t ≠ .ident n) : Writable (single P) :=
  ⟨[t], ⟨t, rfl, hP⟩, shaped_of_ne_ident ht⟩

end Phrases

open Phrases

/-! ### What reading comes to -/

/-- Reading phrases is stuck behind the tokens `us`, at the first one of `vs`, or at the end if
there is none. -/
structure Stuck (stop : Nat) (K : Phrases) (us vs : List Placed) (e : Error) : Prop where
  position : e.position = (vs.head?.map Placed.position).getD stop
  viable : ∃ more, Shaped more ∧ us.map Placed.token ++ more ∈ K .grammar
  rejected : ∀ more, more.head? = vs.head?.map Placed.token →
    ∀ ws ∈ K e.cause.rule, ¬ ws <+: us.map Placed.token ++ more

/-- To read some tokens takes a phrase from their front, or is stuck. -/
def Outcome (stop : Nat) (K : Phrases) (ts : List Placed) :
    Except Error (α × List Placed) → Prop
  | .ok (_, rest) => ∃ us, ts = us ++ rest ∧ ∀ r, us.map Placed.token ∈ K r
  | .error e => ∃ us vs, ts = us ++ vs ∧ Stuck stop K us vs e

variable {stop : Nat} {K L : Phrases} {us vs ts : List Placed} {e : Error}

/-- Phrases with a token before them. -/
lemma Stuck.cons {t : Placed} (h : Stuck stop L us vs e) (hnil : ∀ r, [] ∉ K r)
    (hK : ∀ r ws, t.token :: ws ∈ K r → ws ∈ L r)
    (hL : ∀ ws ∈ L .grammar, t.token :: ws ∈ K .grammar) : Stuck stop K (t :: us) vs e where
  position := h.position
  viable := by
    obtain ⟨more, hshaped, hmore⟩ := h.viable
    exact ⟨more, hshaped, hL _ hmore⟩
  rejected more hmore ws hws hpre := by
    cases ws with
    | nil => exact hnil _ hws
    | cons w ws =>
      rw [List.map_cons, List.cons_append, List.cons_prefix_cons] at hpre
      obtain ⟨rfl, hpre⟩ := hpre
      exact h.rejected more hmore ws (hK _ ws hws) hpre

/-- What is stuck in the first of two parts is stuck in both. -/
lemma Stuck.mul (h : Stuck stop K us vs e) (hL : Writable L) : Stuck stop (K * L) us vs e where
  position := h.position
  viable := by
    obtain ⟨more, hshaped, hmore⟩ := h.viable
    obtain ⟨ws, hws, hshaped'⟩ := hL
    refine ⟨more ++ ws, shaped_append hshaped hshaped', ?_⟩
    rw [← List.append_assoc]
    exact Language.append_mem_mul hmore hws
  rejected more hmore ws hws hpre := by
    obtain ⟨ws, hws, ws', -, rfl⟩ := hws
    exact h.rejected more hmore ws hws ((List.prefix_append ws ws').trans hpre)

/-- What is stuck behind a phrase is stuck in the whole: there is no other phrase in its place. -/
lemma Stuck.append {us' : List Placed} (h : Stuck stop L us' vs e) (hK : Code K)
    (hus : ∀ r, us.map Placed.token ∈ K r) : Stuck stop (K * L) (us ++ us') vs e where
  position := h.position
  viable := by
    obtain ⟨more, hshaped, hmore⟩ := h.viable
    refine ⟨more, hshaped, ?_⟩
    rw [List.map_append, List.append_assoc]
    exact Language.append_mem_mul (hus _) hmore
  rejected more hmore ws hws hpre := by
    obtain ⟨ws, hws, ws', hws', rfl⟩ := hws
    obtain ⟨rest, heq⟩ := hpre
    rw [List.map_append, List.append_assoc, List.append_assoc] at heq
    obtain rfl := hK.unique (hK.le hws) (hus .grammar) heq
    exact h.rejected more hmore ws' hws' ⟨rest, List.append_cancel_left heq⟩

namespace Outcome

variable {p : Parse α} {x : Except Error (α × List Placed)}

lemma pure (a : α) : Outcome stop 1 ts ((Pure.pure a : Parse α).run ts) :=
  ⟨[], rfl, fun _ => rfl⟩

/-- Reading is stuck at once if no phrase begins with the first token. -/
lemma stuck (hK : Writable K) (c : Cause)
    (hne : ∀ ws ∈ K c.rule, ∃ w ws', ws = w :: ws' ∧ ts.head?.map Placed.token ≠ some w) :
    Outcome stop K ts (.error ⟨(ts.head?.map Placed.position).getD stop, c⟩ :
      Except Error (α × List Placed)) := by
  refine ⟨[], ts, rfl, rfl, ?_, fun more hmore ws hws hpre => ?_⟩
  · obtain ⟨more, hmore, hshaped⟩ := hK
    exact ⟨more, hshaped, hmore⟩
  · obtain ⟨w, ws, rfl, hw⟩ := hne ws hws
    obtain ⟨rest, rfl⟩ := hpre
    exact hw hmore.symm

lemma cons {t : Placed} (h : Outcome stop L ts x) (hnil : ∀ r, [] ∉ K r)
    (hK : ∀ r ws, t.token :: ws ∈ K r ↔ ws ∈ L r) : Outcome stop K (t :: ts) x := by
  cases x with
  | ok y =>
    obtain ⟨us, rfl, hus⟩ := h
    exact ⟨t :: us, rfl, fun r => (hK r _).2 (hus r)⟩
  | error e =>
    obtain ⟨us, vs, rfl, hs⟩ := h
    exact ⟨t :: us, vs, rfl, hs.cons hnil (fun r ws => (hK r ws).1) fun ws => (hK _ ws).2⟩

lemma map {f : α → β} (h : Outcome stop K ts (p.run ts)) :
    Outcome stop K ts ((p >>= fun a => Pure.pure (f a)).run ts) := by
  rw [StateT.run_bind]
  cases hp : p.run ts with
  | ok y => rwa [hp] at h
  | error e => rwa [hp] at h

/-- What is read in two parts. -/
lemma bind {f : α → Parse β} (hK : Code K) (hL : Writable L) (hp : Outcome stop K ts (p.run ts))
    (hf : ∀ a us rest, ts = us ++ rest → Outcome stop L rest ((f a).run rest)) :
    Outcome stop (K * L) ts ((p >>= f).run ts) := by
  rw [StateT.run_bind]
  cases hrun : p.run ts with
  | error e =>
    rw [hrun] at hp
    obtain ⟨us, vs, rfl, hs⟩ := hp
    exact ⟨us, vs, rfl, hs.mul hL⟩
  | ok y =>
    obtain ⟨a, rest⟩ := y
    rw [hrun] at hp
    obtain ⟨us, rfl, hus⟩ := hp
    have h := hf a us rest rfl
    change Outcome stop (K * L) (us ++ rest) ((f a).run rest)
    cases hrest : (f a).run rest with
    | ok z =>
      rw [hrest] at h
      obtain ⟨vs, hvs, hmem⟩ := h
      refine ⟨us ++ vs, by rw [hvs, List.append_assoc], fun r => ?_⟩
      rw [List.map_append]
      exact Language.append_mem_mul (hus r) (hmem r)
    | error e =>
      rw [hrest] at h
      obtain ⟨us', vs, rfl, hs⟩ := h
      exact ⟨us ++ us', vs, (List.append_assoc ..).symm, hs.append hK hus⟩

end Outcome

/-! ### Single tokens -/

namespace Phrases

/-- A token that is determined. -/
abbrev token (t : Token) : Phrases := single (· = t)

lemma writable_token {t : Token} (ht : ∀ n, t ≠ .ident n) : Writable (token t) :=
  writable_single rfl ht

abbrev strings : Phrases := single fun t => ∃ s, t = .string s

lemma writable_strings : Writable strings := writable_single ⟨"", rfl⟩ (by simp)

/-- The names of levels. -/
abbrev levels (names : Resolver π) : Phrases :=
  single fun t => ∃ n, t = .ident n ∧ (names.level? n).isSome

/-- The brackets at the beginning of a range. -/
abbrev openings : Phrases := single fun t => ∃ b, t = openingBracket b

lemma writable_openings : Writable openings :=
  writable_single ⟨true, rfl⟩ (by simp [openingBracket])

/-- The brackets at the end of a range. -/
abbrev closings : Phrases := single fun t => ∃ b, t = closingBracket b

lemma writable_closings : Writable closings :=
  writable_single ⟨true, rfl⟩ (by simp [closingBracket])

end Phrases

namespace Parse

variable {names : Resolver π} {P : Token → Prop}

/-- A reader of one token fails at the token if it is none of its own. -/
lemma outcome_single {p : Parse α} (hP : Writable (single P))
    (hnil : ∃ c, p.run [] = .error ⟨stop, c⟩)
    (hcons : ∀ t position ts, (P t ∧ ∃ a, p.run (⟨t, position⟩ :: ts) = .ok (a, ts)) ∨
      (¬ P t ∧ ∃ c, p.run (⟨t, position⟩ :: ts) = .error ⟨position, c⟩))
    (ts : List Placed) : Outcome stop (single P) ts (p.run ts) := by
  cases ts with
  | nil =>
    obtain ⟨c, hrun⟩ := hnil
    rw [hrun]
    refine Outcome.stuck hP c ?_
    rintro _ ⟨w, rfl, -⟩
    exact ⟨w, [], rfl, by simp⟩
  | cons t ts =>
    obtain ⟨t, position⟩ := t
    rcases hcons t position ts with ⟨ht, a, hrun⟩ | ⟨ht, c, hrun⟩
    · rw [hrun]
      exact ⟨[_], rfl, fun _ => ⟨_, rfl, ht⟩⟩
    · rw [hrun]
      refine Outcome.stuck hP c ?_
      rintro _ ⟨w, rfl, hw⟩
      refine ⟨w, [], rfl, fun h => ht ?_⟩
      obtain rfl := Option.some.inj h
      exact hw

lemma outcome_expect {t : Token} (ht : ∀ n, t ≠ .ident n) (ts : List Placed) :
    Outcome stop (token t) ts ((expect stop t).run ts) := by
  refine outcome_single (writable_token ht) ⟨_, rfl⟩ (fun u position ts => ?_) ts
  have hrun : (expect stop t).run (⟨u, position⟩ :: ts) =
    (if u = t then pure () else unexpected (.token t) ⟨u, position⟩ : Parse Unit).run ts := rfl
  rw [hrun]
  split_ifs with h
  · exact .inl ⟨h, (), rfl⟩
  · exact .inr ⟨h, _, rfl⟩

lemma outcome_string (ts : List Placed) : Outcome stop strings ts ((string stop).run ts) := by
  refine outcome_single writable_strings ⟨_, rfl⟩ (fun t position ts => ?_) ts
  cases t with
  | string s => exact .inl ⟨⟨s, rfl⟩, _, rfl⟩
  | _ => exact .inr ⟨by simp, _, rfl⟩

lemma run_level_ident (n : String) (position : Nat) (ts : List Placed) :
    (level stop names).run (⟨.ident n, position⟩ :: ts) =
      (match names.level? n with
        | some l => return l
        | none => fail position (.unknownLevel n) : Parse Level).run ts := rfl

lemma outcome_level (hl : Writable (levels names)) (ts : List Placed) :
    Outcome stop (levels names) ts ((level stop names).run ts) := by
  refine outcome_single hl ⟨_, rfl⟩ (fun t position ts => ?_) ts
  cases t with
  | ident n =>
    rw [run_level_ident]
    cases h : names.level? n with
    | some l => exact .inl ⟨⟨n, rfl, by rw [h]; rfl⟩, l, rfl⟩
    | none =>
      refine .inr ⟨?_, _, rfl⟩
      rintro ⟨m, hm, hn⟩
      cases hm
      rw [h] at hn
      cases hn
  | _ =>
    refine .inr ⟨?_, _, rfl⟩
    rintro ⟨_, h, -⟩
    cases h

lemma outcome_rangeStart (ts : List Placed) :
    Outcome stop openings ts ((rangeStart stop).run ts) := by
  refine outcome_single writable_openings ⟨_, rfl⟩ (fun t position ts => ?_) ts
  cases t with
  | leftBracket => exact .inl ⟨⟨true, rfl⟩, true, rfl⟩
  | leftParen => exact .inl ⟨⟨false, rfl⟩, false, rfl⟩
  | _ => exact .inr ⟨by simp [openingBracket], _, rfl⟩

lemma outcome_rangeEnd (ts : List Placed) :
    Outcome stop closings ts ((rangeEnd stop).run ts) := by
  refine outcome_single writable_closings ⟨_, rfl⟩ (fun t position ts => ?_) ts
  cases t with
  | rightBracket => exact .inl ⟨⟨true, rfl⟩, true, rfl⟩
  | rightParen => exact .inl ⟨⟨false, rfl⟩, false, rfl⟩
  | _ => exact .inr ⟨by simp [closingBracket], _, rfl⟩

end Parse

/-! ### Patterns -/

section Patterns

variable [Pattern.Engine]

/-- Strings in the place of a pattern. It is another rule that they should be patterns. -/
def Phrases.sources : Phrases := fun r =>
  {ts | ∃ s, ts = [.string s] ∧ (r = .patterns → (Pattern.Engine.compile? s).isSome)}

lemma Phrases.mem_sources_mul_iff {r : Rule} {us : List Token} : us ∈ (sources * L) r ↔
    ∃ s ts, us = .string s :: ts ∧ (r = .patterns → (Pattern.Engine.compile? s).isSome) ∧
      ts ∈ L r := by
  constructor
  · rintro ⟨_, ⟨s, rfl, hs⟩, ts, hts, rfl⟩
    exact ⟨s, ts, rfl, hs, hts⟩
  · rintro ⟨s, ts, rfl, hs, hts⟩
    exact ⟨[.string s], ⟨s, rfl, hs⟩, ts, hts, rfl⟩

lemma Phrases.writable_sources : Writable sources :=
  ⟨[.string ""], ⟨"", rfl, by simp⟩, shaped_of_ne_ident (by simp)⟩

namespace Parse

/-- A pattern is looked up when all that belongs to it was read. If there is none, it is the string
that cannot go on. -/
lemma outcome_pattern {text : String} {position : Nat} {us rest : List Placed} (f : Pattern → α)
    (hL : Writable L) (hus : ∀ r, us.map Placed.token ∈ L r) :
    Outcome stop (sources * L) (⟨.string text, position⟩ :: (us ++ rest))
      ((pattern text position >>= fun p => pure (f p)).run rest) := by
  rw [pattern]
  cases hp : Pattern.Engine.compile? text with
  | some p =>
    refine ⟨_ :: us, rfl, fun r => mem_sources_mul_iff.2 ⟨text, _, rfl, fun _ => ?_, hus r⟩⟩
    rw [hp]
    rfl
  | none =>
    refine Outcome.stuck (writable_sources.mul hL) .invalidPattern fun ws hws => ?_
    obtain ⟨s, ws, rfl, hs, -⟩ := mem_sources_mul_iff.1 hws
    refine ⟨.string s, ws, rfl, fun h => ?_⟩
    cases h
    have hsome := hs rfl
    rw [hp] at hsome
    cases hsome

/-- A pattern with what else belongs to it. -/
lemma outcome_source {tail : Parse β} (f : β → Pattern → α) (hL : Writable L)
    (ht : ∀ ts, Outcome stop L ts (tail.run ts)) (ts : List Placed) :
    Outcome stop (sources * L) ts ((string stop >>= fun a => tail >>= fun b =>
      pattern a.1 a.2 >>= fun p => pure (f b p)).run ts) := by
  have hword : Writable (sources * L) := writable_sources.mul hL
  cases ts with
  | nil =>
    refine Outcome.stuck hword (.missing .string) fun ws hws => ?_
    obtain ⟨s, ws, rfl, -⟩ := mem_sources_mul_iff.1 hws
    exact ⟨.string s, ws, rfl, by simp⟩
  | cons t ts =>
    obtain ⟨t, position⟩ := t
    cases t with
    | string s =>
      have hrun (g : String × Nat → Parse α) :
        (string stop >>= g).run (⟨.string s, position⟩ :: ts) = (g (s, position)).run ts := rfl
      rw [hrun, StateT.run_bind]
      have h := ht ts
      cases htail : tail.run ts with
      | error e =>
        rw [htail] at h
        obtain ⟨us, vs, rfl, hs⟩ := h
        refine ⟨_ :: us, vs, rfl, hs.cons (fun r hnil => ?_) (fun r ws hws => ?_) fun ws hws => ?_⟩
        · obtain ⟨_, _, h, -⟩ := mem_sources_mul_iff.1 hnil
          cases h
        · obtain ⟨_, _, h, -, hws⟩ := mem_sources_mul_iff.1 hws
          cases h
          exact hws
        · exact mem_sources_mul_iff.2 ⟨s, ws, rfl, by simp, hws⟩
      | ok y =>
        obtain ⟨b, rest⟩ := y
        rw [htail] at h
        obtain ⟨us, rfl, hus⟩ := h
        exact outcome_pattern (f b) hL hus
    | _ =>
      refine Outcome.stuck hword (.unexpected .string _) fun ws hws => ?_
      obtain ⟨s, ws, rfl, -⟩ := mem_sources_mul_iff.1 hws
      exact ⟨.string s, ws, rfl, by simp⟩

end Parse

end Patterns

/-! ### Lists and parentheses -/

namespace Phrases

variable {R : Rule → β → List Token → Prop} {r : Rule} {us : List Token}

/-- What there is of a kind of things, each with its tokens. -/
def items (R : Rule → β → List Token → Prop) : Phrases := fun r => {ts | ∃ b, R r b ts}

/-- What follows the first item of a list. -/
def moreItems (R : Rule → β → List Token → Prop) : Phrases := fun r =>
  {ts | ∃ bs, Parse.Rest (R r) bs ts}

/-- One or more items in parentheses. -/
def list (R : Rule → β → List Token → Prop) : Phrases :=
  token .leftParen * (items R * moreItems R)

def parens (K : Phrases) : Phrases := token .leftParen * (K * token .rightParen)

lemma mem_items_mul_moreItems_iff : us ∈ (items R * moreItems R) r ↔
    ∃ bs ts, us = ts ++ [.rightParen] ∧ Separated (R r) bs ts := by
  constructor
  · rintro ⟨ts, ⟨b, hb⟩, vs, ⟨bs, hbs⟩, rfl⟩
    obtain ⟨ws, hws, hs⟩ := Parse.separated_cons_iff.1 ⟨ts, vs, rfl, hb, hbs⟩
    exact ⟨b :: bs, ws, hws, hs⟩
  · rintro ⟨bs, ts, hts, hs⟩
    obtain ⟨b, bs, rfl⟩ := hs.exists_cons
    obtain ⟨vs, ws, rfl, hb, hbs⟩ := Parse.separated_cons_iff.2 ⟨ts, hts, hs⟩
    exact ⟨vs, ⟨b, hb⟩, ws, ⟨bs, hbs⟩, rfl⟩

lemma mem_list_iff : us ∈ list R r ↔
    ∃ bs ts, us = .leftParen :: ts ++ [.rightParen] ∧ Separated (R r) bs ts := by
  rw [list, mem_single_mul_iff]
  simp only [mem_items_mul_moreItems_iff]
  constructor
  · rintro ⟨_, _, rfl, rfl, bs, ts, rfl, hs⟩
    exact ⟨bs, ts, rfl, hs⟩
  · rintro ⟨bs, ts, rfl, hs⟩
    exact ⟨_, _, rfl, rfl, bs, ts, rfl, hs⟩

lemma mem_parens_iff {K : Phrases} : us ∈ parens K r ↔
    ∃ ts, us = .leftParen :: ts ++ [.rightParen] ∧ ts ∈ K r := by
  rw [parens, mem_single_mul_iff]
  constructor
  · rintro ⟨_, _, rfl, rfl, ts, hts, _, ⟨_, rfl, rfl⟩, rfl⟩
    exact ⟨ts, rfl, hts⟩
  · rintro ⟨ts, rfl, hts⟩
    exact ⟨_, _, rfl, rfl, ts, hts, _, ⟨_, rfl, rfl⟩, rfl⟩

lemma comma_cons_mem_moreItems_iff :
    .comma :: us ∈ moreItems R r ↔ us ∈ (items R * moreItems R) r := by
  rw [mem_items_mul_moreItems_iff]
  constructor
  · rintro ⟨bs, ⟨-, h⟩ | ⟨ts, h, hs⟩⟩
    · cases h
    · cases h
      exact ⟨bs, ts, rfl, hs⟩
  · rintro ⟨bs, ts, rfl, hs⟩
    exact ⟨bs, .inr ⟨ts, rfl, hs⟩⟩

/-- A list goes on with a comma or ends. -/
lemma exists_cons_of_mem_moreItems (h : us ∈ moreItems R r) :
    ∃ t ts, us = t :: ts ∧ (t = .comma ∨ t = .rightParen) := by
  obtain ⟨bs, ⟨-, rfl⟩ | ⟨ts, rfl, -⟩⟩ := h
  · exact ⟨_, _, rfl, .inr rfl⟩
  · exact ⟨_, _, rfl, .inl rfl⟩

lemma singleton_mem_moreItems (r : Rule) : [.rightParen] ∈ moreItems R r := ⟨[], .inl ⟨rfl, rfl⟩⟩

lemma writable_moreItems : Writable (moreItems R) :=
  ⟨_, singleton_mem_moreItems .grammar, shaped_of_ne_ident (by simp)⟩

end Phrases

namespace Parse

variable {item : Parse α} {R : Rule → β → List Token → Prop}

lemma outcome_parens (hK : Code K) (hw : Writable K) (hi : ∀ ts, Outcome stop K ts (item.run ts))
    (ts : List Placed) : Outcome stop (Phrases.parens K) ts ((parens stop item).run ts) := by
  have hclose : Writable (token .rightParen) := writable_token (by simp)
  refine Outcome.bind code_single (hw.mul hclose) (outcome_expect (by simp) ts)
    fun _ _ ts _ => Outcome.bind hK hclose (hi ts) fun a _ rest _ => ?_
  exact (outcome_expect (by simp) rest).map (f := fun _ => a)

lemma outcome_moreItems (hR : Code (items R)) (hi : ∀ ts, Outcome stop (items R) ts (item.run ts))
    {fuel : Nat} (hts : ts.length < fuel) :
    Outcome stop (Phrases.moreItems R) ts ((moreItems stop item fuel).run ts) := by
  induction fuel generalizing ts with
  | zero => exact absurd hts (Nat.not_lt_zero _)
  | succ fuel ih =>
    cases ts with
    | nil =>
      refine Outcome.stuck writable_moreItems (.missing .listGoesOn) fun ws hws => ?_
      obtain ⟨w, ws, rfl, -⟩ := exists_cons_of_mem_moreItems hws
      exact ⟨w, ws, rfl, by simp⟩
    | cons t ts =>
      rw [run_moreItems_cons]
      obtain ⟨t, position⟩ := t
      cases t with
      | comma =>
        have h := Outcome.bind hR writable_moreItems (hi ts) fun a us rest hrest => by
          have hlen : rest.length < fuel := by
            rw [hrest, List.length_cons, List.length_append] at hts
            omega
          exact (ih hlen).map (f := fun as => a :: as)
        refine h.cons (fun r hnil => ?_) fun r ws => comma_cons_mem_moreItems_iff
        obtain ⟨_, _, h, -⟩ := exists_cons_of_mem_moreItems hnil
        cases h
      | rightParen => exact ⟨[_], rfl, singleton_mem_moreItems⟩
      | _ =>
        refine Outcome.stuck writable_moreItems (.unexpected .listGoesOn _) fun ws hws => ?_
        obtain ⟨w, ws, rfl, rfl | rfl⟩ := exists_cons_of_mem_moreItems hws
        · exact ⟨_, ws, rfl, by simp⟩
        · exact ⟨_, ws, rfl, by simp⟩

lemma outcome_list (hR : Code (items R)) (hw : Writable (items R))
    (hi : ∀ ts, Outcome stop (items R) ts (item.run ts)) (ts : List Placed) :
    Outcome stop (Phrases.list R) ts ((list stop item).run ts) := by
  refine Outcome.bind code_single (hw.mul writable_moreItems) (outcome_expect (by simp) ts)
    fun _ _ ts _ => Outcome.bind hR writable_moreItems (hi ts) fun a _ rest _ => ?_
  have h : Outcome stop (Phrases.moreItems R) rest _ :=
    outcome_moreItems hR hi (Nat.lt_succ_self _)
  exact h.map (f := fun as => a :: as)

end Parse

end Logging.Expression
