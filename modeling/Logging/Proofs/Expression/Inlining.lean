import Mathlib.Tactic.Common
import Logging.Proofs.Expression.Layout
import Logging.Proofs.Expression.RoundTrip
import Logging.Proofs.Filter.Laws

/-!
# Texts in place of names

An expression may name a filter, or have the text of the filter in this place. If the second can be
read, so can the first, where the name stands for the filter of that text, and both are the same
filter (`exists_parse_of_inlines`). It is not so the other way around, as a text may be nested too
deeply in the place of its name. Names of levels are left alone, even where a filter goes by the
same name, and which names these are shows from the tokens before them (`inLevels`).

The proof goes back from the tokens after inlining to those before: what has a tree there had a tree
already, with the name in it (`stems_derives`). What a name stands for by itself is said at the end,
and that it stands for nothing new if it is a keyword (`parse_define`, `parse_define_of_mem`).
-/

namespace Logging.Expression

variable {π : Type} {n : String}

/-! ### Places of names -/

/-- The keywords with names of levels behind them. -/
def levelKeywords : List String := ["levels", "levelRange", "levelChange"]

/-- Whether names behind a token are those of levels, as they are or are not before it: from a
keyword up to the bracket that closes. -/
def inLevels (before : Bool) : Token → Bool
  | .ident n => before || decide (n ∈ levelKeywords)
  | .rightParen => false
  | .rightBracket => false
  | _ => before

/-- Tokens with others in place of a name, wherever it is not that of a level. The flag says whether
the first one could be. -/
def inlineTokens (n : String) (us : List Token) : Bool → List Token → List Token
  | _, [] => []
  | b, t :: ts =>
    (if t = .ident n ∧ b = false then us else [t]) ++ inlineTokens n us (inLevels b t) ts

/-- The same of a text, with other characters in place of the name. -/
def inlineText (n : String) (cs : List Char) : Bool → List Piece → List Char → List Char
  | _, [], rest => rest
  | b, p :: ps, rest =>
    p.gap ++ ((if p.token = .ident n ∧ b = false then cs else p.source) ++
      inlineText n cs (inLevels b p.token) ps rest)

/-- A text comes from an outer one by putting an inner one in place of a name, wherever this is not
the name of a level. -/
def Inlines (n : String) (inner outer text : String) : Prop :=
  ∃ l : Layout, l.text = outer.toList ∧
    text.toList = inlineText n inner.toList false l.pieces l.last

/-! ### Trees in place of names -/

namespace Expr

mutual

/-- The tree with another in place of a name. -/
def inline : Expr → String → Expr → Expr
  | accept, _, _ => accept
  | deny, _, _ => deny
  | not e, n, inner => not (e.inline n inner)
  | all es, n, inner => all (inlineList es n inner)
  | any es, n, inner => any (inlineList es n inner)
  | levels ns, _, _ => levels ns
  | levelRange minIn min max maxIn, _, _ => levelRange minIn min max maxIn
  | levelChange name, _, _ => levelChange name
  | «match» p, _, _ => «match» p
  | substitute p r everywhere, _, _ => substitute p r everywhere
  | ident k, n, inner => if n = k then inner else ident k

def inlineList : List Expr → String → Expr → List Expr
  | [], _, _ => []
  | e :: es, n, inner => e.inline n inner :: inlineList es n inner

end

variable {inner : Expr}

mutual

lemma depth_le_inline (e : Expr) : e.depth ≤ (e.inline n inner).depth := by
  cases e with
  | not e => exact Nat.succ_le_succ (depth_le_inline e)
  | all es | any es => exact Nat.succ_le_succ (depthList_le_inline es)
  | ident k =>
    rw [inline]
    split_ifs
    · exact depth_pos inner
    · exact Nat.le_refl _
  | _ => exact Nat.le_refl _

lemma depthList_le_inline (es : List Expr) : depthList es ≤ depthList (inlineList es n inner) := by
  cases es with
  | nil => exact Nat.le_refl _
  | cons e es => exact max_le_max (depth_le_inline e) (depthList_le_inline es)

end

end Expr

/-- The same names, but one of them for a certain filter. -/
def Resolver.define (names : Resolver π) (n : String) (f : Filter π) : Resolver π where
  level? := names.level?
  filter? k := if n = k then some f else names.filter? k

lemma Resolver.filter?_define (names : Resolver π) (n : String) (f : Filter π) (k : String) :
    (names.define n f).filter? k = if n = k then some f else names.filter? k := rfl

namespace Expr

variable [Pattern.Engine] {names : Resolver π} {inner : Expr} {f₁ : Filter π}

mutual

/-- A tree without the name stands for no other filter than one with it, where the name stands for
what is in its place. -/
theorem exists_denote?_of_inline (h₁ : inner.denote? names = some f₁) (e : Expr) {g : Filter π}
    (hg : (e.inline n inner).denote? names = some g) :
    ∃ f, e.denote? (names.define n f₁) = some f ∧ f.Equivalent g := by
  cases e with
  | not e =>
    obtain ⟨g, hg', rfl⟩ := Option.map_eq_some_iff.1 hg
    obtain ⟨f, hf, hfg⟩ := exists_denote?_of_inline h₁ e hg'
    refine ⟨.not f, ?_, hfg.not⟩
    rw [denote?, hf, Option.map_some]
  | all es =>
    obtain ⟨gs, hgs, rfl⟩ := Option.map_eq_some_iff.1 hg
    obtain ⟨fs, hfs, hfg⟩ := exists_denoteList?_of_inline h₁ es hgs
    refine ⟨.all fs, ?_, Filter.Equivalent.all hfg⟩
    rw [denote?, hfs, Option.map_some]
  | any es =>
    obtain ⟨gs, hgs, rfl⟩ := Option.map_eq_some_iff.1 hg
    obtain ⟨fs, hfs, hfg⟩ := exists_denoteList?_of_inline h₁ es hgs
    refine ⟨.any fs, ?_, Filter.Equivalent.any hfg⟩
    rw [denote?, hfs, Option.map_some]
  | ident k =>
    rw [inline] at hg
    split_ifs at hg with hk
    · rw [h₁] at hg
      cases hg
      refine ⟨f₁.registeredAs k, ?_, Filter.equivalent_registeredAs k f₁⟩
      rw [denote?, Resolver.filter?_define, if_pos hk, Option.map_some]
    · refine ⟨g, ?_, Filter.Equivalent.refl g⟩
      rwa [denote?, Resolver.filter?_define, if_neg hk]
  | _ => exact ⟨g, hg, Filter.Equivalent.refl g⟩

theorem exists_denoteList?_of_inline (h₁ : inner.denote? names = some f₁) (es : List Expr)
    {gs : List (Filter π)} (hg : denoteList? names (inlineList es n inner) = some gs) :
    ∃ fs, denoteList? (names.define n f₁) es = some fs ∧ List.Forall₂ Filter.Equivalent fs gs := by
  cases es with
  | nil =>
    cases hg
    exact ⟨[], rfl, .nil⟩
  | cons e es =>
    obtain ⟨g, hg', hrest⟩ := Option.bind_eq_some_iff.1 hg
    obtain ⟨gs, hgs, hcons⟩ := Option.bind_eq_some_iff.1 hrest
    cases hcons
    obtain ⟨f, hf, hfg⟩ := exists_denote?_of_inline h₁ e hg'
    obtain ⟨fs, hfs, hfgs⟩ := exists_denoteList?_of_inline h₁ es hgs
    refine ⟨f :: fs, ?_, .cons hfg hfgs⟩
    rw [denoteList?, hf, hfs]
    rfl

end

end Expr

/-! ### Tokens in place of names -/

variable {b : Bool} {t : Token} {ts us vs ws : List Token} {k : String}

lemma inLevels_ident_of_not_mem (hn : n ∉ keywords) : inLevels false (.ident n) = false := by
  have h : n ∉ levelKeywords := fun h => hn (by simp_all [levelKeywords, keywords])
  simp [inLevels, h]

lemma inlineTokens_name (hn : n ∉ keywords) :
    inlineTokens n us false (.ident n :: ts) = us ++ inlineTokens n us false ts := by
  rw [inlineTokens, if_pos ⟨rfl, rfl⟩, inLevels_ident_of_not_mem hn]

lemma inlineTokens_cons (h : t = .ident n → b = true) :
    inlineTokens n us b (t :: ts) = t :: inlineTokens n us (inLevels b t) ts := by
  rw [inlineTokens, if_neg fun ht => by simp [h ht.1] at ht]
  rfl

/-- What is put in place of names begins with a name, so other tokens were there before, and so were
those of levels. -/
lemma of_inlineTokens_eq_cons (hus : ∃ k vs, us = .ident k :: vs)
    (ht : (∀ k, t ≠ .ident k) ∨ b = true) (h : inlineTokens n us b ts = t :: ws) :
    ∃ rest, ts = t :: rest ∧ ws = inlineTokens n us (inLevels b t) rest := by
  obtain ⟨k, vs, rfl⟩ := hus
  cases ts with
  | nil => cases h
  | cons t' ts =>
    by_cases ht' : t' = .ident n ∧ b = false
    · rw [inlineTokens, if_pos ht'] at h
      obtain ⟨rfl, -⟩ := List.cons.inj h
      rcases ht with ht | rfl
      · exact absurd rfl (ht k)
      · cases ht'.2
    · rw [inlineTokens, if_neg ht'] at h
      obtain ⟨rfl, rfl⟩ := List.cons.inj h
      exact ⟨ts, rfl, rfl⟩

lemma eq_nil_of_inlineTokens (hus : us ≠ []) (h : inlineTokens n us b ts = []) : ts = [] := by
  cases ts with
  | nil => rfl
  | cons t ts =>
    rw [inlineTokens, List.append_eq_nil_iff] at h
    split_ifs at h
    · exact absurd h.1 hus
    · cases h.1

/-- Wherever inlining gives these tokens in front, they have come of tokens of a certain kind, and
what is behind them has come of what follows those. -/
def Stems (n : String) (us : List Token) (b : Bool) (R : List Token → Prop) (vs : List Token) :
    Prop :=
  ∀ ts ws, inlineTokens n us b ts = vs ++ ws →
    ∃ xs rest, ts = xs ++ rest ∧ R xs ∧ ws = inlineTokens n us false rest

section

variable {R S : List Token → Prop}

lemma Stems.imp (h : Stems n us b R vs) (hRS : ∀ xs, R xs → S xs) : Stems n us b S vs := by
  intro ts ws hts
  obtain ⟨xs, rest, hxs, hR, hws⟩ := h ts ws hts
  exact ⟨xs, rest, hxs, hRS xs hR, hws⟩

lemma Stems.append (h : Stems n us b R vs) (h' : Stems n us false S ws) :
    Stems n us b (fun xs => ∃ ys zs, xs = ys ++ zs ∧ R ys ∧ S zs) (vs ++ ws) := by
  intro ts rest hts
  rw [List.append_assoc] at hts
  obtain ⟨ys, ts, rfl, hR, hws⟩ := h _ _ hts
  obtain ⟨zs, ts, rfl, hS, hrest⟩ := h' _ _ hws.symm
  exact ⟨ys ++ zs, ts, (List.append_assoc ..).symm, ⟨ys, zs, rfl, hR, hS⟩, hrest⟩

variable (hus : ∃ k vs, us = .ident k :: vs)

include hus

/-- Tokens that are no names stay. -/
lemma stems_marks (hvs : ∀ t ∈ vs, ∀ k, t ≠ .ident k) : Stems n us false (· = vs) vs := by
  induction vs with
  | nil => exact fun ts ws h => ⟨[], ts, rfl, rfl, h.symm⟩
  | cons t vs ih =>
    rw [List.forall_mem_cons] at hvs
    intro ts ws h
    obtain ⟨ts, rfl, hts⟩ := of_inlineTokens_eq_cons hus (.inl hvs.1) h
    have hb : inLevels false t = false := by
      cases t with
      | ident k => exact absurd rfl (hvs.1 k)
      | _ => rfl
    rw [hb] at hts
    obtain ⟨_, rest, rfl, rfl, hws⟩ := ih hvs.2 ts ws hts.symm
    exact ⟨_, rest, rfl, rfl, hws⟩

/-- So do the names of levels, up to the bracket that closes. -/
lemma stems_levels (hvs : ∀ t ∈ vs, inLevels true t = true) (ht : inLevels true t = false) :
    Stems n us true (· = vs ++ [t]) (vs ++ [t]) := by
  induction vs with
  | nil =>
    intro ts ws h
    obtain ⟨ts, rfl, hts⟩ := of_inlineTokens_eq_cons hus (.inr rfl) h
    rw [ht] at hts
    exact ⟨[t], ts, rfl, rfl, hts⟩
  | cons v vs ih =>
    rw [List.forall_mem_cons] at hvs
    intro ts ws h
    obtain ⟨ts, rfl, hts⟩ := of_inlineTokens_eq_cons hus (.inr rfl) h
    rw [hvs.1] at hts
    obtain ⟨_, rest, rfl, rfl, hws⟩ := ih hvs.2 ts ws hts.symm
    exact ⟨_, rest, rfl, rfl, hws⟩

lemma Stems.parens (h : Stems n us false R vs) :
    Stems n us false (fun xs => ∃ ys, xs = .leftParen :: ys ++ [.rightParen] ∧ R ys)
      (.leftParen :: vs ++ [.rightParen]) := by
  have hleft : Stems n us false (· = [.leftParen]) [.leftParen] := stems_marks hus (by simp)
  have hright : Stems n us false (· = [.rightParen]) [.rightParen] := stems_marks hus (by simp)
  refine (hleft.append (h.append hright)).imp ?_
  rintro _ ⟨_, _, rfl, rfl, ys, _, rfl, hR, rfl⟩
  exact ⟨ys, rfl, hR⟩

lemma stems_separated {α β : Type} {Item : α → List Token → Prop} {Item' : β → List Token → Prop}
    {g : α → β} (h : ∀ x vs, Item' x vs → Stems n us false (fun xs => ∃ a, Item a xs ∧ g a = x) vs)
    {xs : List β} (hs : Separated Item' xs vs) :
    Stems n us false (fun ys => ∃ as, Separated Item as ys ∧ as.map g = xs) vs := by
  induction hs with
  | one hx =>
    refine (h _ _ hx).imp ?_
    rintro ys ⟨a, ha, rfl⟩
    exact ⟨[a], .one ha, rfl⟩
  | more hx _ ih =>
    have hcomma : Stems n us false (· = [.comma]) [.comma] := stems_marks hus (by simp)
    refine ((h _ _ hx).append (hcomma.append ih)).imp ?_
    rintro _ ⟨ys, _, rfl, ⟨a, ha, rfl⟩, _, zs, rfl, rfl, as, has, rfl⟩
    exact ⟨a :: as, .more ha has, rfl⟩

end

lemma inlineList_eq_map (es : List Expr) (n : String) (inner : Expr) :
    Expr.inlineList es n inner = es.map fun e => e.inline n inner := by
  induction es with
  | nil => rfl
  | cons e es ih => rw [Expr.inlineList, ih, List.map_cons]

variable {x inner : Expr}

/-- A tree was there under the keyword or name that it begins with, or is all that was put in place
of the name. -/
lemma stems_head (hn : n ∉ keywords) (hinner : Derives inner us) (hx : Derives x (.ident k :: vs))
    {R : List Token → Prop} (hR : Stems n us (inLevels false (.ident k)) R vs)
    (himp : n ≠ k → ∀ xs, R xs → ∃ y, Derives y (.ident k :: xs) ∧ y.inline n inner = x) :
    Stems n us false (fun xs => ∃ y, Derives y xs ∧ y.inline n inner = x) (.ident k :: vs) := by
  intro ts ws h
  cases ts with
  | nil => cases h
  | cons t ts =>
    by_cases ht : t = .ident n
    · subst ht
      rw [inlineTokens_name hn] at h
      obtain ⟨rfl, rfl⟩ := prefixFree_derives hinner hx h
      refine ⟨[.ident n], ts, rfl, ⟨.ident n, .ident hn, ?_⟩, (List.append_cancel_left h).symm⟩
      rw [Expr.inline, if_pos rfl]
    · rw [inlineTokens_cons fun h => absurd h ht] at h
      obtain ⟨rfl, h⟩ := List.cons.inj h
      obtain ⟨xs, rest, rfl, hxs, hws⟩ := hR _ _ h
      exact ⟨.ident k :: xs, rest, rfl, himp (fun hk => ht (hk ▸ rfl)) xs hxs, hws⟩

/-- The same, if nothing under the keyword is put in place of a name. -/
lemma stems_same (hn : n ∉ keywords) (hinner : Derives inner us) (hx : Derives x (.ident k :: vs))
    (hvs : Stems n us (inLevels false (.ident k)) (· = vs) vs)
    (hi : n ≠ k → x.inline n inner = x) :
    Stems n us false (fun xs => ∃ y, Derives y xs ∧ y.inline n inner = x) (.ident k :: vs) :=
  stems_head hn hinner hx hvs fun hk _ hxs => ⟨x, hxs ▸ hx, hi hk⟩

lemma inLevels_of_separated {ns : List String} (h : Separated IsName ns vs) :
    ∀ t ∈ vs, inLevels true t = true := by
  induction h with
  | one h =>
    cases h
    simp [inLevels]
  | more h _ ih =>
    cases h
    simpa [inLevels] using ih

/-- What has a tree after inlining has one before, with the name where the other tree was put. -/
theorem stems_derives (hn : n ∉ keywords) (hinner : Derives inner us) (d : Nat) (x : Expr)
    (vs : List Token) (hx : DerivesWithin d x vs) :
    Stems n us false (fun xs => ∃ y, Derives y xs ∧ y.inline n inner = x) vs := by
  have hus := hinner.head
  -- all that is not a name or in the place of a level
  have hmarks : ∀ vs : List Token, (∀ t ∈ vs, ∀ k, t ≠ .ident k) → Stems n us false (· = vs) vs :=
    fun vs => stems_marks hus
  induction d generalizing x vs with
  | zero => exact absurd hx.2 (Nat.not_le.2 (depth_pos x))
  | succ d ih =>
    obtain ⟨hx, hd⟩ := hx
    obtain ⟨k, vs, rfl⟩ := hx.head
    cases k using keyword_cases with
    | accept =>
      obtain ⟨rfl, rfl⟩ := derives_accept_iff.1 hx
      exact stems_same hn hinner hx (hmarks [] (by simp)) fun _ => rfl
    | deny =>
      obtain ⟨rfl, rfl⟩ := derives_deny_iff.1 hx
      exact stems_same hn hinner hx (hmarks [] (by simp)) fun _ => rfl
    | not =>
      obtain ⟨x, vs, rfl, rfl, h⟩ := derives_not_iff.1 hx
      refine stems_head hn hinner hx (Stems.parens hus (ih x vs ⟨h, Nat.le_of_succ_le_succ hd⟩)) ?_
      rintro _ _ ⟨ys, rfl, y, hy, rfl⟩
      exact ⟨.not y, .not hy, rfl⟩
    | all =>
      obtain ⟨xs, vs, rfl, rfl, h⟩ := derives_all_iff.1 hx
      have hs := separated_derivesWithin_iff.2 ⟨h, Nat.le_of_succ_le_succ hd⟩
      refine stems_head hn hinner hx (Stems.parens hus (stems_separated hus ih hs)) ?_
      rintro _ _ ⟨ys, rfl, es, hes, rfl⟩
      exact ⟨.all es, .all hes, by rw [Expr.inline, inlineList_eq_map]⟩
    | any =>
      obtain ⟨xs, vs, rfl, rfl, h⟩ := derives_any_iff.1 hx
      have hs := separated_derivesWithin_iff.2 ⟨h, Nat.le_of_succ_le_succ hd⟩
      refine stems_head hn hinner hx (Stems.parens hus (stems_separated hus ih hs)) ?_
      rintro _ _ ⟨ys, rfl, es, hes, rfl⟩
      exact ⟨.any es, .any hes, by rw [Expr.inline, inlineList_eq_map]⟩
    | levels =>
      obtain ⟨ns, vs, rfl, rfl, h⟩ := derives_levels_iff.1 hx
      have hvs : ∀ t ∈ .leftParen :: vs, inLevels true t = true :=
        List.forall_mem_cons.2 ⟨rfl, inLevels_of_separated h⟩
      exact stems_same hn hinner hx (stems_levels hus hvs rfl) fun _ => rfl
    | levelRange =>
      obtain ⟨minIn, min, max, maxIn, rfl, rfl⟩ := derives_levelRange_iff.1 hx
      have hvs : ∀ t ∈ [openingBracket minIn, .ident min, .comma, .ident max],
          inLevels true t = true := by
        cases minIn <;> simp [inLevels, openingBracket]
      have hclose : inLevels true (closingBracket maxIn) = false := by cases maxIn <;> rfl
      exact stems_same hn hinner hx (stems_levels hus hvs hclose) fun _ => rfl
    | levelChange =>
      obtain ⟨name, rfl, rfl⟩ := derives_levelChange_iff.1 hx
      have hvs : ∀ t ∈ [.leftParen, .ident name], inLevels true t = true := by simp [inLevels]
      exact stems_same hn hinner hx (stems_levels hus hvs rfl) fun _ => rfl
    | «match» =>
      obtain ⟨p, rfl, rfl⟩ := derives_match_iff.1 hx
      exact stems_same hn hinner hx (hmarks _ (by simp)) fun _ => rfl
    | substitute =>
      obtain ⟨p, r, rfl, rfl⟩ := derives_substitute_iff.1 hx
      exact stems_same hn hinner hx (hmarks _ (by simp)) fun _ => rfl
    | substituteAll =>
      obtain ⟨p, r, rfl, rfl⟩ := derives_substituteAll_iff.1 hx
      exact stems_same hn hinner hx (hmarks _ (by simp)) fun _ => rfl
    | ident k hk =>
      obtain ⟨rfl, rfl⟩ := (derives_ident_iff hk).1 hx
      have hnil := hmarks [] (by simp)
      rw [← inLevels_ident_of_not_mem hk] at hnil
      refine stems_same hn hinner hx hnil fun hne => ?_
      rw [Expr.inline, if_neg hne]

/-! ### Texts in place of names -/

variable {c : Char} {cs rest : List Char} {p : Piece} {ps : List Piece}

/-- A text that is cut into tokens is cut so before others. -/
lemma writes_of_tokenize {text : String} {us : List Placed} (h : tokenize text = .ok us) :
    Filter.Writes text (us.map Placed.token) := by
  obtain ⟨l, hl, rfl⟩ := tokenize_eq_ok_iff.1 h
  intro cs ts hcs hts
  rw [← hl, Layout.tokens, map_token_placed]
  exact l.lexes_append hcs hts

lemma Lexes.blank {gap : List Char} (hgap : ∀ c ∈ gap, isBlank c = true) (h : Lexes cs ts) :
    Lexes (gap ++ cs) ts := by
  intro position
  rw [tokenizeFrom_blank hgap]
  exact h _

lemma Lexeme.ne_ident_of_stops {source : List Char} (h : Lexeme source t)
    (hs : Stops (source ++ rest)) (name : String) : t ≠ .ident name := by
  rintro rfl
  cases h with
  | punctuation h => exact punctuation?_ne_ident _ name (punctuation?_eq_some_iff.2 h)
  | ident h =>
    obtain ⟨c, cs, hname, hc, -⟩ := h
    have hpart := hs c (by simp [hname])
    rw [isIdentPart_of_isIdentStart hc] at hpart
    cases hpart

/-- Where a name ends, it still does so after inlining: a name that was replaced there would have
white space before it. -/
lemma stops_inlineText (h : Stops (spell ps rest)) : Stops (inlineText n cs b ps rest) := by
  cases ps with
  | nil => exact h
  | cons p ps =>
    refine stops_append_of_blank p.blank fun hgap => ?_
    rw [spell, hgap, List.nil_append] at h
    have hp := p.lexeme.ne_ident_of_stops h
    rw [if_neg fun hn => hp n hn.1]
    exact p.lexeme.stops_append hp _

/-- The tokens after inlining are those of the texts, each in its place. -/
lemma lexes_inlineText {inner : String} (hw : Filter.Writes inner us)
    (hrest : ∀ c ∈ rest, isBlank c = true) (h : Maximal rest ps) (b : Bool) :
    Lexes (inlineText n inner.toList b ps rest) (inlineTokens n us b (ps.map Piece.token)) := by
  induction ps generalizing b with
  | nil =>
    have hlast : Lexes (rest ++ []) [] := Lexes.blank hrest lexes_nil
    rwa [List.append_nil] at hlast
  | cons p ps ih =>
    rw [inlineText, List.map_cons, inlineTokens]
    refine Lexes.blank p.blank ?_
    split_ifs with hp
    · exact hw _ _ (stops_inlineText (h.1 n hp.1)) (ih h.2 _)
    · exact (ih h.2 _).lexeme p.lexeme fun name hname => stops_inlineText (h.1 name hname)

/-! ### Names of filters -/

variable [Pattern.Engine] {names : Resolver π} {f : Filter π} {inner outer text : String}

/-- A name by itself is the filter that goes by it. -/
lemma parse_define (names : Resolver π) (f : Filter π) (hi : IsIdentifier n) (hn : n ∉ keywords) :
    parse (names.define n f) n = .ok (f.registeredAs n) := by
  have hlexes : Lexes (n.toList ++ []) [.ident n] :=
    Lexes.ident hi (fun _ hc => nomatch hc) lexes_nil
  rw [List.append_nil] at hlexes
  obtain ⟨ts, hts, htoken⟩ := tokenize_of_lexes hlexes
  refine parse_eq_ok_iff.2 ⟨ts, hts, .ident n, ⟨htoken ▸ .ident hn, ?_⟩, ?_⟩
  · exact Nat.succ_le_succ (Nat.zero_le 63)
  · rw [Expr.denote?, Resolver.filter?_define, if_pos rfl, Option.map_some]

namespace Parse

variable {stop d : Nat} {names : Resolver π} {f : Filter π}

lemma term_define_of_mem (hn : n ∈ keywords) (inner : Parse (Filter π)) (k : String)
    (position : Nat) :
    term stop (names.define n f) inner k position = term stop names inner k position := by
  cases k using keyword_cases with
  | ident k hk =>
    have hne : n ≠ k := fun h => hk (h ▸ hn)
    rw [term_ident inner hk, term_ident inner hk, Resolver.filter?_define, if_neg hne]
  | _ => rfl

lemma expr_define_of_mem (hn : n ∈ keywords) :
    expr stop (names.define n f) d = expr stop names d := by
  induction d with
  | zero => rfl
  | succ d ih => simp only [expr, ih, term_define_of_mem hn]

end Parse

/-- A filter under a keyword is nowhere looked up. -/
lemma parse_define_of_mem (names : Resolver π) (f : Filter π) (hn : n ∈ keywords) (text : String) :
    parse (names.define n f) text = parse names text := by
  simp only [parse, Parse.whole, Parse.expr_define_of_mem hn]

/-- If a text can be read where another was put in place of a name, it can be read with the name,
where this stands for the filter of the other text, and is the same filter. -/
theorem exists_parse_of_inlines (hn : n ∉ keywords) {f₁ g : Filter π}
    (h₁ : parse names inner = .ok f₁) (hi : Inlines n inner outer text)
    (hg : parse names text = .ok g) :
    ∃ f, parse (names.define n f₁) outer = .ok f ∧ f.Equivalent g := by
  obtain ⟨us, hus, x₁, ⟨hx₁, -⟩, hf₁⟩ := parse_eq_ok_iff.1 h₁
  obtain ⟨vs, hvs, x, hx, hx'⟩ := parse_eq_ok_iff.1 hg
  obtain ⟨l, hl, htext⟩ := hi
  -- the tokens of the text are those of the two others, put together
  have hlexes := lexes_inlineText (n := n) (writes_of_tokenize hus) l.blank l.maximal false
  rw [← htext] at hlexes
  obtain ⟨vs', hvs', htokens⟩ := tokenize_of_lexes hlexes
  obtain rfl : vs = vs' := Except.ok.inj (hvs.symm.trans hvs')
  -- so all of them have a tree with the name
  obtain ⟨xs, rest, hxs, ⟨y, hy, rfl⟩, hrest⟩ :=
    stems_derives hn hx₁ maxNesting x _ hx (l.pieces.map Piece.token) [] (by simp [htokens])
  have hne : us.map Placed.token ≠ [] := by
    obtain ⟨k, us, hus⟩ := hx₁.head
    simp [hus]
  obtain rfl := eq_nil_of_inlineTokens hne hrest.symm
  rw [List.append_nil] at hxs
  obtain ⟨f, hf, hfg⟩ := Expr.exists_denote?_of_inline hf₁ y hx'
  refine ⟨f, parse_eq_ok_iff.2 ⟨l.tokens, tokenize_eq_ok_iff.2 ⟨l, hl, rfl⟩, y, ⟨?_, ?_⟩, hf⟩, hfg⟩
  · rwa [Layout.tokens, map_token_placed, hxs]
  · exact Nat.le_trans (Expr.depth_le_inline y) hx.2

end Logging.Expression
