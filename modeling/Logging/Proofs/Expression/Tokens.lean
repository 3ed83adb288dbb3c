import Mathlib.Tactic.Common
import Logging.Expression.Lexer

/-!
# Texts and their tokens

What a text is cut into, from its front: a name that cannot go on, a mark of punctuation or a
quoted string is a lexeme (`Lexeme`) and gives one token, and the rest is cut as it would be alone
(`tokenizeFrom_lexeme`, `Lexes`). Quoting is undone by reading the string, whatever its characters.
All names that a text is cut into have the shape of identifiers (`isIdentifier_of_tokenize`).
-/

namespace Logging

namespace Text.CharSet

variable {s t : CharSet} {n : Nat}

/-- What is found lies in one of the ranges. -/
lemma exists_range_of_search {ranges : Array (Nat × Nat)} {lo hi : Nat}
    (h : search ranges n lo hi = true) : ∃ r ∈ ranges.toList, r.1 ≤ n ∧ n ≤ r.2 := by
  fun_induction search ranges n lo hi with
  | case1 => cases h
  | case2 _ _ _ _ _ _ _ _ ih => exact ih h
  | case3 _ _ _ _ _ _ _ _ _ ih => exact ih h
  | case4 lo hi hlt mid first last hr h1 h2 =>
    exact ⟨(first, last), Array.mem_toList_iff.2 (Array.mem_of_getElem? hr),
      Nat.le_of_not_lt h1, Nat.le_of_not_lt h2⟩
  | case5 => cases h

/-- Sets whose ranges lie apart have no character in common. -/
lemma not_contains_of_apart {c : Char}
    (h : ∀ r ∈ s.ranges.toList, ∀ r' ∈ t.ranges.toList, r.2 < r'.1 ∨ r'.2 < r.1)
    (hc : s.contains c = true) : t.contains c = false := by
  apply Bool.eq_false_iff.2
  intro ht
  obtain ⟨r, hr, hr1, hr2⟩ := exists_range_of_search hc
  obtain ⟨r', hr', hr1', hr2'⟩ := exists_range_of_search ht
  have := h r hr r' hr'
  omega

end Text.CharSet

namespace Expression

/-! ### Characters -/

/-- A name that is cut out of a text as a whole. -/
def IsIdentifier (name : String) : Prop :=
  ∃ c cs, name.toList = c :: cs ∧ isIdentStart c = true ∧ ∀ d ∈ cs, isIdentPart d = true

instance (name : String) : Decidable (IsIdentifier name) :=
  match h : name.toList with
  | [] => isFalse fun ⟨_, _, h', _⟩ => nomatch h.symm.trans h'
  | c :: cs => decidable_of_iff (isIdentStart c = true ∧ cs.all isIdentPart = true)
    ⟨fun hc => ⟨c, cs, h, hc.1, List.all_eq_true.1 hc.2⟩, fun ⟨_, _, h', hc⟩ => by
      cases h.symm.trans h'
      exact ⟨hc.1, List.all_eq_true.2 hc.2⟩⟩

/-- No name goes on into the text. -/
def Stops (cs : List Char) : Prop := ∀ c ∈ cs.head?, isIdentPart c = false

variable {c : Char} {cs : List Char} {t : Token} {ts : List Token} {name : String}

lemma isIdentPart_of_isIdentStart (h : isIdentStart c = true) : isIdentPart c = true := by
  simp only [isIdentStart, isIdentPart, Bool.or_eq_true] at h ⊢
  tauto

lemma isBlank_of_isIdentPart (h : isIdentPart c = true) : isBlank c = false := by
  simp only [isIdentPart, Bool.or_eq_true, beq_iff_eq] at h
  rcases h with (((h | h) | rfl) | rfl) | rfl
  · exact Text.CharSet.not_contains_of_apart (by decide +kernel) h
  · exact Text.CharSet.not_contains_of_apart (by decide +kernel) h
  · decide +kernel
  · decide +kernel
  · decide +kernel

lemma isBlank_of_isIdentStart (h : isIdentStart c = true) : isBlank c = false :=
  isBlank_of_isIdentPart (isIdentPart_of_isIdentStart h)

lemma isIdentPart_of_isBlank (h : isBlank c = true) : isIdentPart c = false := by
  apply Bool.eq_false_iff.2
  intro hpart
  rw [isBlank_of_isIdentPart hpart] at h
  cases h

lemma ne_quote_of_isIdentStart (h : isIdentStart c = true) : c ≠ '"' := by
  rintro rfl
  have hq : isIdentStart '"' = false := by decide +kernel
  rw [hq] at h
  cases h

/-- Marks of punctuation are nothing else. -/
lemma of_punctuation? (h : punctuation? c = some t) :
    isBlank c = false ∧ c ≠ '"' ∧ isIdentStart c = false ∧ isIdentPart c = false := by
  unfold punctuation? at h
  split at h
  case h_6 => cases h
  all_goals exact ⟨by decide +kernel, by decide, by decide +kernel, by decide +kernel⟩

lemma punctuation?_ne_ident (c : Char) (name : String) : punctuation? c ≠ some (.ident name) := by
  unfold punctuation?
  split <;> simp

lemma stops_cons_of_punctuation? (h : punctuation? c = some t) : Stops (c :: cs) := by
  intro d hd
  cases hd
  exact (of_punctuation? h).2.2.2

lemma Stops.takeWhile (h : Stops cs) : cs.takeWhile isIdentPart = [] := by
  cases cs with
  | nil => rfl
  | cons c cs => exact List.takeWhile_cons_of_neg (by simp [h c rfl])

lemma Stops.dropWhile (h : Stops cs) : cs.dropWhile isIdentPart = cs := by
  cases cs with
  | nil => rfl
  | cons c cs => exact List.dropWhile_cons_of_neg (by simp [h c rfl])

/-! ### Widths -/

@[simp]
lemma width_append (cs ds : List Char) : width (cs ++ ds) = width cs + width ds := by
  induction cs with
  | nil => simp [width]
  | cons c cs ih => simp [width, ih, Nat.add_assoc]

/-! ### Strings -/

/-- The characters that may follow a backslash, each with what it stands for. -/
def escapes : List (Char × Char) :=
  [('\\', '\\'), ('"', '"'), ('\'', '\''), ('b', '\x08'), ('f', '\x0c'), ('n', '\n'), ('r', '\r'),
    ('t', '\t')]

lemma unescape?_eq_some_iff {e : Char} : unescape? e = some c ↔ (e, c) ∈ escapes := by
  constructor
  · intro h
    unfold unescape? at h
    split at h <;> cases h <;> simp [escapes]
  · intro h
    simp only [escapes, List.mem_cons, List.not_mem_nil, or_false, Prod.mk.injEq] at h
    rcases h with h | h | h | h | h | h | h | h <;> obtain ⟨rfl, rfl⟩ := h <;> rfl

/-- What stands between the quotes of a string, and its value: a backslash begins an escape, and all
else but a quote stands for itself. -/
inductive Unescapes : List Char → List Char → Prop
  | nil : Unescapes [] []
  | plain {c : Char} {body value : List Char} (hq : c ≠ '"') (hb : c ≠ '\\')
      (h : Unescapes body value) : Unescapes (c :: body) (c :: value)
  | escape {e c : Char} {body value : List Char} (he : (e, c) ∈ escapes)
      (h : Unescapes body value) : Unescapes ('\\' :: e :: body) (c :: value)

variable {start position : Nat} {body value : List Char}

lemma stringBody_plain (hq : c ≠ '"') (hb : c ≠ '\\') :
    stringBody start (c :: cs) position =
      (stringBody start cs (position + c.utf8Size)).map fun r => (c :: r.1, r.2) := by
  rw [stringBody]
  all_goals assumption

lemma stringBody_escaped {e : Char} (h : unescape? e = some c) :
    stringBody start ('\\' :: e :: cs) position =
      (stringBody start cs (position + 2)).map fun r => (c :: r.1, r.2) := by
  simp [stringBody, h]

lemma utf8Size_of_mem_escapes {e : Char} (h : (e, c) ∈ escapes) : e.utf8Size = 1 := by
  have hsize : ∀ x ∈ escapes, x.1.utf8Size = 1 := by decide
  exact hsize _ h

/-- What is read of a string before something of which nothing is known yet. -/
lemma Unescapes.stringBody_append (h : Unescapes body value) (start : Nat) (cs : List Char)
    (position : Nat) :
    stringBody start (body ++ cs) position =
      (stringBody start cs (position + width body)).map fun r => (value ++ r.1, r.2) := by
  induction h generalizing position with
  | nil => cases h : stringBody start cs position <;> simp [width, h, Except.map]
  | plain hq hb _ ih =>
    rw [List.cons_append, stringBody_plain hq hb, ih, width, Nat.add_assoc]
    cases stringBody start cs _ <;> rfl
  | @escape e c body value he _ ih =>
    have hwidth : width ('\\' :: e :: body) = 2 + width body := by
      rw [width, width, utf8Size_of_mem_escapes he, ← Nat.add_assoc]
      rfl
    rw [List.cons_append, List.cons_append, stringBody_escaped (unescape?_eq_some_iff.2 he), ih,
      hwidth, Nat.add_assoc]
    cases stringBody start cs _ <;> rfl

/-- A quoted character is read as that character. -/
lemma Unescapes.sourceChar_append (c : Char) (h : Unescapes body value) :
    Unescapes (Text.Quoted.sourceChar c ++ body) (c :: value) := by
  unfold Text.Quoted.sourceChar
  split
  case h_8 h1 h2 _ _ _ _ _ => exact .plain h2 h1 h
  all_goals exact .escape (by simp [escapes]) h

lemma unescapes_source (cs : List Char) : Unescapes (cs.flatMap Text.Quoted.sourceChar) cs := by
  induction cs with
  | nil => exact .nil
  | cons c cs ih => exact ih.sourceChar_append c

/-! ### Lexemes -/

/-- The marks of punctuation, each with its token. -/
def punctuation : List (Char × Token) :=
  [('(', .leftParen), (')', .rightParen), ('[', .leftBracket), (']', .rightBracket), (',', .comma)]

lemma punctuation?_eq_some_iff : punctuation? c = some t ↔ (c, t) ∈ punctuation := by
  constructor
  · intro h
    unfold punctuation? at h
    split at h <;> cases h <;> simp [punctuation]
  · intro h
    simp only [punctuation, List.mem_cons, List.not_mem_nil, or_false, Prod.mk.injEq] at h
    rcases h with h | h | h | h | h <;> obtain ⟨rfl, rfl⟩ := h <;> rfl

/-- The characters that give a token. -/
inductive Lexeme : List Char → Token → Prop
  | punctuation {c : Char} {t : Token} (h : (c, t) ∈ punctuation) : Lexeme [c] t
  | ident {name : String} (h : IsIdentifier name) : Lexeme name.toList (.ident name)
  | string {body value : List Char} (h : Unescapes body value) :
    Lexeme ('"' :: body ++ ['"']) (.string (String.ofList value))

/-- A text is cut at the end of a lexeme, if no name goes on there. -/
theorem tokenizeFrom_lexeme {source : List Char} (h : Lexeme source t)
    (hcs : ∀ name, t = .ident name → Stops cs) (position : Nat) :
    tokenizeFrom (source ++ cs) position =
      (tokenizeFrom cs (position + width source)).map (⟨t, position⟩ :: ·) := by
  cases h with
  | @punctuation c t h =>
    have hc := punctuation?_eq_some_iff.2 h
    have hsize : ∀ x ∈ punctuation, width [x.1] = 1 := by decide
    obtain ⟨hb, hq, hs, -⟩ := of_punctuation? hc
    rw [List.singleton_append, tokenizeFrom, hsize _ h]
    simp only [hb, hq, hs, hc, Bool.false_eq_true, if_false]
  | @ident name hn =>
    obtain ⟨c, part, hname, hc, hpart⟩ := hn
    have hstop := hcs name rfl
    have htake : (part ++ cs).takeWhile isIdentPart = part := by
      simp [List.takeWhile_append_of_pos hpart, hstop.takeWhile, List.append_nil]
    have hdrop : (part ++ cs).dropWhile isIdentPart = cs := by
      simp [List.dropWhile_append_of_pos hpart, hstop.dropWhile]
    rw [hname, List.cons_append, tokenizeFrom]
    simp only [isBlank_of_isIdentStart hc, ne_quote_of_isIdentStart hc, hc, Bool.false_eq_true,
      if_false, if_true, htake, hdrop, ← hname, String.ofList_toList]
  | @string body value h =>
    have hb : isBlank '"' = false := by decide +kernel
    have hbody : stringBody position (body ++ '"' :: cs) (position + 1) =
        .ok (value, cs, position + width ('"' :: body ++ ['"'])) := by
      rw [h.stringBody_append, stringBody, Except.map, List.append_nil]
      simp only [width, width_append, List.cons_append, Except.ok.injEq, Prod.mk.injEq, true_and]
      have hsize : '"'.utf8Size = 1 := rfl
      omega
    rw [List.append_assoc, List.cons_append, List.singleton_append, tokenizeFrom, hb,
      if_neg Bool.false_ne_true, if_pos rfl]
    split
    · next e he =>
      rw [hbody] at he
      cases he
    · next value' rest next hr =>
      rw [hbody] at hr
      cases hr
      rfl

/-! ### Tokens -/

/-- The text is cut into these tokens, wherever it begins. -/
def Lexes (cs : List Char) (ts : List Token) : Prop :=
  ∀ position, ∃ us, tokenizeFrom cs position = .ok us ∧ us.map Placed.token = ts

lemma lexes_nil : Lexes [] [] := fun _ => ⟨[], by rw [tokenizeFrom], rfl⟩

lemma Lexes.lexeme {source : List Char} (hl : Lexeme source t)
    (hcs : ∀ name, t = .ident name → Stops cs) (h : Lexes cs ts) :
    Lexes (source ++ cs) (t :: ts) := by
  intro position
  obtain ⟨us, hus, rfl⟩ := h (position + width source)
  refine ⟨⟨t, position⟩ :: us, ?_, rfl⟩
  rw [tokenizeFrom_lexeme hl hcs, hus]
  rfl

lemma Lexes.punctuation (hc : punctuation? c = some t) (h : Lexes cs ts) :
    Lexes (c :: cs) (t :: ts) := by
  refine Lexes.lexeme (.punctuation (punctuation?_eq_some_iff.1 hc)) (fun name hname => ?_) h
  exact absurd (hname ▸ hc) (punctuation?_ne_ident c name)

lemma Lexes.ident (hn : IsIdentifier name) (hcs : Stops cs) (h : Lexes cs ts) :
    Lexes (name.toList ++ cs) (.ident name :: ts) :=
  Lexes.lexeme (.ident hn) (fun _ _ => hcs) h

lemma Lexes.string (s : String) (h : Lexes cs ts) :
    Lexes ((Text.Quoted.source s).toList ++ cs) (.string s :: ts) := by
  have hl : Lexeme (Text.Quoted.source s).toList (.string s) := by
    rw [Text.Quoted.source, String.toList_ofList]
    simpa using Lexeme.string (unescapes_source s.toList)
  exact Lexes.lexeme hl (fun _ hname => nomatch hname) h

/-- All names among the tokens have the shape of identifiers. -/
theorem isIdentifier_of_tokenizeFrom {position : Nat} {us : List Placed}
    (h : tokenizeFrom cs position = .ok us) (hn : .ident name ∈ us.map Placed.token) :
    IsIdentifier name := by
  fun_induction tokenizeFrom cs position generalizing us with
  | case1 =>
    cases h
    cases hn
  | case2 _ _ _ _ ih => exact ih h hn
  | case3 | case7 => cases h
  | case4 position cs value rest next _ _ _ ih =>
    obtain ⟨us, hus, rfl⟩ := ok_of_map h
    rw [List.map_cons, List.mem_cons] at hn
    exact ih hus (hn.resolve_left (by simp))
  | case5 position c cs _ _ hc =>
    rename_i ih
    obtain ⟨us, hus, rfl⟩ := ok_of_map h
    rw [List.map_cons, List.mem_cons, Token.ident.injEq] at hn
    rcases hn with rfl | hn
    · exact ⟨c, _, String.toList_ofList, hc, List.all_eq_true.1 List.all_takeWhile⟩
    · exact ih hus hn
  | case6 position c cs _ _ _ t ht ih =>
    obtain ⟨us, hus, rfl⟩ := ok_of_map h
    rw [List.map_cons, List.mem_cons] at hn
    refine ih hus (hn.resolve_left ?_)
    rintro rfl
    exact absurd ht (punctuation?_ne_ident c name)

theorem isIdentifier_of_tokenize {text : String} {us : List Placed}
    (h : tokenize text = .ok us) (hn : .ident name ∈ us.map Placed.token) : IsIdentifier name :=
  isIdentifier_of_tokenizeFrom h hn

lemma tokenize_of_lexes {text : String} (h : Lexes text.toList ts) :
    ∃ us, tokenize text = .ok us ∧ us.map Placed.token = ts := h 0

end Expression

end Logging
