import Mathlib.Data.String.Basic
import Mathlib.Tactic.Common
import Logging.Proofs.Expression.Tokens

/-!
# Texts as layouts of lexemes

A text that can be cut into tokens is laid out as lexemes with white space between them, where each
name is as long as it can be (`Layout`). The tokens are those of the lexemes, each at the byte at
which its lexeme begins (`Layout.tokens`), and so white space is of no account for them, but that it
keeps names apart. In any other text there is a flaw right behind such a layout (`Flaw`), and this
is what is reported.

Every text is one or the other, whatever a tokenizer does with it (`exists_spell`), and the
tokenizer is followed along the pieces (`tokenizeFrom_spell`).
-/

namespace Logging.Expression

lemma width_toList (s : String) : width s.toList = s.utf8ByteSize := by
  have h : ∀ cs : List Char, width cs = String.utf8Len cs := by
    intro cs
    induction cs with
    | nil => rfl
    | cons c cs ih => rw [width, ih, String.utf8Len_cons, Nat.add_comm]
  rw [h, String.utf8Len_toList]

/-! ### Pieces of a text -/

/-- A lexeme, with the white space before it. -/
structure Piece where
  gap : List Char
  source : List Char
  token : Token
  blank : ∀ c ∈ gap, isBlank c = true
  lexeme : Lexeme source token

/-- A lexeme with nothing before it. -/
def Piece.ofLexeme {source : List Char} {token : Token} (h : Lexeme source token) : Piece :=
  ⟨[], source, token, by simp, h⟩

/-- The text of some pieces, with what follows them. -/
def spell : List Piece → List Char → List Char
  | [], rest => rest
  | p :: ps, rest => p.gap ++ (p.source ++ spell ps rest)

/-- The tokens of some pieces of a text, from the byte `position` on. -/
def placed : Nat → List Piece → List Placed
  | _, [] => []
  | position, p :: ps =>
    ⟨p.token, position + width p.gap⟩ :: placed (position + width p.gap + width p.source) ps

/-- No name among the pieces goes on into what follows it. -/
def Maximal (rest : List Char) : List Piece → Prop
  | [] => True
  | p :: ps => (∀ name, p.token = .ident name → Stops (spell ps rest)) ∧ Maximal rest ps

/-- White space stands between any two names that follow each other. -/
def Apart (ps : List Piece) : Prop :=
  ps.IsChain fun p q => (∃ n, p.token = .ident n) → (∃ n, q.token = .ident n) → q.gap ≠ []

variable {c : Char} {cs gap rest source : List Char} {t : Token} {p : Piece} {ps : List Piece}
  {position : Nat}

lemma spell_append (ps : List Piece) (cs rest : List Char) :
    spell ps (cs ++ rest) = spell ps cs ++ rest := by
  induction ps with
  | nil => rfl
  | cons p ps ih => simp [spell, ih]

lemma map_token_placed (position : Nat) (ps : List Piece) :
    (placed position ps).map Placed.token = ps.map Piece.token := by
  induction ps generalizing position with
  | nil => rfl
  | cons p ps ih => simp [placed, ih]

/-! ### Where names end -/

lemma Stops.of_append (h : Stops (cs ++ rest)) : Stops cs := by
  cases cs with
  | nil => exact fun _ hc => nomatch hc
  | cons c cs => exact h

lemma Stops.append (h : Stops cs) (h' : Stops rest) : Stops (cs ++ rest) := by
  cases cs with
  | nil => exact h'
  | cons c cs => exact h

lemma stops_append_of_blank (hgap : ∀ c ∈ gap, isBlank c = true) (hrest : gap = [] → Stops rest) :
    Stops (gap ++ rest) := by
  cases gap with
  | nil => exact hrest rfl
  | cons c gap =>
    intro d hd
    cases hd
    exact isIdentPart_of_isBlank (hgap c List.mem_cons_self)

/-- A lexeme that is no name begins with a character that is in no name. -/
lemma Lexeme.stops_append (h : Lexeme source t) (ht : ∀ name, t ≠ .ident name) (rest : List Char) :
    Stops (source ++ rest) := by
  cases h with
  | punctuation h => exact stops_cons_of_punctuation? (punctuation?_eq_some_iff.2 h)
  | ident => exact absurd rfl (ht _)
  | string h =>
    intro d hd
    cases hd
    decide +kernel

lemma Maximal.of_append (h : Maximal (cs ++ rest) ps) : Maximal cs ps := by
  induction ps with
  | nil => trivial
  | cons p ps ih =>
    refine ⟨fun name hname => ?_, ih h.2⟩
    have hstops := h.1 name hname
    rw [spell_append] at hstops
    exact hstops.of_append

lemma Maximal.append (h : Maximal rest ps) (hcs : Stops cs) : Maximal (rest ++ cs) ps := by
  induction ps with
  | nil => trivial
  | cons p ps ih =>
    refine ⟨fun name hname => ?_, ih h.2⟩
    rw [spell_append]
    exact (h.1 name hname).append hcs

/-- White space between names is enough for them to end where they should. -/
lemma maximal_of_apart (hrest : ∀ c ∈ rest, isBlank c = true) (h : Apart ps) : Maximal rest ps := by
  induction ps with
  | nil => trivial
  | cons p ps ih =>
    refine ⟨fun name hname => ?_, ih h.of_cons⟩
    cases ps with
    | nil =>
      have hstops : Stops (rest ++ []) := stops_append_of_blank hrest fun _ c hc => nomatch hc
      rwa [List.append_nil] at hstops
    | cons q qs =>
      have hpq := (List.isChain_cons_cons.1 h).1 ⟨name, hname⟩
      refine stops_append_of_blank q.blank fun hgap => q.lexeme.stops_append (fun n hn => ?_) _
      exact hpq ⟨n, hn⟩ hgap

/-! ### Positions -/

lemma Lexeme.width_pos (h : Lexeme source t) : 0 < width source := by
  have hcons (c : Char) (cs : List Char) : 0 < width (c :: cs) :=
    Nat.add_pos_left c.utf8Size_pos _
  cases h with
  | punctuation | string => exact hcons _ _
  | ident h =>
    obtain ⟨c, cs, hname, -⟩ := h
    rw [hname]
    exact hcons c cs

lemma le_position_of_mem_placed {u : Placed} (hu : u ∈ placed position ps) :
    position ≤ u.position := by
  induction ps generalizing position with
  | nil => cases hu
  | cons p ps ih =>
    rcases List.mem_cons.1 hu with rfl | hu
    · exact Nat.le_add_right _ _
    · have := ih hu
      omega

lemma placed_increasing (position : Nat) (ps : List Piece) :
    (placed position ps).Pairwise fun u v => u.position < v.position := by
  induction ps generalizing position with
  | nil => exact .nil
  | cons p ps ih =>
    refine List.pairwise_cons.2 ⟨fun u hu => ?_, ih _⟩
    have hle := le_position_of_mem_placed hu
    have hpos := p.lexeme.width_pos
    change position + width p.gap < u.position
    omega

/-- A token is at the byte at which its lexeme begins. -/
lemma exists_lexeme_of_mem_placed {u : Placed} (rest : List Char) (hu : u ∈ placed position ps) :
    ∃ before source after, spell ps rest = before ++ source ++ after ∧ Lexeme source u.token ∧
      u.position = position + width before := by
  induction ps generalizing position with
  | nil => cases hu
  | cons p ps ih =>
    rcases List.mem_cons.1 hu with rfl | hu
    · exact ⟨p.gap, p.source, spell ps rest, by simp [spell], p.lexeme, rfl⟩
    · obtain ⟨before, source, after, hspell, hl, hu⟩ := ih hu
      refine ⟨p.gap ++ (p.source ++ before), source, after, by simp [spell, hspell], hl, ?_⟩
      rw [hu, width_append, width_append]
      omega

/-! ### Cutting along the pieces -/

lemma tokenizeFrom_blank (hgap : ∀ c ∈ gap, isBlank c = true) (cs : List Char) (position : Nat) :
    tokenizeFrom (gap ++ cs) position = tokenizeFrom cs (position + width gap) := by
  induction gap generalizing position with
  | nil => rfl
  | cons c gap ih =>
    obtain ⟨hc, hgap⟩ := List.forall_mem_cons.1 hgap
    rw [List.cons_append, tokenizeFrom, if_pos hc, ih hgap, width, Nat.add_assoc]

/-- The pieces give their tokens, and the rest is cut as it would be alone. -/
theorem tokenizeFrom_spell (h : Maximal rest ps) (position : Nat) :
    tokenizeFrom (spell ps rest) position =
      (tokenizeFrom rest (position + width (spell ps []))).map (placed position ps ++ ·) := by
  induction ps generalizing position with
  | nil =>
    rw [spell, spell, width, Nat.add_zero]
    cases tokenizeFrom rest position <;> rfl
  | cons p ps ih =>
    have hwidth : position + width (spell (p :: ps) []) =
        position + width p.gap + width p.source + width (spell ps []) := by
      simp only [spell, width_append]
      omega
    rw [spell, tokenizeFrom_blank p.blank, tokenizeFrom_lexeme p.lexeme h.1, ih h.2, hwidth]
    cases tokenizeFrom rest _ <;> rfl

/-! ### Flaws -/

/-- No lexeme begins the text. This shows at an offset: at the character that can begin none, at the
quote of a string that does not end, or at the backslash of an escape that there is not. -/
inductive Flaw : List Char → Nat → Cause → Prop
  | unexpectedChar {c : Char} {rest : List Char} (hb : isBlank c = false) (hq : c ≠ '"')
      (hs : isIdentStart c = false) (hp : ∀ t, (c, t) ∉ punctuation) :
    Flaw (c :: rest) 0 (.unexpectedChar c)
  | unterminatedString {body value : List Char} (h : Unescapes body value) :
    Flaw ('"' :: body) 0 .unterminatedString
  | unterminatedEscape {body value : List Char} (h : Unescapes body value) :
    Flaw ('"' :: body ++ ['\\']) 0 .unterminatedString
  | invalidEscape {body value rest : List Char} {e : Char} (h : Unescapes body value)
      (he : ∀ c, (e, c) ∉ escapes) :
    Flaw ('"' :: body ++ '\\' :: e :: rest) (width ('"' :: body)) (.invalidEscape e)

variable {offset : Nat} {cause : Cause}

/-- A string that cannot be read is reported. -/
lemma tokenizeFrom_quote {e : Error} (h : stringBody position cs (position + 1) = .error e) :
    tokenizeFrom ('"' :: cs) position = .error e := by
  have hb : isBlank '"' = false := by decide +kernel
  rw [tokenizeFrom, hb, if_neg Bool.false_ne_true, if_pos rfl]
  split
  · next e' he =>
    rw [h] at he
    cases he
    rfl
  · next hr =>
    rw [h] at hr
    cases hr

lemma unescape?_eq_none {e : Char} (he : ∀ c, (e, c) ∉ escapes) : unescape? e = none := by
  cases h : unescape? e with
  | none => rfl
  | some c => exact absurd (unescape?_eq_some_iff.1 h) (he c)

/-- A flaw is reported where it shows. -/
lemma Flaw.tokenizeFrom_eq (h : Flaw rest offset cause) (position : Nat) :
    tokenizeFrom rest position = .error ⟨position + offset, cause⟩ := by
  cases h with
  | @unexpectedChar c rest hb hq hs hp =>
    have hc : punctuation? c = none := by
      cases h : punctuation? c with
      | none => rfl
      | some t => exact absurd (punctuation?_eq_some_iff.1 h) (hp t)
    rw [tokenizeFrom]
    simp only [hb, hq, hs, hc, Bool.false_eq_true, if_false, Nat.add_zero]
  | @unterminatedString body value h =>
    apply tokenizeFrom_quote
    have hbody := h.stringBody_append position [] (position + 1)
    rwa [List.append_nil] at hbody
  | unterminatedEscape h =>
    rw [List.cons_append]
    apply tokenizeFrom_quote
    rw [h.stringBody_append]
    rfl
  | invalidEscape h he =>
    rw [List.cons_append]
    apply tokenizeFrom_quote
    rw [h.stringBody_append, stringBody, unescape?_eq_none he, width, Nat.add_assoc]
    rfl

/-! ### Every text is laid out or flawed -/

/-- After a quote there is a string, and the text goes on behind it, or there is a flaw. -/
lemma exists_string (cs : List Char) :
    (∃ body value rest, Unescapes body value ∧ cs = body ++ '"' :: rest) ∨
      ∃ offset cause, Flaw ('"' :: cs) offset cause := by
  suffices h : ∃ body value rest, Unescapes body value ∧ cs = body ++ rest ∧
      (rest = [] ∨ rest = ['\\'] ∨ (∃ after, rest = '"' :: after) ∨
        ∃ e after, rest = '\\' :: e :: after ∧ ∀ c, (e, c) ∉ escapes) by
    obtain ⟨body, value, _, hbody, rfl, rfl | rfl | ⟨after, rfl⟩ | ⟨e, after, rfl, he⟩⟩ := h
    · rw [List.append_nil]
      exact .inr ⟨_, _, .unterminatedString hbody⟩
    · exact .inr ⟨_, _, .unterminatedEscape hbody⟩
    · exact .inl ⟨body, value, after, hbody, rfl⟩
    · exact .inr ⟨_, _, .invalidEscape hbody he⟩
  fun_induction stringBody 0 cs 0 with
  | case1 => exact ⟨[], [], [], .nil, rfl, .inl rfl⟩
  | case2 => exact ⟨[], [], _, .nil, rfl, .inr (.inr (.inl ⟨_, rfl⟩))⟩
  | case3 => exact ⟨[], [], _, .nil, rfl, .inr (.inl rfl)⟩
  | case4 _ e cs he =>
    refine ⟨[], [], _, .nil, rfl, .inr (.inr (.inr ⟨e, cs, rfl, fun c hc => ?_⟩))⟩
    rw [unescape?_eq_some_iff.2 hc] at he
    cases he
  | case5 position e cs c he ih =>
    obtain ⟨body, value, rest, hbody, rfl, hrest⟩ := ih
    exact ⟨_, _, rest, .escape (unescape?_eq_some_iff.1 he) hbody, rfl, hrest⟩
  | case6 c cs position hq hb ih =>
    obtain ⟨body, value, rest, hbody, rfl, hrest⟩ := ih
    exact ⟨_, _, rest, .plain hq hb hbody, rfl, hrest⟩

/-- A text consists of pieces with white space at the end, or goes on with a flaw. -/
theorem exists_spell (cs : List Char) :
    ∃ ps gap rest, (∀ c ∈ gap, isBlank c = true) ∧ Maximal (gap ++ rest) ps ∧
      cs = spell ps (gap ++ rest) ∧ (rest = [] ∨ ∃ offset cause, Flaw rest offset cause) := by
  -- a lexeme at the front, and the rest by induction
  have hlexeme {source cs : List Char} {t : Token} (hl : Lexeme source t)
      (hstops : ∀ name, t = .ident name → Stops cs)
      (ih : ∃ ps gap rest, (∀ c ∈ gap, isBlank c = true) ∧ Maximal (gap ++ rest) ps ∧
        cs = spell ps (gap ++ rest) ∧ (rest = [] ∨ ∃ offset cause, Flaw rest offset cause)) :
      ∃ ps gap rest, (∀ c ∈ gap, isBlank c = true) ∧ Maximal (gap ++ rest) ps ∧
        source ++ cs = spell ps (gap ++ rest) ∧
          (rest = [] ∨ ∃ offset cause, Flaw rest offset cause) := by
    obtain ⟨ps, gap, rest, hgap, hmax, rfl, hrest⟩ := ih
    exact ⟨.ofLexeme hl :: ps, gap, rest, hgap, ⟨hstops, hmax⟩, rfl, hrest⟩
  induction hn : cs.length using Nat.strong_induction_on generalizing cs with
  | _ n ih =>
    subst hn
    cases cs with
    | nil => exact ⟨[], [], [], by simp, trivial, rfl, .inl rfl⟩
    | cons c cs =>
      by_cases hb : isBlank c = true
      · obtain ⟨ps, gap, rest, hgap, hmax, rfl, hrest⟩ := ih cs.length (by simp) cs rfl
        cases ps with
        | nil =>
          exact ⟨[], c :: gap, rest, List.forall_mem_cons.2 ⟨hb, hgap⟩, trivial, rfl, hrest⟩
        | cons p ps =>
          exact ⟨{ p with gap := c :: p.gap, blank := List.forall_mem_cons.2 ⟨hb, p.blank⟩ } :: ps,
            gap, rest, hgap, hmax, rfl, hrest⟩
      by_cases hq : c = '"'
      · subst hq
        obtain ⟨body, value, rest, hbody, rfl⟩ | hflaw := exists_string cs
        · have h := hlexeme (.string hbody) (fun _ h => nomatch h)
            (ih rest.length (by simp; omega) rest rfl)
          simpa using h
        · exact ⟨[], [], _, by simp, trivial, rfl, .inr hflaw⟩
      by_cases hs : isIdentStart c = true
      · have hname : IsIdentifier (String.ofList (c :: cs.takeWhile isIdentPart)) :=
          ⟨c, _, String.toList_ofList, hs, List.all_eq_true.1 List.all_takeWhile⟩
        have hstops : Stops (cs.dropWhile isIdentPart) := fun d hd => by
          have h := List.head?_dropWhile_not isIdentPart cs
          simp_all
        have hlen : (cs.dropWhile isIdentPart).length < (c :: cs).length :=
          Nat.lt_succ_of_le (List.dropWhile_sublist isIdentPart).length_le
        have h := hlexeme (.ident hname) (fun _ _ => hstops) (ih _ hlen _ rfl)
        rw [String.toList_ofList, List.cons_append, List.takeWhile_append_dropWhile] at h
        exact h
      by_cases hp : ∃ t, (c, t) ∈ punctuation
      · obtain ⟨t, ht⟩ := hp
        refine hlexeme (.punctuation ht) (fun name hname => ?_) (ih cs.length (by simp) cs rfl)
        exact absurd (hname ▸ punctuation?_eq_some_iff.2 ht) (punctuation?_ne_ident c name)
      · simp only [Bool.not_eq_true] at hb hs
        exact ⟨[], [], c :: cs, by simp, trivial, rfl,
          .inr ⟨0, _, .unexpectedChar hb hq hs (not_exists.1 hp)⟩⟩

/-! ### Layouts -/

/-- Lexemes with white space before, between and behind them. Each name is as long as it can be. -/
structure Layout where
  pieces : List Piece
  last : List Char
  blank : ∀ c ∈ last, isBlank c = true
  maximal : Maximal last pieces

namespace Layout

def text (l : Layout) : List Char := spell l.pieces l.last

def tokens (l : Layout) : List Placed := placed 0 l.pieces

/-- The lexemes with their tokens, whatever stands between them. -/
def lexemes (l : Layout) : List (List Char × Token) := l.pieces.map fun p => (p.source, p.token)

/-- The rest of a text is cut as it would be alone, if the last name does not go on into it. -/
lemma tokenizeFrom_append (l : Layout) (h : Maximal (l.last ++ rest) l.pieces) (position : Nat) :
    tokenizeFrom (l.text ++ rest) position =
      (tokenizeFrom rest (position + width l.text)).map (placed position l.pieces ++ ·) := by
  have hwidth : width l.text = width (spell l.pieces []) + width l.last := by
    rw [← width_append, ← spell_append, List.nil_append, text]
  rw [hwidth, text, ← spell_append, tokenizeFrom_spell h, tokenizeFrom_blank l.blank,
    Nat.add_assoc]

lemma tokenizeFrom_text (l : Layout) : tokenizeFrom l.text 0 = .ok l.tokens := by
  have hmax : Maximal (l.last ++ []) l.pieces := by
    rw [List.append_nil]
    exact l.maximal
  have h := l.tokenizeFrom_append hmax 0
  rwa [List.append_nil, tokenizeFrom, Except.map, List.append_nil] at h

lemma lexes_append (l : Layout) {ts : List Token} (hcs : Stops cs) (h : Lexes cs ts) :
    Lexes (l.text ++ cs) (l.pieces.map Piece.token ++ ts) := by
  intro position
  obtain ⟨us, hus, rfl⟩ := h (position + width l.text)
  refine ⟨placed position l.pieces ++ us, ?_, by rw [List.map_append, map_token_placed]⟩
  rw [l.tokenizeFrom_append (l.maximal.append hcs), hus]
  rfl

end Layout

/-- Every text begins with a layout, and goes on with a flaw if it goes on. -/
lemma exists_layout (cs : List Char) :
    ∃ (l : Layout) (rest : List Char), cs = l.text ++ rest ∧
      Maximal (l.last ++ rest) l.pieces ∧ (rest = [] ∨ ∃ offset cause, Flaw rest offset cause) := by
  obtain ⟨ps, gap, rest, hgap, hmax, rfl, hrest⟩ := exists_spell cs
  exact ⟨⟨ps, gap, hgap, hmax.of_append⟩, rest, spell_append ps gap rest, hmax, hrest⟩

lemma Flaw.tokenizeFrom_append {l : Layout} (h : Flaw rest offset cause)
    (hmax : Maximal (l.last ++ rest) l.pieces) :
    tokenizeFrom (l.text ++ rest) 0 = .error ⟨width l.text + offset, cause⟩ := by
  rw [l.tokenizeFrom_append hmax, h.tokenizeFrom_eq, Nat.zero_add]
  rfl

variable {text : String}

/-- A text is cut into tokens just if it is laid out so. -/
lemma tokenize_eq_ok_iff {us : List Placed} :
    tokenize text = .ok us ↔ ∃ l : Layout, l.text = text.toList ∧ l.tokens = us := by
  constructor
  · intro h
    obtain ⟨l, rest, htext, hmax, hrest⟩ := exists_layout text.toList
    rw [tokenize, htext] at h
    obtain rfl | ⟨offset, cause, hflaw⟩ := hrest
    · rw [List.append_nil] at h htext
      rw [l.tokenizeFrom_text] at h
      exact ⟨l, htext.symm, Except.ok.inj h⟩
    · rw [hflaw.tokenizeFrom_append hmax] at h
      cases h
  · rintro ⟨l, hl, rfl⟩
    rw [tokenize, ← hl]
    exact l.tokenizeFrom_text

/-- A text is not cut into tokens just if a flaw follows a layout, and this is what is reported. -/
lemma tokenize_eq_error_iff {e : Error} :
    tokenize text = .error e ↔ ∃ (l : Layout) (rest : List Char) (offset : Nat),
      text.toList = l.text ++ rest ∧ Maximal (l.last ++ rest) l.pieces ∧
        Flaw rest offset e.cause ∧ e.position = width l.text + offset := by
  constructor
  · intro h
    obtain ⟨l, rest, htext, hmax, hrest⟩ := exists_layout text.toList
    obtain rfl | ⟨offset, cause, hflaw⟩ := hrest
    · rw [List.append_nil] at htext
      rw [tokenize_eq_ok_iff.2 ⟨l, htext.symm, rfl⟩] at h
      cases h
    · rw [tokenize, htext, hflaw.tokenizeFrom_append hmax] at h
      cases h
      exact ⟨l, rest, offset, htext, hmax, hflaw, rfl⟩
  · rintro ⟨l, rest, offset, htext, hmax, hflaw, hposition⟩
    rw [tokenize, htext, hflaw.tokenizeFrom_append hmax, ← hposition]

/-! ### Tokens, positions and errors -/

/-- Cutting the text into tokens loses nothing, and says where it fails. -/
structure CutExactly (text : String) : Prop where
  ok_iff : ∀ us, tokenize text = .ok us ↔ ∃ l : Layout, l.text = text.toList ∧ l.tokens = us
  /-- Positions are the bytes before a lexeme. -/
  offset : ∀ us, tokenize text = .ok us → ∀ u ∈ us, ∃ before source after : String,
    text = before ++ source ++ after ∧ Lexeme source.toList u.token ∧
      u.position = before.utf8ByteSize
  increasing : ∀ us, tokenize text = .ok us → us.Pairwise fun u v => u.position < v.position
  /-- The same lexemes with other white space give the same tokens, as long as names stay apart. -/
  respaced : ∀ us, tokenize text = .ok us → ∀ l : Layout, l.text = text.toList →
    ∀ (ps : List Piece) (last : List Char), ps.map (fun p => (p.source, p.token)) = l.lexemes →
      Apart ps → (∀ c ∈ last, isBlank c = true) →
        ∃ vs, tokenize (String.ofList (spell ps last)) = .ok vs ∧
          vs.map Placed.token = us.map Placed.token
  /-- What is reported is a flaw behind a text that can be cut, and where it shows. -/
  error_iff : ∀ e, tokenize text = .error e ↔ ∃ (l : Layout) (rest : String) (offset : Nat),
    text = String.ofList l.text ++ rest ∧ tokenize (String.ofList l.text) = .ok l.tokens ∧
      Maximal (l.last ++ rest.toList) l.pieces ∧ Flaw rest.toList offset e.cause ∧
        e.position = (String.ofList l.text).utf8ByteSize + offset

/-- Every text is cut exactly. -/
theorem tokenize_exact (text : String) : CutExactly text where
  ok_iff _ := tokenize_eq_ok_iff
  offset us h u hu := by
    obtain ⟨l, hl, rfl⟩ := tokenize_eq_ok_iff.1 h
    obtain ⟨before, source, after, hspell, hlexeme, hposition⟩ :=
      exists_lexeme_of_mem_placed l.last hu
    refine ⟨String.ofList before, String.ofList source, String.ofList after, ?_, ?_, ?_⟩
    · rw [← String.ofList_append, ← String.ofList_append, ← hspell,
        ← String.ofList_toList (s := text), ← hl, Layout.text]
    · rwa [String.toList_ofList]
    · rw [← width_toList, String.toList_ofList, hposition, Nat.zero_add]
  increasing us h := by
    obtain ⟨l, -, rfl⟩ := tokenize_eq_ok_iff.1 h
    exact placed_increasing 0 l.pieces
  respaced us h l hl ps last hps hapart hlast := by
    rw [tokenize_eq_ok_iff.2 ⟨l, hl, rfl⟩] at h
    cases h
    let l' : Layout := ⟨ps, last, hlast, maximal_of_apart hlast hapart⟩
    refine ⟨l'.tokens, tokenize_eq_ok_iff.2 ⟨l', String.toList_ofList.symm, rfl⟩, ?_⟩
    have htokens := congrArg (List.map Prod.snd) hps
    simpa [Layout.tokens, Layout.lexemes, map_token_placed, Function.comp_def] using htokens
  error_iff e := by
    have hwidth (l : Layout) : (String.ofList l.text).utf8ByteSize = width l.text := by
      rw [← width_toList, String.toList_ofList]
    rw [tokenize_eq_error_iff]
    constructor
    · rintro ⟨l, rest, offset, hl, hmax, hflaw, hposition⟩
      refine ⟨l, String.ofList rest, offset, ?_, ?_, ?_⟩
      · rw [← String.ofList_append, ← hl, String.ofList_toList]
      · exact tokenize_eq_ok_iff.2 ⟨l, String.toList_ofList.symm, rfl⟩
      · rw [String.toList_ofList, hwidth]
        exact ⟨hmax, hflaw, hposition⟩
    · rintro ⟨l, rest, offset, rfl, -, hmax, hflaw, hposition⟩
      rw [hwidth] at hposition
      exact ⟨l, rest.toList, offset, by simp, hmax, hflaw, hposition⟩

end Logging.Expression
