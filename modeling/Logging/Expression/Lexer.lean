import Logging.Expression.Error
import Logging.Text.Alphabetic
import Logging.Text.Blank
import Logging.Text.Numeric

/-!
# Cutting a text into tokens

White space separates tokens and is dropped. A name goes as far as it can; a string ends at the
first quote that no backslash escapes. Positions count the bytes of the text in UTF-8.
-/

namespace Logging.Expression

/-! ### Characters -/

def isBlank (c : Char) : Bool := Text.blanks.contains c

def isIdentStart (c : Char) : Bool := Text.alphabetic.contains c || c == '_' || c == '$'

def isIdentPart (c : Char) : Bool :=
  Text.alphabetic.contains c || Text.numeric.contains c || c == '_' || c == '$' || c == '.'

/-- The tokens of one character. -/
def punctuation? : Char → Option Token
  | '(' => some .leftParen
  | ')' => some .rightParen
  | '[' => some .leftBracket
  | ']' => some .rightBracket
  | ',' => some .comma
  | _ => none

/-- What the character after a backslash stands for. -/
def unescape? : Char → Option Char
  | '\\' => some '\\'
  | '"' => some '"'
  | '\'' => some '\''
  | 'b' => some '\x08'
  | 'f' => some '\x0c'
  | 'n' => some '\n'
  | 'r' => some '\r'
  | 't' => some '\t'
  | _ => none

/-- The bytes that characters take. -/
def width : List Char → Nat
  | [] => 0
  | c :: cs => c.utf8Size + width cs

/-! ### Strings -/

/-- The rest of a string that began at `start`, from the byte `position` on: its value, what comes
after its closing quote, and the byte of that. -/
def stringBody (start : Nat) : List Char → Nat → Except Error (List Char × List Char × Nat)
  | [], _ => .error ⟨start, .unterminatedString⟩
  | '"' :: cs, position => .ok ([], cs, position + 1)
  | '\\' :: cs, position =>
    match cs with
    | [] => .error ⟨start, .unterminatedString⟩
    | e :: cs =>
      match unescape? e with
      | none => .error ⟨position, .invalidEscape e⟩
      | some c => (stringBody start cs (position + 2)).map fun r => (c :: r.1, r.2)
  | c :: cs, position =>
    (stringBody start cs (position + c.utf8Size)).map fun r => (c :: r.1, r.2)

theorem ok_of_map {ε α β : Type} {e : Except ε α} {f : α → β} {b : β}
    (h : e.map f = .ok b) : ∃ a, e = .ok a ∧ f a = b := by
  cases e with
  | error => cases h
  | ok a => exact ⟨a, rfl, Except.ok.inj h⟩

/-- A string takes at least its closing quote. -/
theorem stringBody_length {start position : Nat} {cs : List Char} {r : List Char × List Char × Nat}
    (h : stringBody start cs position = .ok r) : r.2.1.length < cs.length := by
  fun_induction stringBody start cs position generalizing r with
  | case1 => cases h
  | case2 => cases h; simp
  | case3 => cases h
  | case4 => cases h
  | case5 _ _ _ _ _ ih | case6 _ _ _ _ _ ih =>
    obtain ⟨s, hs, rfl⟩ := ok_of_map h
    have := ih hs
    simp only [List.length_cons]
    omega

/-! ### Tokens -/

/-- The tokens of a text that begins at the byte `position`. -/
def tokenizeFrom (cs : List Char) (position : Nat) : Except Error (List Placed) :=
  match cs with
  | [] => .ok []
  | c :: cs =>
    if isBlank c then tokenizeFrom cs (position + c.utf8Size)
    else if c = '"' then
      match h : stringBody position cs (position + 1) with
      | .error e => .error e
      | .ok (value, rest, next) =>
        have : rest.length < cs.length := stringBody_length h
        (tokenizeFrom rest next).map (⟨.string (String.ofList value), position⟩ :: ·)
    else if isIdentStart c then
      let more := cs.takeWhile isIdentPart
      have : (cs.dropWhile isIdentPart).length ≤ cs.length :=
        (List.dropWhile_sublist isIdentPart).length_le
      (tokenizeFrom (cs.dropWhile isIdentPart) (position + width (c :: more))).map
        (⟨.ident (String.ofList (c :: more)), position⟩ :: ·)
    else
      match punctuation? c with
      | some t => (tokenizeFrom cs (position + 1)).map (⟨t, position⟩ :: ·)
      | none => .error ⟨position, .unexpectedChar c⟩
termination_by cs.length

/-- The tokens of a text, each with its first byte. -/
def tokenize (s : String) : Except Error (List Placed) := tokenizeFrom s.toList 0

end Logging.Expression
