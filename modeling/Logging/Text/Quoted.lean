import Logging.Text.Hidden

/-!
# Quoted text

Two ways of writing a text between double quotes. `Quoted.shown` makes every character visible: it
escapes the quote, the backslash, the common controls and whatever leaves no mark of its own.
`Quoted.source` writes a string of the filter language: it escapes the quote, the backslash and
the five controls that the language has escapes for, and leaves the rest alone.
-/

namespace Logging.Text.Quoted

/-- The digits of a number to base 16, in lower case. -/
def hex (n : Nat) : List Char := Nat.toDigits 16 n

/-! ### Every character visible -/

def shownChar (c : Char) : List Char :=
  match c with
  | '"' => ['\\', '"']
  | '\\' => ['\\', '\\']
  | '\n' => ['\\', 'n']
  | '\r' => ['\\', 'r']
  | '\t' => ['\\', 't']
  | '\x00' => ['\\', '0']
  | c => if hidden.contains c then ['\\', 'u', '\x7b'] ++ hex c.toNat ++ ['\x7d'] else [c]

/-- A text between quotes, with every character visible. -/
def shown (s : String) : String :=
  String.ofList ('"' :: s.toList.flatMap shownChar ++ ['"'])

/-! ### Strings of the filter language -/

def sourceChar (c : Char) : List Char :=
  match c with
  | '\\' => ['\\', '\\']
  | '"' => ['\\', '"']
  | '\x08' => ['\\', 'b']
  | '\x0c' => ['\\', 'f']
  | '\n' => ['\\', 'n']
  | '\r' => ['\\', 'r']
  | '\t' => ['\\', 't']
  | c => [c]

/-- A text as a string of the filter language, quotes included. -/
def source (s : String) : String :=
  String.ofList ('"' :: s.toList.flatMap sourceChar ++ ['"'])

end Logging.Text.Quoted
