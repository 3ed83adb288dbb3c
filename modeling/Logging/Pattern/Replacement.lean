import Logging.Pattern.Search

/-!
# Replacing matches

A replacement text refers to the groups of a match: `$1`, `$name`, or the same in braces. Without
braces the name is the longest run of ASCII letters, digits and underscores. Two dollar signs
stand for one; a dollar sign that begins no reference stands for itself. A group that is unknown
or took no part in the match counts as empty text.
-/

namespace Logging.Pattern

/-- A piece of a replacement text. -/
inductive Piece
  | char (c : Char)
  | number (n : Nat)
  | name (s : String)
deriving DecidableEq, Repr

namespace Piece

def isNamePart (c : Char) : Bool := c.isAlphanum || c == '_'

/-- Numbers of groups are below this, 2 to the power of 64; what looks like a greater one is a
name. -/
def numberBound : Nat := 0x10000000000000000

/-- The group that a reference means: digits, with a plus sign allowed in front, are a number. -/
def ofReference (cs : List Char) : Piece :=
  let digits := match cs with
    | '+' :: ds => ds
    | ds => ds
  let n := digits.foldl (fun n c => n * 10 + (c.toNat - '0'.toNat)) 0
  if !digits.isEmpty && digits.all Char.isDigit && n < numberBound then number n
  else name (String.ofList cs)

/-- What comes after the first character that fails a test is shorter than the whole. -/
theorem length_lt_of_dropWhile {p : Char → Bool} {cs after : List Char} {c : Char}
    (h : cs.dropWhile p = c :: after) : after.length < cs.length := by
  have hd := (List.dropWhile_sublist p (l := cs)).length_le
  simp only [h, List.length_cons] at hd
  omega

/-- Cut a replacement text into pieces. -/
def ofChars (cs : List Char) : List Piece :=
  match cs with
  | [] => []
  | '$' :: '$' :: rest => char '$' :: ofChars rest
  | '$' :: '\x7b' :: rest =>
    match h : rest.dropWhile (· != '\x7d') with
    | _ :: after =>
      have := length_lt_of_dropWhile h
      ofReference (rest.takeWhile (· != '\x7d')) :: ofChars after
    | [] => char '$' :: ofChars ('\x7b' :: rest)
  | '$' :: rest =>
    match rest.takeWhile isNamePart with
    | [] => char '$' :: ofChars rest
    | reference =>
      have := (List.dropWhile_sublist isNamePart (l := rest)).length_le
      ofReference reference :: ofChars (rest.dropWhile isNamePart)
  | c :: rest => char c :: ofChars rest
termination_by cs.length
decreasing_by all_goals simp only [List.length_cons]; omega

end Piece

namespace Matcher

/-- The text of a group in a match. -/
def groupText (text : Array Char) (slots : Slots) (n : Nat) : List Char :=
  match slots[2 * n]?.join, slots[2 * n + 1]?.join with
  | some first, some last => (text.extract first last).toList
  | _, _ => []

/-- What a piece of a replacement text becomes for a match. -/
def expand (m : Matcher) (text : Array Char) (slots : Slots) : Piece → List Char
  | .char c => [c]
  | .number n => groupText text slots n
  | .name s => ((m.names.lookup s).map (groupText text slots)).getD []

/-- Replace the given matches, the text before `place` being done. -/
def substitute (m : Matcher) (text : Array Char) (pieces : List Piece) :
    Nat → List Slots → List Char
  | place, [] => (text.extract place text.size).toList
  | place, slots :: more =>
    let (first, last) := findAll.bounds slots
    (text.extract place first).toList ++ pieces.flatMap (m.expand text slots) ++
      substitute m text pieces last more

def isMatch (m : Matcher) (s : String) : Bool := (m.find? s.toList.toArray 0).isSome

/-- Replace the first match, or all of them; `none` if there is no match. -/
def replace? (m : Matcher) (all : Bool) (replacement s : String) : Option String :=
  let text := s.toList.toArray
  let found := if all then m.findAll text (text.size + 2) 0 none else (m.find? text 0).toList
  match found with
  | [] => none
  | found =>
    some (String.ofList (m.substitute text (Piece.ofChars replacement.toList) 0 found))

end Matcher

end Logging.Pattern
