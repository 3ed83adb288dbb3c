import Logging.Json.Basic

/-!
# Reading JSON

The grammar of JSON, strictly: white space is space, tab and line ends; numbers have no leading
zeros; strings hold no control characters. Every step of the reader takes at least one character,
so the length of the text bounds its recursion.
-/

namespace Logging.Json

/-- The rest of a text after white space. -/
def skipSpace (cs : List Char) : List Char :=
  cs.dropWhile fun c => c == ' ' || c == '\t' || c == '\n' || c == '\r'

/-! ### Numbers -/

/-- At least one digit. -/
def digits? (cs : List Char) : Option (List Char × List Char) :=
  match cs.takeWhile Char.isDigit with
  | [] => none
  | ds => some (ds, cs.dropWhile Char.isDigit)

/-- The digits before the point: a zero stands alone. -/
def wholePart? : List Char → Option (List Char × List Char)
  | '0' :: cs => if (cs.head?.map Char.isDigit).getD false then none else some (['0'], cs)
  | cs => digits? cs

/-- A fraction and an exponent, each if there is one; the answer is whether there was any. -/
def realPart? (cs : List Char) : Option (Bool × List Char) := do
  let (fraction, cs) ← match cs with
    | '.' :: cs => (digits? cs).map fun r => (true, r.2)
    | cs => some (false, cs)
  match cs with
  | 'e' :: '+' :: cs | 'E' :: '+' :: cs | 'e' :: '-' :: cs | 'E' :: '-' :: cs
  | 'e' :: cs | 'E' :: cs => (digits? cs).map fun r => (true, r.2)
  | cs => some (fraction, cs)

def natOf (ds : List Char) : Nat := ds.foldl (fun n c => n * 10 + (c.toNat - '0'.toNat)) 0

/-- A number; the integer zero with a minus sign has no value. -/
def number? (cs : List Char) : Option (Json × List Char) := do
  let (negative, cs) := match cs with
    | '-' :: cs => (true, cs)
    | cs => (false, cs)
  let (ds, cs) ← wholePart? cs
  let (isReal, cs) ← realPart? cs
  let n := natOf ds
  if isReal || (negative && n == 0) then some (.real, cs)
  else some (.int (if negative then -n else n), cs)

/-! ### Strings -/

def hexValue? (c : Char) : Option Nat :=
  if '0' ≤ c && c ≤ '9' then some (c.toNat - '0'.toNat)
  else if 'a' ≤ c && c ≤ 'f' then some (c.toNat - 'a'.toNat + 10)
  else if 'A' ≤ c && c ≤ 'F' then some (c.toNat - 'A'.toNat + 10)
  else none

/-- A unit of a string: a character, or a surrogate that was escaped by number. -/
inductive CodeUnit
  | char (c : Char)
  | surrogate (n : Nat)

/-- One escape after its backslash. -/
def escape? : List Char → Option (CodeUnit × List Char)
  | '"' :: cs => some (.char '"', cs)
  | '\\' :: cs => some (.char '\\', cs)
  | '/' :: cs => some (.char '/', cs)
  | 'b' :: cs => some (.char '\x08', cs)
  | 'f' :: cs => some (.char '\x0c', cs)
  | 'n' :: cs => some (.char '\n', cs)
  | 'r' :: cs => some (.char '\r', cs)
  | 't' :: cs => some (.char '\t', cs)
  | 'u' :: a :: b :: c :: d :: cs => do
    let n := (((← hexValue? a) * 16 + (← hexValue? b)) * 16 + (← hexValue? c)) * 16 +
      (← hexValue? d)
    some (if 0xd800 ≤ n && n ≤ 0xdfff then .surrogate n else .char (Char.ofNat n), cs)
  | _ => none

/-- The units of a string up to its closing quote. -/
def units? : Nat → List Char → Option (List CodeUnit × List Char)
  | 0, _ => none
  | _ + 1, [] => none
  | n + 1, c :: cs =>
    if c == '"' then some ([], cs)
    else if c == '\\' then do
      let (u, cs) ← escape? cs
      let (us, cs) ← units? n cs
      some (u :: us, cs)
    else if c.toNat < 0x20 then none
    else do
      let (us, cs) ← units? n cs
      some (.char c :: us, cs)

/-- The text of units: a high surrogate makes one character with the low one after it. -/
def joinUnits? : List CodeUnit → Option (List Char)
  | [] => some []
  | .char c :: us => (joinUnits? us).map (c :: ·)
  | .surrogate high :: .surrogate low :: us =>
    if high < 0xdc00 && 0xdc00 ≤ low then
      (joinUnits? us).map (Char.ofNat (0x10000 + (high - 0xd800) * 0x400 + (low - 0xdc00)) :: ·)
    else none
  | .surrogate _ :: _ => none

/-- A string after its opening quote. -/
def string? (cs : List Char) : Option (Option String × List Char) := do
  let (us, cs) ← units? (cs.length + 1) cs
  some ((joinUnits? us).map String.ofList, cs)

/-! ### Values -/

/-- The rest of a text after a word that it must begin with. -/
def after? (word : String) (cs : List Char) : Option (List Char) :=
  if word.toList.isPrefixOf cs then some (cs.drop word.toList.length) else none

mutual

def value? : Nat → List Char → Option (Json × List Char)
  | 0, _ => none
  | n + 1, cs =>
    match skipSpace cs with
    | '"' :: cs => (string? cs).map fun r => (.string r.1, r.2)
    | '[' :: cs =>
      match skipSpace cs with
      | ']' :: cs => some (.array [], cs)
      | cs => (items? n cs).map fun r => (.array r.1, r.2)
    | '\x7b' :: cs =>
      match skipSpace cs with
      | '\x7d' :: cs => some (.object [], cs)
      | cs => (members? n cs).map fun r => (.object r.1, r.2)
    | 't' :: cs => (after? "rue" cs).map fun cs => (.bool true, cs)
    | 'f' :: cs => (after? "alse" cs).map fun cs => (.bool false, cs)
    | 'n' :: cs => (after? "ull" cs).map fun cs => (.null, cs)
    | cs => number? cs

/-- The items of an array up to its closing bracket. -/
def items? : Nat → List Char → Option (List Json × List Char)
  | 0, _ => none
  | n + 1, cs => do
    let (v, cs) ← value? n cs
    match skipSpace cs with
    | ']' :: cs => some ([v], cs)
    | ',' :: cs =>
      let (vs, cs) ← items? n cs
      some (v :: vs, cs)
    | _ => none

/-- The fields of an object up to its closing brace. -/
def members? : Nat → List Char → Option (List (Option String × Json) × List Char)
  | 0, _ => none
  | n + 1, cs =>
    match skipSpace cs with
    | '"' :: cs => do
      let (key, cs) ← string? cs
      match skipSpace cs with
      | ':' :: cs =>
        let (v, cs) ← value? n cs
        match skipSpace cs with
        | '\x7d' :: cs => some ([(key, v)], cs)
        | ',' :: cs =>
          let (fs, cs) ← members? n cs
          some ((key, v) :: fs, cs)
        | _ => none
      | _ => none
    | _ => none

end

/-- The value that a whole text writes. -/
def ofString? (s : String) : Option Json := do
  let cs := s.toList
  let (v, rest) ← value? (cs.length + 1) cs
  if (skipSpace rest).isEmpty then some v else none

/-! ### Taking values apart -/

def asBool? : Json → Option Bool
  | bool b => some b
  | _ => none

def asText? : Json → Option String
  | string s => s
  | _ => none

/-- An integer within the range of severities, 32 bits with a sign. -/
def asInt32? : Json → Option Int
  | int n => if -2147483648 ≤ n && n ≤ 2147483647 then some n else none
  | _ => none

def asArray? : Json → Option (List Json)
  | array l => some l
  | _ => none

/-- The values of the named fields. An array gives them by position and may not be longer; an
object may have each of them once, and others as it likes as long as all names are texts. -/
def fields? (names : List String) : Json → Option (List (Option Json))
  | array l =>
    if l.length ≤ names.length then
      some (l.map some ++ List.replicate (names.length - l.length) none)
    else none
  | object fs =>
    if fs.all (·.1.isSome) then
      names.mapM fun name =>
        match fs.filter (·.1 == some name) with
        | [] => some none
        | [f] => some (some f.2)
        | _ => none
    else none
  | _ => none

end Logging.Json
