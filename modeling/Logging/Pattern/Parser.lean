import Logging.Pattern.Basic
import Logging.Text.Blank
import Logging.Text.Folding
import Logging.Text.Word

/-!
# Reading regular expressions

A recursive descent over the characters of a pattern. The flags in force are part of the reader's
state: a flag group changes them up to the end of the group around it, across alternatives. Every
recursive call is made after at least one character has been read, so a count that starts at the
length of the pattern bounds the recursion; it is never used up.

Look-around and back-references are refused, as the matcher runs in linear time.
-/

namespace Logging.Pattern

open Text (CharSet)

/-- The flags `i`, `m`, `s`, `x` and `U`. -/
structure Flags where
  ignoreCase : Bool := false
  multiLine : Bool := false
  dotAll : Bool := false
  verbose : Bool := false
  swapGreed : Bool := false
deriving DecidableEq, Repr

/-- What is left to read, the flags in force, and the groups met so far. -/
structure Reader where
  rest : List Char
  flags : Flags := {}
  groups : Nat := 0
  names : List (String × Nat) := []

abbrev Read := StateT Reader Option

/-- An expression as it was read: how deep it is nested, and whether it is something that no
repetition may follow. -/
structure Part where
  expr : Expr
  depth : Nat := 0
  bare : Bool := false

/-- A piece of a bracketed class, and how deep it is nested. -/
structure ClassPart where
  chars : CharSet
  depth : Nat := 0

/-- What an escape stands for. -/
inductive Escape
  | literal (c : Char)
  | chars (s : CharSet)
  | look (l : Look)

/-- The ways to combine two classes within brackets. -/
inductive ClassOp
  | inter
  | diff
  | symmDiff

def ClassOp.apply : ClassOp → CharSet → CharSet → CharSet
  | inter => CharSet.inter
  | diff => CharSet.diff
  | symmDiff => CharSet.symmDiff

namespace Read

/-! ### Characters -/

def rest : Read (List Char) := return (← get).rest

def peek? : Read (Option Char) := return (← get).rest.head?

def drop (n : Nat) : Read Unit := modify fun r => { r with rest := r.rest.drop n }

def refuse {α : Type} : Read α := failure

/-- The next character, which must be there. -/
def need : Read Char := do
  match ← peek? with
  | some c => return c
  | none => refuse

/-- Take the given text if it comes next. -/
def take? (text : String) : Read Bool := do
  let cs := text.toList
  if cs.isPrefixOf (← rest) then
    drop cs.length
    return true
  else
    return false

def isBlank (c : Char) : Bool := Text.blanks.contains c

/-- The text after its leading white space and comments. -/
def skipComments : Bool → List Char → List Char
  | _, [] => []
  | true, c :: cs => skipComments (c != '\n') cs
  | false, c :: cs =>
    if isBlank c then skipComments false cs
    else if c == '#' then skipComments true cs
    else c :: cs

/-- In verbose mode, pass over white space and comments. -/
def skipSpace : Read Unit := do
  if (← get).flags.verbose then
    modify fun r => { r with rest := skipComments false r.rest }

def bump : Read Unit := do
  drop 1
  skipSpace

/-- The character after the next one; in verbose mode white space is passed over. -/
def peekSecond? : Read (Option Char) := do
  let tail := (← rest).drop 1
  if (← get).flags.verbose then
    match tail.dropWhile isBlank with
    | '#' :: cs => return (cs.dropWhile isBlank).head?
    | cs => return cs.head?
  else
    return tail.head?

/-! ### Numbers -/

def isHexDigit (c : Char) : Bool :=
  c.isDigit || ('a' ≤ c && c ≤ 'f') || ('A' ≤ c && c ≤ 'F')

def digitValue (c : Char) : Nat :=
  if c.isDigit then c.toNat - '0'.toNat
  else if 'a' ≤ c then c.toNat - 'a'.toNat + 10
  else c.toNat - 'A'.toNat + 10

def ofDigits (base : Nat) (cs : List Char) : Nat :=
  cs.foldl (fun n c => n * base + digitValue c) 0

/-- The characters in front that pass the test; in verbose mode, space between them is skipped. -/
def takeRun (test : Char → Bool) : Nat → Read (List Char)
  | 0 => return []
  | n + 1 => do
    match ← peek? with
    | some c =>
      if test c then
        bump
        return c :: (← takeRun test n)
      else
        return []
    | none => return []

/-- Counts are below this, 2 to the power of 32. -/
def countBound : Nat := 0x100000000

/-- A count within braces, with white space around it; `none` if there is no digit. -/
def count? : Read (Option Nat) := do
  modify fun r => { r with rest := r.rest.dropWhile isBlank }
  let digits ← takeRun Char.isDigit (← rest).length
  modify fun r => { r with rest := r.rest.dropWhile isBlank }
  skipSpace
  if digits.isEmpty then return none
  let n := ofDigits 10 digits
  if n < countBound then return some n else refuse

def charOf (n : Nat) : Read Char :=
  if n < 0xd800 || (0xdfff < n && n ≤ CharSet.lastPoint) then return Char.ofNat n else refuse

/-- Exactly `n` hexadecimal digits. -/
def hexDigits : Nat → Read (List Char)
  | 0 => return []
  | n + 1 => do
    let c ← need
    if isHexDigit c then
      bump
      return c :: (← hexDigits n)
    else
      refuse

/-- A character by its number: `width` digits, or any number of them within braces. -/
def hexChar (width : Nat) : Read Char := do
  bump
  if (← need) == '\x7b' then
    bump
    let digits ← takeRun isHexDigit (← rest).length
    if (← need) == '\x7d' && !digits.isEmpty then
      bump
      charOf (ofDigits 16 digits)
    else
      refuse
  else
    charOf (ofDigits 16 (← hexDigits width))

/-! ### Escapes -/

def isMeta (c : Char) : Bool := "\\.+*?()|[]\x7b\x7d^$#&-~".toList.contains c

/-- Whether a backslash may stand before the character to take it as it is. -/
def isEscapable (c : Char) : Bool :=
  isMeta c || (c.toNat < 0x80 && !c.isAlphanum && c != '<' && c != '>')

/-- The kind of boundary named within braces after `\b`; `none` leaves a brace for a count. -/
def boundaryKind : Read (Option Look) := do
  let start ← get
  bump
  let isPart := fun (c : Char) => c.isAlpha || c == '-'
  if !isPart (← need) then
    set start
    return none
  let name ← takeRun isPart (← rest).length
  if (← peek?) != some '\x7d' then refuse
  drop 1
  match String.ofList name with
  | "start" => return some .wordStart
  | "end" => return some .wordEnd
  | "start-half" => return some .wordStartHalf
  | "end-half" => return some .wordEndHalf
  | _ => refuse

/-- An escape, from its backslash on. -/
def escape : Read Escape := do
  drop 1
  let c ← need
  if c == 'x' then return .literal (← hexChar 2)
  if c == 'u' then return .literal (← hexChar 4)
  if c == 'U' then return .literal (← hexChar 8)
  drop 1
  match c with
  | 'd' => return .chars Text.decimalDigits
  | 'D' => return .chars Text.decimalDigits.compl
  | 's' => return .chars Text.blanks
  | 'S' => return .chars Text.blanks.compl
  | 'w' => return .chars Text.wordChars
  | 'W' => return .chars Text.wordChars.compl
  | 'a' => return .literal '\x07'
  | 'f' => return .literal '\x0c'
  | 't' => return .literal '\t'
  | 'n' => return .literal '\n'
  | 'r' => return .literal '\r'
  | 'v' => return .literal '\x0b'
  | 'A' => return .look .textStart
  | 'z' => return .look .textEnd
  | 'b' =>
    if (← peek?) == some '\x7b' then
      return .look ((← boundaryKind).getD .boundary)
    else
      return .look .boundary
  | 'B' => return .look .notBoundary
  | '<' => return .look .wordStart
  | '>' => return .look .wordEnd
  | c => if isEscapable c then return .literal c else refuse

/-! ### Bracketed classes -/

/-- The ASCII class of a name, as written between `[:` and `:]`. -/
def namedClass? (name : String) : Option CharSet :=
  let lower := (0x61, 0x7a)
  let upper := (0x41, 0x5a)
  let digit := (0x30, 0x39)
  let ranges? : Option (List (Nat × Nat)) := match name with
    | "alnum" => some [digit, upper, lower]
    | "alpha" => some [upper, lower]
    | "ascii" => some [(0, 0x7f)]
    | "blank" => some [(0x9, 0x9), (0x20, 0x20)]
    | "cntrl" => some [(0, 0x1f), (0x7f, 0x7f)]
    | "digit" => some [digit]
    | "graph" => some [(0x21, 0x7e)]
    | "lower" => some [lower]
    | "print" => some [(0x20, 0x7e)]
    | "punct" => some [(0x21, 0x2f), (0x3a, 0x40), (0x5b, 0x60), (0x7b, 0x7e)]
    | "space" => some [(0x9, 0xd), (0x20, 0x20)]
    | "upper" => some [upper]
    | "word" => some [digit, upper, (0x5f, 0x5f), lower]
    | "xdigit" => some [digit, (0x41, 0x46), (0x61, 0x66)]
    | _ => none
  ranges?.map CharSet.ofRanges

/-- A set of characters under the flag for case. -/
def withCase (s : CharSet) : Read CharSet :=
  return if (← get).flags.ignoreCase then s.foldCase else s

/-- A class by name, from its bracket on; `none` leaves the bracket to open a nested class. -/
def asciiClass? : Read (Option CharSet) := do
  let start ← get
  if !(← take? "[:") then return none
  let negated ← take? "^"
  let name := (← rest).takeWhile (· != ':')
  drop name.length
  if ← take? ":]" then
    if let some s := namedClass? (String.ofList name) then
      let s ← withCase s
      return some (if negated then s.compl else s)
  set start
  return none

/-- A character or an escape within brackets. -/
def classAtom : Read Escape := do
  let c ← need
  if c == '\\' then
    escape
  else
    drop 1
    return .literal c

/-- A single character, a range of characters, or an escape that stands for a class. -/
def classItem : Read CharSet := do
  let low ← classAtom
  skipSpace
  let c ← need
  let after ← peekSecond?
  if c != '-' || after == some ']' || after == some '-' then
    match low with
    | .literal a => return CharSet.single a
    | .chars s => return s
    | .look _ => refuse
  else
    bump
    let high ← do
      let _ ← need
      classAtom
    match low, high with
    | .literal a, .literal b =>
      if a ≤ b then return CharSet.ofRanges [(a.toNat, b.toNat)] else refuse
    | _, _ => refuse

/-- The union of the parts read so far, in reverse. -/
def unite : List ClassPart → ClassPart
  | [] => ⟨CharSet.empty, 0⟩
  | [p] => p
  | ps =>
    ⟨CharSet.ofRanges (ps.flatMap fun p => p.chars.ranges.toList),
      1 + ps.foldl (fun d p => Nat.max d p.depth) 0⟩

/-- Combine what stands before an operator with what stands after it. -/
def combine (before : Option (ClassPart × ClassOp)) (after : ClassPart) : Read ClassPart := do
  match before with
  | none => return after
  | some (p, op) =>
    return ⟨op.apply (← withCase p.chars) (← withCase after.chars),
      1 + Nat.max p.depth after.depth⟩

/-- The hyphens that stand first in a class, each for itself. -/
def leadingHyphens : Nat → List ClassPart → Read (List ClassPart)
  | 0, items => return items
  | n + 1, items => do
    if (← need) == '-' then
      bump
      leadingHyphens n (⟨CharSet.single '-', 0⟩ :: items)
    else
      return items

mutual

/-- A bracketed class, from its bracket on. -/
def bracketed : Nat → Read ClassPart
  | 0 => refuse
  | n + 1 => do
    bump
    let negated := (← need) == '^'
    if negated then bump
    let items ← leadingHyphens (← rest).length []
    let items ←
      if items.isEmpty && (← need) == ']' then do
        bump
        let _ ← need
        pure [(⟨CharSet.single ']', 0⟩ : ClassPart)]
      else pure items
    let body ← classBody n none items
    let s ← withCase body.chars
    return ⟨if negated then s.compl else s, body.depth + 1⟩

/-- The items of a class up to its closing bracket. -/
def classBody : Nat → Option (ClassPart × ClassOp) → List ClassPart → Read ClassPart
  | 0, _, _ => refuse
  | n + 1, before, items => do
    skipSpace
    let c ← need
    let second := ((← rest).drop 1).head?
    let operator := fun (op : ClassOp) => do
      drop 2
      let left ← combine before (unite items)
      classBody n (some (left, op)) []
    if c == '[' then
      match ← asciiClass? with
      | some s => classBody n before (⟨s, 0⟩ :: items)
      | none =>
        let inner ← bracketed n
        classBody n before (inner :: items)
    else if c == ']' then
      let all ← combine before (unite items)
      drop 1
      return all
    else if c == '&' && second == some '&' then operator .inter
    else if c == '-' && second == some '-' then operator .diff
    else if c == '~' && second == some '~' then operator .symmDiff
    else
      let s ← classItem
      classBody n before (⟨s, 0⟩ :: items)

end

/-! ### Groups -/

/-- Read flag letters up to a colon or a closing parenthesis; `off` once a hyphen was read. -/
def flagLetters : Nat → (off : Bool) → (seen : List Char) → Flags → Read (Flags × List Char)
  | 0, _, _, _ => refuse
  | n + 1, off, seen, flags => do
    let c ← need
    if c == ':' || c == ')' then
      if seen.head? == some '-' then refuse else return (flags, seen)
    else
      if seen.contains c then refuse
      drop 1
      let _ ← need
      let again := flagLetters n off (c :: seen)
      match c with
      | '-' => flagLetters n true (c :: seen) flags
      | 'i' => again { flags with ignoreCase := !off }
      | 'm' => again { flags with multiLine := !off }
      | 's' => again { flags with dotAll := !off }
      | 'x' => again { flags with verbose := !off }
      | 'U' => again { flags with swapGreed := !off }
      | 'u' => if off then refuse else again flags
      | _ => refuse

/-- The name of a group, up to the closing angle bracket. -/
def groupName : Read String := do
  let name := (← rest).takeWhile (· != '>')
  drop (name.length)
  if (← need) != '>' then refuse
  drop 1
  let isLetter := fun c => c == '_' || Text.alphabetic.contains c
  let isPart := fun c =>
    isLetter c || c == '.' || c == '[' || c == ']' || Text.numeric.contains c
  match name with
  | [] => refuse
  | c :: cs => if isLetter c && cs.all isPart then return String.ofList name else refuse

/-- What an opening parenthesis begins. -/
inductive Opening
  | capture (number : Nat)
  | plain
  | flagsOnly

def newGroup : Read Nat := do
  modify fun r => { r with groups := r.groups + 1 }
  return (← get).groups

/-- Read an opening parenthesis with what belongs to it, and set the flags it asks for. -/
def opening : Read Opening := do
  drop 1
  skipSpace
  for ahead in ["?=", "?!", "?<=", "?<!"] do
    if ← take? ahead then refuse
  if (← take? "?P<") || (← take? "?<") then
    let number ← newGroup
    let name ← groupName
    if (← get).names.any (·.1 == name) then refuse
    modify fun r => { r with names := r.names ++ [(name, number)] }
    return .capture number
  else if ← take? "?" then
    let (flags, seen) ← flagLetters ((← rest).length + 1) false [] (← get).flags
    let c ← need
    drop 1
    if c == ')' && seen.isEmpty then refuse
    modify fun r => { r with flags }
    return if c == ')' then .flagsOnly else .plain
  else
    return .capture (← newGroup)

/-! ### Expressions -/

/-- Put a repetition around the part read last. -/
def repeatLast (min : Nat) (max? : Option Nat) : List Part → Read (List Part)
  | [] => refuse
  | p :: ps => do
    if p.bare then refuse
    let lazy ← take? "?"
    let greedy := lazy == (← get).flags.swapGreed
    return { expr := p.expr.repeated min max? greedy, depth := p.depth + 1 } :: ps

/-- The bounds within braces, from the opening brace on. -/
def bounds : Read (Nat × Option Nat) := do
  bump
  let _ ← need
  let low ← count?
  let c ← need
  let (min, max?) ←
    if c == ',' then do
      bump
      if (← need) == '\x7d' then
        match low with
        | some n => pure (n, none)
        | none => refuse
      else
        match low, ← count? with
        | some n, some m => pure (n, some m)
        | _, _ => refuse
    else
      match low with
      | some n => pure (n, some n)
      | none => refuse
  if (← need) != '\x7d' then refuse
  bump
  if max?.any (· < min) then refuse
  return (min, max?)

def ofEscape : Escape → Read Part
  | .literal c => return { expr := .set (← withCase (CharSet.single c)) }
  | .chars s => return { expr := .set s }
  | .look l => return { expr := .look l }

/-- The parts of a sequence, in reverse, as one part. -/
def sequence : List Part → Part
  | [] => { expr := .empty }
  | [p] => { p with bare := false }
  | ps =>
    { expr := Expr.seqOf (ps.reverse.map (·.expr))
      depth := 1 + ps.foldl (fun d p => Nat.max d p.depth) 0 }

/-- The alternatives, in reverse, as one part. -/
def alternatives : List Part → Part
  | [] => { expr := .empty }
  | [p] => p
  | ps =>
    { expr := Expr.altOf (ps.reverse.map (·.expr))
      depth := 1 + ps.foldl (fun d p => Nat.max d p.depth) 0 }

/-- Read up to a closing parenthesis or the end; `branches` holds the alternatives that are
complete and `parts` the sequence at hand, both in reverse. -/
def expression : Nat → (branches parts : List Part) → Read Part
  | 0, _, _ => refuse
  | n + 1, branches, parts => do
    skipSpace
    match ← peek? with
    | none => return alternatives (sequence parts :: branches)
    | some ')' => return alternatives (sequence parts :: branches)
    | some '|' =>
      drop 1
      expression n (sequence parts :: branches) []
    | some '(' =>
      let outer := (← get).flags
      match ← opening with
      | .flagsOnly => expression n branches ({ expr := .empty, bare := true } :: parts)
      | .plain =>
        let inner ← expression n [] []
        closing outer
        expression n branches ({ expr := inner.expr, depth := inner.depth + 1 } :: parts)
      | .capture number =>
        let inner ← expression n [] []
        closing outer
        expression n branches
          ({ expr := .group number inner.expr, depth := inner.depth + 1 } :: parts)
    | some '[' =>
      let s ← bracketed n
      expression n branches ({ expr := .set s.chars, depth := s.depth } :: parts)
    | some '?' =>
      drop 1
      expression n branches (← repeatLast 0 (some 1) parts)
    | some '*' =>
      drop 1
      expression n branches (← repeatLast 0 none parts)
    | some '+' =>
      drop 1
      expression n branches (← repeatLast 1 none parts)
    | some '\x7b' =>
      let (min, max?) ← bounds
      expression n branches (← repeatLast min max? parts)
    | some '\\' => expression n branches ((← ofEscape (← escape)) :: parts)
    | some '.' =>
      drop 1
      let s := if (← get).flags.dotAll then CharSet.full else (CharSet.single '\n').compl
      expression n branches ({ expr := .set s } :: parts)
    | some '^' =>
      drop 1
      let l := if (← get).flags.multiLine then Look.lineStart else Look.textStart
      expression n branches ({ expr := .look l } :: parts)
    | some '$' =>
      drop 1
      let l := if (← get).flags.multiLine then Look.lineEnd else Look.textEnd
      expression n branches ({ expr := .look l } :: parts)
    | some c =>
      drop 1
      expression n branches ((← ofEscape (.literal c)) :: parts)
where
  /-- The parenthesis that ends a group, after which the flags outside it are in force again. -/
  closing (outer : Flags) : Read Unit := do
    if (← need) != ')' then refuse
    drop 1
    modify fun r => { r with flags := outer }

end Read

/-! ### Patterns -/

/-- An expression with the numbers of its named groups. -/
structure Regex where
  expr : Expr
  groups : Nat
  names : List (String × Nat)

/-- How deep expressions may be nested. -/
def maxDepth : Nat := 250

/-- How much room the compiled form of an expression may take: ten mebibytes, at 32 bytes for each
state. -/
def maxRoom : Nat := 0xa00000 / 32

/-- Read a pattern; `none` if it is no regular expression, or one that is too deep or too large. -/
def Regex.ofString? (text : String) : Option Regex := do
  let chars := text.toList
  let (part, reader) ← (Read.expression (chars.length + 1) [] []).run { rest := chars }
  if reader.rest.isEmpty && part.depth ≤ maxDepth && part.expr.room ≤ maxRoom then
    some ⟨part.expr, reader.groups, reader.names⟩
  else
    none

end Logging.Pattern
