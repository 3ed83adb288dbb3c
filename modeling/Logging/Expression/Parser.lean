import Logging.Expression.Lexer
import Logging.Filter.Basic

/-!
# Reading filter expressions

    expr := accept | deny | not ( expr )
          | all ( expr , ... ) | any ( expr , ... )
          | levels ( level , ... )
          | levelRange [ level , level ]      (either bracket may be round instead)
          | levelChange ( level )
          | match ( string )
          | substitute ( string , string ) | substituteAll ( string , string )
          | identifier

A recursive descent over the tokens. An identifier that is no keyword names a filter, which is
looked up while reading, as are the names of levels. Expressions are nested at most `maxNesting`
deep, and the reader recurses on the depth that is left. The first token that cannot continue an
expression is reported.
-/

namespace Logging.Expression

/-- Deepest nesting of expressions. -/
def maxNesting : Nat := 64

/-- The names that an expression may use. -/
structure Resolver (π : Type) where
  level? : String → Option Level
  filter? : String → Option (Filter π)

/-- Reading takes tokens from the front, or fails. -/
abbrev Parse := StateT (List Placed) (Except Error)

namespace Parse

variable {π α : Type}

def fail (position : Nat) (cause : Cause) : Parse α := throw ⟨position, cause⟩

/-- The byte at which the next token begins; `stop` is the end of the text. -/
def position (stop : Nat) : Parse Nat := return ((← get).head?.map Placed.position).getD stop

/-- The next token, where something is expected. -/
def next (stop : Nat) (expected : Expected) : Parse Placed := do
  match ← get with
  | [] => fail stop (.missing expected)
  | t :: ts =>
    set ts
    return t

def unexpected (expected : Expected) (t : Placed) : Parse α :=
  fail t.position (.unexpected expected t.token)

/-- A token that is determined. -/
def expect (stop : Nat) (t : Token) : Parse Unit := do
  let found ← next stop (.token t)
  if found.token = t then return () else unexpected (.token t) found

/-- An identifier, with its position. -/
def ident (stop : Nat) (expected : Expected) : Parse (String × Nat) := do
  let found ← next stop expected
  match found.token with
  | .ident name => return (name, found.position)
  | _ => unexpected expected found

/-- A string, with its position. -/
def string (stop : Nat) : Parse (String × Nat) := do
  let found ← next stop .string
  match found.token with
  | .string value => return (value, found.position)
  | _ => unexpected .string found

def level (stop : Nat) (names : Resolver π) : Parse Level := do
  let (name, position) ← ident stop .level
  match names.level? name with
  | some l => return l
  | none => fail position (.unknownLevel name)

def pattern [Pattern.Engine] (source : String) (position : Nat) : Parse Pattern :=
  match Pattern.Engine.compile? source with
  | some p => return p
  | none => fail position .invalidPattern

/-- The items of a list after its first one. Each of them takes tokens, so their number is bounded
by the number of tokens left. -/
def moreItems (stop : Nat) (item : Parse α) : Nat → Parse (List α)
  | 0 => fail stop (.missing .listGoesOn)
  | fuel + 1 => do
    let found ← next stop .listGoesOn
    match found.token with
    | .comma =>
      let a ← item
      return a :: (← moreItems stop item fuel)
    | .rightParen => return []
    | _ => unexpected .listGoesOn found

/-- A list of at least one item in parentheses. -/
def list (stop : Nat) (item : Parse α) : Parse (List α) := do
  expect stop .leftParen
  let a ← item
  return a :: (← moreItems stop item ((← get).length + 1))

/-- The bracket that begins a range; whether it includes the lower level. -/
def rangeStart (stop : Nat) : Parse Bool := do
  let found ← next stop .rangeStart
  match found.token with
  | .leftBracket => return true
  | .leftParen => return false
  | _ => unexpected .rangeStart found

/-- The bracket that ends a range; whether it includes the upper level. -/
def rangeEnd (stop : Nat) : Parse Bool := do
  let found ← next stop .rangeEnd
  match found.token with
  | .rightBracket => return true
  | .rightParen => return false
  | _ => unexpected .rangeEnd found

/-- One item in parentheses. -/
def parens (stop : Nat) (item : Parse α) : Parse α := do
  expect stop .leftParen
  let a ← item
  expect stop .rightParen
  return a

def substitution [Pattern.Engine] (stop : Nat) (everywhere : Bool) : Parse (Filter π) := do
  expect stop .leftParen
  let (source, position) ← string stop
  expect stop .comma
  let (replacement, _) ← string stop
  expect stop .rightParen
  return .substitute (← pattern source position) replacement everywhere

/-- What follows an identifier at the head of an expression; `inner` reads the expressions in
it. -/
def term [Pattern.Engine] (stop : Nat) (names : Resolver π) (inner : Parse (Filter π))
    (name : String) (position : Nat) : Parse (Filter π) :=
  match name with
  | "accept" => return .accept
  | "deny" => return .deny
  | "not" => return .not (← parens stop inner)
  | "all" => return .all (← list stop inner)
  | "any" => return .any (← list stop inner)
  | "levels" => return .levels (← list stop (level stop names))
  | "levelRange" => do
    let minIncluded ← rangeStart stop
    let min ← level stop names
    expect stop .comma
    let max ← level stop names
    let maxIncluded ← rangeEnd stop
    return .levelRange min minIncluded max maxIncluded
  | "levelChange" => return .levelChange (← parens stop (level stop names))
  | "match" => do
    let (source, position) ← parens stop (string stop)
    return .match (← pattern source position)
  | "substitute" => substitution stop false
  | "substituteAll" => substitution stop true
  | name =>
    match names.filter? name with
    | some f => return f.registeredAs name
    | none => fail position (.unknownFilter name)

/-- An expression that is nested no deeper than what is left. -/
def expr [Pattern.Engine] (stop : Nat) (names : Resolver π) : Nat → Parse (Filter π)
  | 0 => do fail (← position stop) .tooDeep
  | depth + 1 => do
    let (name, position) ← ident stop .filter
    term stop names (expr stop names depth) name position

/-- An expression and nothing after it. -/
def whole [Pattern.Engine] (stop : Nat) (names : Resolver π) : Parse (Filter π) := do
  let f ← expr stop names maxNesting
  match ← get with
  | [] => return f
  | t :: _ => fail t.position (.trailing t.token)

end Parse

/-- The filter that a text writes, or the first place where it is no filter. -/
def parse {π : Type} [Pattern.Engine] (names : Resolver π) (text : String) :
    Except Error (Filter π) := do
  let tokens ← tokenize text
  (Parse.whole text.utf8ByteSize names).run' tokens

end Logging.Expression
