/-!
# Patterns and their engine

What regular expressions are, and how they match, is left to an engine. A compiled pattern is known
by the text it was compiled from and by what it makes of other texts; an engine says which texts it
compiles, and to what. Everything that reads filters is stated over an arbitrary engine, everything
that only applies them over arbitrary patterns.
-/

namespace Logging

/-- A compiled pattern. -/
structure Pattern where
  /-- The text that was compiled. -/
  source : String
  isMatch : String → Bool
  /-- Replace the first match, or all matches, after the replacement text; `none` if nothing
  matches. -/
  replace? (everywhere : Bool) (replacement text : String) : Option String

namespace Pattern

/-- Replace the first match, or all of them; a text without a match stays as it is. -/
def replace (p : Pattern) (everywhere : Bool) (replacement text : String) : String :=
  (p.replace? everywhere replacement text).getD text

/-- What compiles patterns. -/
class Engine where
  /-- The pattern of a text, if the engine takes it for a regular expression. -/
  compile? : String → Option Pattern
  /-- A compiled pattern keeps its text. -/
  source_of_compile? {source : String} {p : Pattern} : compile? source = some p → p.source = source

end Pattern

end Logging
