import Logging.Pattern.Engine
import Logging.Pattern.Replacement

/-!
# The searching engine

The engine that programs run with: a pattern is compiled to a matching program once, and searched
for depth first. Where it is not opened, nothing is known of the engine.
-/

namespace Logging.Pattern

/-- The pattern of a text with its matcher. -/
def ofMatcher (source : String) (m : Matcher) : Pattern where
  source
  isMatch := m.isMatch
  replace? := m.replace?

/-- The pattern of a text, if that can be read as a regular expression. -/
def ofString? (source : String) : Option Pattern :=
  (Regex.ofString? source).map fun r => ofMatcher source (Matcher.ofRegex r)

theorem source_of_ofString? {source : String} {p : Pattern} (h : ofString? source = some p) :
    p.source = source := by
  obtain ⟨r, -, rfl⟩ := Option.map_eq_some_iff.1 h
  rfl

namespace Searching

scoped instance engine : Engine where
  compile? := ofString?
  source_of_compile? := source_of_ofString?

end Searching

end Logging.Pattern
