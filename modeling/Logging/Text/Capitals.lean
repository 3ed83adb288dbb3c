/-!
# Capital letters

Names that are matched without regard to case are compared in capitals. The names in question are
written in the letters A to Z, so only characters whose capital form lies in these letters matter:
the small letters, a few letters with a plain capital, and the ligatures that come apart.
-/

namespace Logging.Text

/-- The capital form of a character, where it lies in the letters A to Z; otherwise the character
itself, which then differs from every such letter. -/
def capital (c : Char) : List Char :=
  if 'a' ≤ c ∧ c ≤ 'z' then [c.toUpper]
  else match c with
    | 'ı' => ['I']
    | 'ſ' => ['S']
    | 'ß' => ['S', 'S']
    | 'ﬀ' => ['F', 'F']
    | 'ﬁ' => ['F', 'I']
    | 'ﬂ' => ['F', 'L']
    | 'ﬃ' => ['F', 'F', 'I']
    | 'ﬄ' => ['F', 'F', 'L']
    | 'ﬅ' => ['S', 'T']
    | 'ﬆ' => ['S', 'T']
    | c => [c]

/-- A name in capitals. -/
def capitals (s : String) : String := String.ofList (s.toList.flatMap capital)

end Logging.Text
