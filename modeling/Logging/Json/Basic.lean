/-!
# JSON values

JSON values with the fields of objects in their order. A string is kept as the text it stands for;
one whose escapes stand for no text, because a surrogate has no partner, is kept as `none`. Of
numbers only the integers have a value.
-/

namespace Logging

inductive Json
  | null
  | bool (b : Bool)
  | int (n : Int)
  /-- A number that is not written as an integer. -/
  | real
  | string (text? : Option String)
  | array (items : List Json)
  | object (fields : List (Option String × Json))

namespace Json

def text (s : String) : Json := string (some s)

/-- An object with the given fields in this order. -/
def fields (l : List (String × Json)) : Json := object (l.map fun f => (some f.1, f.2))

end Json

end Logging
