import Logging.Filter.Basic

/-!
# Writing filters

A filter is written as the expression it would be read from, without white space.
-/

namespace Logging.Filter

variable {π : Type}

def list (head : String) (items : List String) : String :=
  head ++ "(" ++ String.intercalate "," items ++ ")"

mutual

def render : Filter π → String
  | accept => "accept"
  | deny => "deny"
  | not f => "not(" ++ f.render ++ ")"
  | all fs => list "all" (renderList fs)
  | any fs => list "any" (renderList fs)
  | levels ls => list "levels" (ls.map (·.name))
  | levelRange min minIn max maxIn =>
    "levelRange" ++ (if minIn then "[" else "(") ++ min.name ++ "," ++ max.name ++
      (if maxIn then "]" else ")")
  | levelChange l => "levelChange(" ++ l.name ++ ")"
  | «match» p => "match(" ++ Text.Quoted.source p.source ++ ")"
  | substitute p replacement everywhere =>
    (if everywhere then "substituteAll(" else "substitute(") ++ Text.Quoted.source p.source ++ "," ++
      Text.Quoted.source replacement ++ ")"
  | named name _ => name
  | reference name _ => name

def renderList : List (Filter π) → List String
  | [] => []
  | f :: fs => f.render :: renderList fs

end

/-- A filter as it shows in descriptions. -/
def describe (f : Filter π) : String := "Filter(" ++ f.render ++ ")"

end Logging.Filter
