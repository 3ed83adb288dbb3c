/-!
# Paths

A dotted name is a path of segments. A dot at the very end adds nothing, while all other dots
separate segments, which may be empty; the empty name is the empty path.
-/

namespace Logging.Path

/-- The part of a name before its first dot, and the part after it. -/
def splitFirst (name : List Char) : List Char × List Char :=
  (name.takeWhile (· != '.'), (name.dropWhile (· != '.')).drop 1)

theorem splitFirst_length {name : List Char} (h : name ≠ []) :
    (splitFirst name).2.length < name.length := by
  have hd := (List.dropWhile_sublist (fun c : Char => c != '.') (l := name)).length_le
  cases name with
  | nil => exact absurd rfl h
  | cons c cs =>
    simp only [splitFirst, List.length_drop, List.length_cons] at *
    omega

/-- The segments of a name, taken off its front one at a time. -/
def segments (name : List Char) : List String :=
  if h : name = [] then []
  else
    have := splitFirst_length h
    String.ofList (splitFirst name).1 :: segments (splitFirst name).2
termination_by name.length

def ofString (name : String) : List String := segments name.toList

end Logging.Path
