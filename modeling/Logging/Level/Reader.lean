import Logging.Json.Reader
import Logging.Level.Basic

/-!
# Levels in JSON

A level is an object with its name and its severity, or an array of the two.
-/

namespace Logging.Level

def ofJson? (j : Json) : Option Level :=
  match j.fields? ["name", "severity"] with
  | some [some name, some severity] => do
    some ⟨← name.asText?, ← severity.asInt32?⟩
  | _ => none

/-- The level that a JSON text writes. -/
def read? (text : String) : Option Level := (Json.ofString? text).bind ofJson?

end Logging.Level
