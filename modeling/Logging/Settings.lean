import Logging.Json.Reader
import Logging.Level.Reader
import Logging.Record.Basic

/-!
# Settings of a namespace

The settings that a namespace can be built from, and their form in JSON. The baseline level is
named: it is the first of the levels listed with exactly this name, or else a standard level of
the name in any mixture of capitals and small letters.
-/

namespace Logging

structure Settings where
  strongChildren : Bool := true
  baseline : String := Level.info.name
  levels : List Level := []
deriving DecidableEq, Repr, Inhabited

namespace Settings

/-- Settings that are not given take their defaults. -/
def ofJson? (j : Json) : Option Settings := do
  match ← j.fields? ["strong_children", "baseline_level", "levels"] with
  | [strong?, baseline?, levels?] =>
    let default : Settings := {}
    some {
      strongChildren := ← strong?.elim (some default.strongChildren) Json.asBool?
      baseline := ← baseline?.elim (some default.baseline) Json.asText?
      levels := ← levels?.elim (some default.levels) fun l => do (← l.asArray?).mapM Level.ofJson? }
  | _ => none

def read? (text : String) : Option Settings := (Json.ofString? text).bind ofJson?

def toJson (s : Settings) : Json :=
  .fields [
    ("strong_children", .bool s.strongChildren),
    ("baseline_level", .text s.baseline),
    ("levels", .array (s.levels.map Level.toJson))]

/-- The level that the baseline names. -/
def baselineLevel (s : Settings) : Except Fault Level :=
  match s.levels.find? (·.name == s.baseline) with
  | some l => .ok l
  | none =>
    match Level.ofName s.baseline with
    | .ok l => .ok l
    | .error _ =>
      .error (.configuration "NamespaceConfig" ("unknown baseline level '" ++ s.baseline ++ "'"))

end Settings

end Logging
