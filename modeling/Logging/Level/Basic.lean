import Logging.Fault
import Logging.Text.Capitals
import Logging.Text.Quoted

/-!
# Levels

A level is a name with a severity. Levels are ordered by severity, and by name where severities
agree. The eight standard levels can be read by name without regard to case.
-/

namespace Logging

structure Level where
  name : String
  severity : Int
deriving DecidableEq, Repr

namespace Level

/-- The least severity. -/
def leastSeverity : Int := -2147483648

/-- The greatest severity. -/
def greatestSeverity : Int := 2147483647

/-! ### Standard levels -/

def all : Level := ⟨"ALL", leastSeverity⟩
def trace : Level := ⟨"TRACE", 400⟩
def debug : Level := ⟨"DEBUG", 500⟩
def info : Level := ⟨"INFO", 800⟩
def warn : Level := ⟨"WARN", 900⟩
def error : Level := ⟨"ERROR", 1000⟩
def fatal : Level := ⟨"FATAL", 1100⟩
def off : Level := ⟨"OFF", greatestSeverity⟩

/-- The standard levels, lowest severity first. -/
def standard : List Level := [all, trace, debug, info, warn, error, fatal, off]

instance : Inhabited Level := ⟨info⟩

/-- The standard level of a name in any mixture of capitals and small letters. -/
def ofName (s : String) : Except Fault Level :=
  match Text.capitals s with
  | "ALL" => .ok all
  | "TRACE" => .ok trace
  | "DEBUG" => .ok debug
  | "INFO" => .ok info
  | "WARN" | "WARNING" => .ok warn
  | "ERROR" => .ok error
  | "FATAL" => .ok fatal
  | "OFF" => .ok off
  | _ => .error (.unknownLevel s)

/-! ### Order -/

/-- By severity, then by name. -/
def compare (a b : Level) : Ordering :=
  (Ord.compare a.severity b.severity).then (Ord.compare a.name b.name)

instance : Ord Level := ⟨Level.compare⟩

instance : LT Level := ltOfOrd

/-- The greater of two levels, the second if they are equal. -/
def max (a b : Level) : Level := if (a.compare b).isGT then a else b

/-! ### Text -/

/-- A level with its parts named. -/
def describe (l : Level) : String :=
  "Level \x7b name: " ++ Text.Quoted.shown l.name ++ ", severity: " ++ toString l.severity ++ " \x7d"

end Level

end Logging
