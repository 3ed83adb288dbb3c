import Logging.Json.Basic
import Logging.Level.Basic
import Logging.Record.Timestamp

/-!
# Records

What is logged: a level and a message, the name of the logger it went to, and where it comes from.
Filters may change level and message.
-/

namespace Logging

/-- When and on which thread a record was made. -/
structure Origin where
  timestamp : Timestamp := {}
  threadId : String := ""
  threadName? : Option String := none
deriving DecidableEq, Repr, Inhabited

structure Record where
  level : Level
  message : String
  /-- Empty until the record is offered to a logger. -/
  loggerName : String := ""
  origin : Origin := {}
deriving DecidableEq, Repr, Inhabited

namespace Level

def toJson (l : Level) : Json := .fields [("name", .text l.name), ("severity", .int l.severity)]

end Level

namespace Record

def severity (r : Record) : Int := r.level.severity

def toJson (r : Record) : Json :=
  .fields [
    ("level", r.level.toJson),
    ("message", .text r.message),
    ("logger_name", .text r.loggerName),
    ("timestamp", .text r.origin.timestamp.text),
    ("thread_id", .text r.origin.threadId),
    ("thread_name", (r.origin.threadName?.map Json.text).getD .null)]

end Record

end Logging
