import Logging.Fault

/-!
# Failed sink operations

What the error channel of a sink is told when an operation fails.
-/

namespace Logging

inductive SinkOperation
  | publish
  | flush
deriving DecidableEq, Repr

def SinkOperation.name : SinkOperation → String
  | publish => "publish"
  | flush => "flush"

structure SinkFailure where
  sink : String
  operation : SinkOperation
  loggerName : String
  /-- The message of the record that was to be delivered; a flush has none. -/
  message? : Option String
  fault : Fault
deriving DecidableEq, Repr

def SinkFailure.describe (f : SinkFailure) : String :=
  "Sink '" ++ f.sink ++ "' " ++ f.operation.name ++ " failed for logger '" ++ f.loggerName ++ "': " ++
    f.fault.message

end Logging
