/-!
# Faults

What can go wrong, and how it is told. A fault holds its cause; `Fault.message` words it.
-/

namespace Logging

inductive Fault
  /-- Both places for attachments are taken by other keys. -/
  | attachmentCapacity (logger key : String)
  | unknownLevel (name : String)
  /-- A filter expression that cannot be read, with the byte at which reading failed. -/
  | expression (position : Nat) (message : String)
  /-- A sink that did not take a record. -/
  | sink (sink message : String)
  | io (message : String)
  | configuration (component message : String)
  /-- A text that is no regular expression; what is wrong with it is not told. -/
  | pattern
  | closed
  | other (message : String)
deriving DecidableEq, Repr

namespace Fault

def message : Fault → String
  | attachmentCapacity logger key =>
    "Attachment capacity exceeded on '" ++ logger ++ "': cannot attach key '" ++ key ++ "'"
  | unknownLevel name => "Unknown level name '" ++ name ++ "'"
  | expression position text =>
    "Filter expression error at position " ++ toString position ++ ": " ++ text
  | sink name text => "Sink '" ++ name ++ "' failed: " ++ text
  | io text => "IO error: " ++ text
  | configuration component text =>
    "Invalid configuration for " ++ component ++ ": " ++ text
  | pattern => "Invalid configuration for Filter"
  | closed => "Namespace already closed"
  | other text => text

end Fault

end Logging
