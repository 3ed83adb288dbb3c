import Logging.Metrics.Basic

/-!
# Use of metrics

The steps of a program that counts with one set of counters and keeps one copy of them.
-/

namespace Logging.Metrics

inductive Use
  | count (counter : Counter)
  | reset
  /-- Copy the counters. -/
  | keep
  /-- Look at the copy. -/
  | kept
deriving DecidableEq, Repr

inductive Response
  | nothing
  | number (n : Nat)
  | metrics (m : Metrics)
deriving DecidableEq, Repr

/-- Counters and the copy that was kept of them. -/
structure User where
  now : Metrics := {}
  copy : Metrics := {}

namespace User

/-- Counting gives the count before. -/
def use (u : User) : Use → Response × User
  | .count c => (.number (u.now.get c), { u with now := u.now.bump c })
  | .reset => (.nothing, { u with now := {} })
  | .keep => (.nothing, { u with copy := u.now })
  | .kept => (.metrics u.copy, u)

/-- Take a step several times over, and give the last answer. -/
def repeated (u : User) (step : Use) : Nat → Response × User
  | 0 => (.nothing, u)
  | n + 1 => (u.repeated step n).2.use step

end User

end Logging.Metrics
