/-!
# Metrics

Counters of what happened to the records offered to a tree and to its handles and nodes. The
rejection rate is the share of offered records that a level or a filter turned away.
-/

namespace Logging

structure Metrics where
  /-- Records that passed the level and the filters, and were delivered. -/
  published : Nat := 0
  /-- Records below the effective level of their logger. -/
  belowLevel : Nat := 0
  /-- Records turned away by a filter. -/
  filtered : Nat := 0
  /-- Sink operations that failed. -/
  sinkFailures : Nat := 0
  /-- Notices of dropped handles that were dealt with. -/
  handlesReclaimed : Nat := 0
  /-- Nodes removed because nothing needed them. -/
  nodesPruned : Nat := 0
deriving DecidableEq, Repr, Inhabited

/-- The counters by name. -/
inductive Counter
  | published
  | belowLevel
  | filtered
  | sinkFailures
  | handlesReclaimed
  | nodesPruned
deriving DecidableEq, Repr

namespace Metrics

def get (m : Metrics) : Counter → Nat
  | .published => m.published
  | .belowLevel => m.belowLevel
  | .filtered => m.filtered
  | .sinkFailures => m.sinkFailures
  | .handlesReclaimed => m.handlesReclaimed
  | .nodesPruned => m.nodesPruned

/-- Add one to a counter. -/
def bump (m : Metrics) : Counter → Metrics
  | .published => { m with published := m.published + 1 }
  | .belowLevel => { m with belowLevel := m.belowLevel + 1 }
  | .filtered => { m with filtered := m.filtered + 1 }
  | .sinkFailures => { m with sinkFailures := m.sinkFailures + 1 }
  | .handlesReclaimed => { m with handlesReclaimed := m.handlesReclaimed + 1 }
  | .nodesPruned => { m with nodesPruned := m.nodesPruned + 1 }

@[simp] theorem get_bump (m : Metrics) (c c' : Counter) :
    (m.bump c).get c' = if c = c' then m.get c' + 1 else m.get c' := by
  cases c <;> cases c' <;> rfl

def rejected (m : Metrics) : Nat := m.belowLevel + m.filtered

def offered (m : Metrics) : Nat := m.published + m.rejected

/-- Rejected records in percent of the offered ones; zero if none was offered. -/
def rejectionRate (m : Metrics) : Float :=
  if m.offered = 0 then 0.0
  else (Float.ofNat m.rejected / (Float.ofNat m.published + Float.ofNat m.rejected)) * 100.0

end Metrics

end Logging
