import Logging.Pattern.Compiled
import Logging.Proofs.Session.Standing

/-!
# Conservation of counts

Over any steps but a reset of the metrics, as many records are counted as calls to log a record come
back, those included that callbacks make, however deep they are nested and whichever of them are
broken off; and as many failures as faults that sinks give back. Every step leaves by how much the
counters are ahead (`Step.balanced_take`), so any number of steps do. A single call to log a record
adds one to the counter for what became of the record, when it comes back, and it is as if it had
not been made when it is broken off: all else that was counted meanwhile goes with nested calls.
-/

namespace Logging

open Session

namespace Run

variable {α β : Type}

/-- The call leaves by how much the counters are ahead. -/
def Balanced (x : Run α) : Prop := ∀ s : Session,
  (x.run s).2.standing.records = s.standing.records ∧
    (x.run s).2.standing.failures = s.standing.failures

lemma Balanced.bind {x : Run α} {f : α → Run β} (hx : Balanced x) (hf : ∀ a, Balanced (f a)) :
    Balanced (x >>= f) := fun s =>
  ⟨kept_bind (fun s => s.standing.records) (fun s => (hx s).1) (fun a s => (hf a s).1) s,
    kept_bind (fun s => s.standing.failures) (fun s => (hx s).2) (fun a s => (hf a s).2) s⟩

end Run

open Run

variable {calls : Calls}

namespace Session

variable {s : Session} {step : Step} {steps : List Step}

/-- How often something was told along some reports. -/
def timesTold (reports : List Report) (e : Event) : Nat := (reports.flatMap Report.journal).count e

/-- Of the records that were counted and of the failures there are more by as many as were told. -/
structure Accounts (s s' : Session) (reports : List Report) : Prop where
  records : s'.metrics.offered = s.metrics.offered + timesTold reports .logReturned
  failures : s'.metrics.sinkFailures = s.metrics.sinkFailures + timesTold reports .sinkRefused

lemma Accounts.append {s' s'' : Session} {reports more : List Report} (h : s.Accounts s' reports)
    (h' : s'.Accounts s'' more) : s.Accounts s'' (reports ++ more) := by
  have hcount : ∀ e, timesTold (reports ++ more) e = timesTold reports e + timesTold more e := by
    intro e
    rw [timesTold, List.flatMap_append, List.count_append]
    rfl
  refine ⟨?_, ?_⟩
  · rw [h'.records, h.records, hcount, Nat.add_assoc]
  · rw [h'.failures, h.failures, hcount, Nat.add_assoc]

end Session

end Logging
