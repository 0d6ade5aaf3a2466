import BlogLedger.Json.Basic
import BlogLedger.Transition.Transaction

/-!
# Counters

What a ledger did since it was opened.

The counts are not stored.  They begin at zero each time a ledger is opened, so they tell of this
run and not of the ledger.

## Main Definitions

* `Counters` — the counts.
* `Counters.countDelivery` — the counts after a transition was made.
-/

namespace BlogLedger

/-- What a ledger did since it was opened. -/
structure Counters where
  checks : Nat
  delivered : Nat
  rejected : Nat
  tasksScheduled : Nat
  tasksCancelled : Nat
  tasksFired : Nat
  tasksFailed : Nat
  recordsWritten : Nat
  recordsDeleted : Nat
  journalRecords : Nat
  deriving DecidableEq, Repr

namespace Counters

/-- No counts yet. -/
def zero : Counters := ⟨0, 0, 0, 0, 0, 0, 0, 0, 0, 0⟩

/-- One more check. -/
def countCheck (c : Counters) : Counters := { c with checks := c.checks + 1 }

/-- One more rejected transition. -/
def countRejection (c : Counters) : Counters := { c with rejected := c.rejected + 1 }

/-- One more task fired. -/
def countFiring (c : Counters) : Counters := { c with tasksFired := c.tasksFired + 1 }

/-- One more task failed. -/
def countFailure (c : Counters) : Counters := { c with tasksFailed := c.tasksFailed + 1 }

/-- One more journal record. -/
def countRecord (c : Counters) : Counters := { c with journalRecords := c.journalRecords + 1 }

/-- One if something is there.  An outcome may name a task or none, and this is what it adds to a
count. -/
def one {α : Type} (a : Option α) : Nat := if a.isSome then 1 else 0

/-- One more transition with an outcome. -/
def countDelivery (o : Outcome) (c : Counters) : Counters :=
  { c with
    delivered := c.delivered + 1
    recordsWritten :=
      c.recordsWritten + if o.effect = .created ∨ o.effect = .updated then 1 else 0
    recordsDeleted := c.recordsDeleted + if o.effect = .deleted then 1 else 0
    tasksScheduled := c.tasksScheduled + one o.scheduled
    tasksCancelled := c.tasksCancelled + one o.cancelled }

/-- The counts as JSON. -/
def toJson (c : Counters) : Json :=
  .ofMembers [("checks", .ofNat c.checks), ("transitions_delivered", .ofNat c.delivered),
    ("transitions_rejected", .ofNat c.rejected), ("tasks_scheduled", .ofNat c.tasksScheduled),
    ("tasks_cancelled", .ofNat c.tasksCancelled), ("tasks_fired", .ofNat c.tasksFired),
    ("tasks_failed", .ofNat c.tasksFailed), ("records_written", .ofNat c.recordsWritten),
    ("records_deleted", .ofNat c.recordsDeleted), ("journal_records", .ofNat c.journalRecords)]

end Counters

end BlogLedger
