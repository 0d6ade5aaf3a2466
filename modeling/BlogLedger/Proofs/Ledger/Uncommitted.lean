import BlogLedger.Proofs.Ledger.Counting
import BlogLedger.Proofs.Ledger.History

/-!
# Counts without a record

A transaction is counted after its record is written, and a fired task before.  So when the journal
refuses a record the store stays as it is in both cases, but the deletion of a fired task has been
counted all the same.

A counter that is said to count what was committed should not move when nothing is committed.  It
does not for transactions.  For fired tasks it does, and a concrete ledger shows it: its journal
lies on a device that is full, one task is due, and the article stays while its deletion is counted.

## Main Definitions

* `Ledger.journaled` — a ledger whose journal is in any state.
* `Counters.committed` — the counts of what was committed.
* `Ledger.CountsCommitted` — a refused record leaves them as they are.
* `Ledger.CountsDeletions` — what a refused record does to the counters.

## Main Results

* `Ledger.refused_records_count_deletions` — a refused record counts one rejected transition, or one
  delivered deletion if it is that of a fired task.
* `Ledger.not_countsCommitted` — so work is counted that was never committed.

## Design Notes

The result asks nothing of the journal.  So it covers a device that is full as well as a journal
that takes no more records after an earlier failure, and for each of them it says by how much the
counts are off.
-/

namespace BlogLedger

/-- The counts of what was committed, without those of what was tried.  The latter may well count
work that came to nothing. -/
def Counters.committed (c : Counters) : Counters :=
  { c with checks := 0, rejected := 0, tasksFired := 0, tasksFailed := 0 }

namespace Ledger

/-- The same ledger with a journal in any state.  A run in memory leads to all snapshots that there
are, and with this any of them can be combined with any journal. -/
def journaled (j : Journal) (l : Ledger) : Ledger := { l with journal := some j }

/-- When the journal refuses the record of a transaction or of a fired task, nothing is committed,
and the counts of what was committed stay as they are.  This is what one would expect of them, and
it is refuted below. -/
structure CountsCommitted (l : Ledger) : Prop where
  deliver : ∀ tx fault, (l.deliver tx).result = .error (.of (.storage fault)) →
    (l.deliver tx).ledger.counters.committed = l.counters.committed
  fire : ∀ now id task fault, l.ensureTime now = .ok () →
    Schedule.task? id l.store = .ok (some task) →
    (l.fire now id task).result = .error (.of (.storage fault)) →
      (l.fire now id task).ledger.counters.committed = l.counters.committed

/-- When the journal refuses a record nothing is committed.  A transaction is then counted as
rejected and as nothing else, but a task is counted as fired, as delivered and as a deletion.  This
is what happens instead. -/
structure CountsDeletions (l : Ledger) : Prop where
  deliver : ∀ tx f, (l.deliver tx).result = .error f →
    (l.deliver tx).ledger.store = l.store
      ∧ (l.deliver tx).ledger.counters = l.counters.countRejection
  fire : ∀ now id task f, l.ensureTime now = .ok () →
    Schedule.task? id l.store = .ok (some task) → (l.fire now id task).result = .error f →
      (∃ fault, f = .of (.storage fault)) ∧ (l.fire now id task).ledger.store = l.store
        ∧ (l.fire now id task).ledger.counters = l.counters.countExpired 1 0
  /-- In the middle of a tick the tasks before are committed and recorded, and there is one deletion
  too many. -/
  tick : ∀ now f, l.ensureTime now = .ok () → (l.tick now).result = .error f →
    (∃ fault, f = .of (.storage fault))
      ∧ (l.tick now).ledger.snapshot = l.snapshot.afterFiring now (l.fired now)
      ∧ (l.tick now).ledger.counters
        = l.counters.countExpired ((l.fired now).length + 1) (l.fired now).length

variable {l : Ledger} {σ : Snapshot}

/-- A run leads to a sound snapshot, whatever state the journal is in.  Snapshots are read from the
store alone. -/
theorem Reachable.shows_journaled (h : l.Reachable) (j : Journal) :
    (l.journaled j).Shows l.snapshot := h.shows.of_store_eq rfl

/-- A scheduled task that is not fired has been stopped by the journal, and it is counted.  On a
sound snapshot its message cannot fail, so the journal is the only cause that is left. -/
theorem Shows.refused_fire (h : l.Shows σ) {now : Timestamp} {id : TaskId} {task : Task}
    {f : Failure} (htime : l.ensureTime now = .ok ()) (htask : Schedule.task? id l.store = .ok (some task))
    (herror : (l.fire now id task).result = .error f) :
    (∃ fault, f = .of (.storage fault)) ∧ (l.fire now id task).ledger.store = l.store
      ∧ (l.fire now id task).ledger.counters = l.counters.countExpired 1 0 := by
  have hrow : σ.tasks.row id.number = some task := by
    rw [h.stored.getTask, Except.ok.injEq] at htask
    exact htask
  have husable := usable_of_ensureTime htime
  rcases h.fire husable hrow with ⟨hok, -⟩ | ⟨⟨fault, hfault⟩, hstore⟩
  · cases hok.symm.trans herror
  · rcases h.counters_fire husable hrow with ⟨firing, hok, -⟩ | ⟨-, hcounters, -⟩
    · cases hok.symm.trans herror
    · cases hfault.symm.trans herror
      exact ⟨⟨fault, rfl⟩, hstore, hcounters⟩

/-- A deletion that is counted without a record changes the counts of what was committed.  One
counter that moves is enough. -/
theorem committed_countExpired_ne (c : Counters) : (c.countExpired 1 0).committed ≠ c.committed := by
  intro h
  exact Nat.succ_ne_self c.delivered (congrArg Counters.delivered h)

/-- What a refused record does to the counters, wherever a run may have led.  In a tick the refused
record is the last one that is tried, and so the count is off by one and not by more. -/
theorem refused_records_count_deletions (h : l.Reachable) (j : Journal) :
    (l.journaled j).CountsDeletions := by
  have hl := h.shows_journaled j
  have hsnapshot : (l.journaled j).snapshot = l.snapshot := rfl
  refine ⟨fun tx f herror => ?_, fun now id task f htime htask herror => ?_,
    fun now f htime herror => ?_⟩
  · exact ⟨store_of_deliver_error herror, counters_deliver_error herror⟩
  · exact hl.refused_fire htime htask herror
  · rcases hl.counters_tick htime with ⟨report, hok, -⟩ | ⟨⟨fault, hfault⟩, hcounters, -⟩
    · cases hok.symm.trans herror
    · cases hfault.symm.trans herror
      rw [hsnapshot, (hl.tick now).snapshot_eq]
      exact ⟨⟨fault, rfl⟩, rfl, hcounters⟩

/-! ### A full device -/

/-- The ledger after the short run, with a journal on a device that is full. -/
def fullSample : Ledger := sample.journaled (.ofFile "journal.dat" .fullDevice true)

/-- The task that the short run has scheduled. -/
def sampleTask : Task := ⟨⟨900⟩, .deleteArticle ⟨1⟩⟩

/-- The task is due, but the journal does not take its record. -/
theorem fullSample_fire : fullSample.ensureTime ⟨900⟩ = .ok ()
    ∧ Schedule.task? ⟨1⟩ fullSample.store = .ok (some sampleTask)
    ∧ ∃ f, (fullSample.fire ⟨900⟩ ⟨1⟩ sampleTask).result = .error f := by
  obtain ⟨htime, htask, hnone⟩ : fullSample.ensureTime ⟨900⟩ = .ok ()
      ∧ Schedule.task? ⟨1⟩ fullSample.store = .ok (some sampleTask)
      ∧ (fullSample.fire ⟨900⟩ ⟨1⟩ sampleTask).result.toOption.isNone = true := by
    decide +kernel
  refine ⟨htime, htask, ?_⟩
  cases hresult : (fullSample.fire ⟨900⟩ ⟨1⟩ sampleTask).result with
  | error f => exact ⟨f, rfl⟩
  | ok firing =>
    rw [hresult] at hnone
    cases hnone

/-- The article stays when its record is refused, but its deletion is counted. -/
theorem refused_records_count_deletions_sample :
    sample.Reachable ∧ fullSample.CountsDeletions
      ∧ (∃ fault, (fullSample.fire ⟨900⟩ ⟨1⟩ sampleTask).result = .error (.of (.storage fault)))
      ∧ (fullSample.fire ⟨900⟩ ⟨1⟩ sampleTask).ledger.store = fullSample.store
      ∧ (fullSample.fire ⟨900⟩ ⟨1⟩ sampleTask).ledger.counters
        = fullSample.counters.countExpired 1 0 := by
  have hcounts : fullSample.CountsDeletions := refused_records_count_deletions sample_reachable _
  obtain ⟨htime, htask, f, herror⟩ := fullSample_fire
  obtain ⟨⟨fault, rfl⟩, hstore, hcounters⟩ :=
    hcounts.fire ⟨900⟩ ⟨1⟩ sampleTask f htime htask herror
  exact ⟨sample_reachable, hcounts, ⟨fault, herror⟩, hstore, hcounters⟩

/-- Work is counted that was never committed: a deletion whose record the journal has refused. -/
theorem not_countsCommitted :
    ¬ ∀ (l : Ledger) (j : Journal), l.Reachable → (l.journaled j).CountsCommitted := by
  intro hall
  have hcounts : fullSample.CountsCommitted := hall sample _ sample_reachable
  have hl : fullSample.Shows sample.snapshot := sample_reachable.shows_journaled _
  obtain ⟨htime, htask, f, herror⟩ := fullSample_fire
  obtain ⟨⟨fault, rfl⟩, -, hcounters⟩ := hl.refused_fire htime htask herror
  have hsame := hcounts.fire ⟨900⟩ ⟨1⟩ sampleTask fault htime htask herror
  rw [hcounters] at hsame
  exact committed_countExpired_ne _ hsame

end Ledger

end BlogLedger
