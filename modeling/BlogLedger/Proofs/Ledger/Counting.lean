import BlogLedger.Proofs.Ledger.Recorded

/-!
# What calls count

Every call moves the counters by what it does.  A transaction that fails is counted as one rejected
transition and nothing else, also when it fails at the journal.  A task is counted as fired, and its
deletion as delivered, before its record is written.

What is counted does not follow from what is committed, and so it has to be read off each call.  The
order of the steps inside a call matters: a transaction is counted after its record is written, and
a fired task before.  A refused record is therefore invisible in the counters in the one case and
not in the other.  The lemmas say both cases in full, and the results on balance and on refused
records rest on them.

## Main Definitions

* `Ledger.perCommit` — how many journal records a commit writes.
* `Counters.countExpired` — the counts after tasks were fired that deleted their articles.

## Main Results

* `Ledger.counters_check`, `Ledger.counters_deliver_error`, `Ledger.counters_deliver_ok` — what a
  check and a transaction count.
* `Ledger.Shows.counters_fire`, `Ledger.Shows.counters_fireAll` — what fired tasks count.
* `Ledger.Shows.counters_tick` — what a tick counts, also when the journal stops it.
* `Ledger.isSome_journal_run` — a ledger keeps its journal, and one without a journal gets none.
-/

namespace BlogLedger

namespace Counters

variable (c : Counters) (fired fired' recorded recorded' : Nat)

/-- The counts after records were written to a journal.  It takes a number and not a journal, so
that the records of a whole tick are counted in one go. -/
def countRecords (count : Nat) (c : Counters) : Counters :=
  { c with journalRecords := c.journalRecords + count }

/-- The counts after tasks were fired that deleted their articles, and records were written for some
of them.  The two numbers differ only when the journal stops a tick, and there they differ by one. -/
def countExpired (fired recorded : Nat) (c : Counters) : Counters :=
  { c with
    delivered := c.delivered + fired
    tasksFired := c.tasksFired + fired
    recordsDeleted := c.recordsDeleted + fired
    journalRecords := c.journalRecords + recorded }

theorem countExpired_zero : c.countExpired 0 0 = c := rfl

/-- Tasks that are counted one after the other are counted together.  The induction over the tasks
of a tick ends with it. -/
theorem countExpired_countExpired : (c.countExpired fired recorded).countExpired fired' recorded'
    = c.countExpired (fired + fired') (recorded + recorded') := by
  simp only [countExpired, Nat.add_assoc]

/-- A task that deletes its article is counted as fired, as delivered and as a deletion.  On a
ledger with a history there is no other kind of task, so a tick counts nothing else. -/
theorem countDelivery_countFiring (article : RecordId) :
    c.countFiring.countDelivery (.on .deleted article) = c.countExpired 1 0 := rfl

theorem countRecords_countExpired : (c.countExpired fired recorded).countRecords recorded'
    = c.countExpired fired (recorded + recorded') := by
  simp only [countExpired, countRecords, Nat.add_assoc]

end Counters

namespace Ledger

/-- How many journal records a commit writes: one if there is a journal.  A ledger without a journal
runs the same code and counts no records, and with this number one statement covers both. -/
def perCommit (l : Ledger) : Nat := if l.journal.isSome then 1 else 0

variable {l : Ledger} {σ : Snapshot} {tx : Transaction} {now : Timestamp} {batch : Batch}
  {id : TaskId} {task : Task} {f : Failure}

/-! ### The journal stays -/

theorem isSome_journal_commit (l : Ledger) (batch : Batch) :
    (l.commit batch).ledger.journal.isSome = l.journal.isSome := by
  rcases commit_cases batch l with ⟨hj, h⟩ | ⟨j, k, fault, hj, -, h⟩ | ⟨j, k, offset, log, hj, -, h⟩
  · rw [h]
  · rw [h, hj]
    rfl
  · rw [h, hj]
    rfl

theorem isSome_journal_fire (l : Ledger) (now : Timestamp) (id : TaskId) (task : Task) :
    (l.fire now id task).ledger.journal.isSome = l.journal.isSome := by
  cases hfired : firedOn now id task l.store with
  | error f => rw [(fire_of_firedOn_error hfired).2.2]
  | ok left =>
    obtain ⟨counts, -, hledger⟩ := fire_of_firedOn_ok hfired
    rw [hledger]
    exact isSome_journal_commit (l.count counts) _

theorem isSome_journal_fireAll (now : Timestamp) (due : List (TaskId × Task)) (l : Ledger) :
    (l.fireAll now due).ledger.journal.isSome = l.journal.isSome := by
  induction due generalizing l with
  | nil => rfl
  | cons x rest ih =>
    obtain ⟨id, task⟩ := x
    have hfirst := isSome_journal_fire l now id task
    cases hfire : (l.fire now id task).result with
    | ok firing =>
      rw [fireAll_cons_ok hfire]
      exact (ih _).trans hfirst
    | error f =>
      rw [fireAll_cons_error hfire]
      exact hfirst

/-- A ledger keeps its journal, and one without a journal gets none.  So the number of records for
each commit is the same at every call of a run. -/
theorem isSome_journal_run (l : Ledger) (c : Call) :
    (c.run l).journal.isSome = l.journal.isSome := by
  cases c with
  | check tx =>
    show (l.check tx).ledger.journal.isSome = _
    unfold check
    cases l.price tx <;> rfl
  | deliver tx =>
    show (l.deliver tx).ledger.journal.isSome = _
    rcases deliver_cases tx l with ⟨f, -, -, hledger⟩
      | ⟨outcome, batch, -, ⟨f, -, -, hledger⟩ | ⟨-, -, hledger⟩⟩
    · rw [hledger]
      rfl
    · rw [hledger]
      exact isSome_journal_commit l batch
    · rw [hledger]
      exact isSome_journal_commit l batch
  | tick now limit =>
    show ((l.limited limit).tick now).ledger.journal.isSome = _
    unfold tick
    cases (l.limited limit).dueTasks now with
    | error f => rfl
    | ok due =>
      have hall := isSome_journal_fireAll now due (l.limited limit)
      dsimp only
      cases ((l.limited limit).fireAll now due).result <;> exact hall

theorem perCommit_congr {m : Ledger} (h : m.journal.isSome = l.journal.isSome) :
    m.perCommit = l.perCommit := by
  unfold perCommit
  rw [h]

theorem perCommit_of_volatile (h : l.journal = none) : l.perCommit = 0 := by
  unfold perCommit
  rw [h]
  rfl

/-! ### Commits, checks and transactions -/

/-- A commit counts the record that it writes, and nothing else.  Everything that is counted besides
is counted by the caller, before or after. -/
theorem counters_commit_ok (h : (l.commit batch).result = .ok ()) :
    (l.commit batch).ledger.counters = l.counters.countRecords l.perCommit := by
  unfold perCommit
  rcases commit_cases batch l with ⟨hj, hcommit⟩ | ⟨j, k, fault, hj, -, hcommit⟩
    | ⟨j, k, offset, log, hj, -, hcommit⟩
  · rw [hcommit, hj]
    rfl
  · rw [hcommit] at h
    cases h
  · rw [hcommit, hj]
    rfl

/-- A commit that the journal refuses counts nothing.  It can only happen if there is a journal, and
callers need to know that as well. -/
theorem counters_commit_error (h : (l.commit batch).result = .error f) :
    (l.commit batch).ledger.counters = l.counters ∧ l.perCommit = 1 := by
  unfold perCommit
  rcases commit_cases batch l with ⟨hj, hcommit⟩ | ⟨j, k, fault, hj, -, hcommit⟩
    | ⟨j, k, offset, log, hj, -, hcommit⟩
  · rw [hcommit] at h
    cases h
  · rw [hcommit, hj]
    exact ⟨rfl, rfl⟩
  · rw [hcommit] at h
    cases h

/-- A check is counted, and once more as a rejected transition if it refuses.  It is the only call
that counts and leaves the store and the journal as they are in every case. -/
theorem counters_check (tx : Transaction) (l : Ledger) :
    (l.check tx).ledger.counters = match (l.check tx).result with
      | .ok _ => l.counters.countCheck
      | .error _ => l.counters.countCheck.countRejection := by
  unfold check
  cases l.price tx <;> rfl

/-- A transaction that fails is counted as rejected, and nothing else is counted.  It makes no
difference whether the handler or the journal has refused it: the outcome is counted after the
commit. -/
theorem counters_deliver_error (h : (l.deliver tx).result = .error f) :
    (l.deliver tx).ledger.counters = l.counters.countRejection := by
  rcases deliver_cases tx l with ⟨g, -, -, hledger⟩
    | ⟨outcome, batch, -, ⟨g, hcommit, -, hledger⟩ | ⟨-, hresult, -⟩⟩
  · rw [hledger]
    rfl
  · rw [hledger]
    exact congrArg Counters.countRejection (counters_commit_error hcommit).1
  · cases hresult.symm.trans h

/-- A transaction that is made is counted with its outcome and its record.  The record is counted
first, by the commit. -/
theorem counters_deliver_ok {outcome : Outcome} (h : (l.deliver tx).result = .ok outcome) :
    (l.deliver tx).ledger.counters
      = (l.counters.countRecords l.perCommit).countDelivery outcome := by
  rcases deliver_cases tx l with ⟨f, -, hresult, -⟩
    | ⟨outcome', batch, -, ⟨f, -, hresult, -⟩ | ⟨hcommit, hresult, hledger⟩⟩
  · cases hresult.symm.trans h
  · cases hresult.symm.trans h
  · cases hresult.symm.trans h
    rw [hledger]
    exact congrArg (Counters.countDelivery outcome) (counters_commit_ok hcommit)

/-! ### Fired tasks -/

/-- A scheduled task is counted as one that deleted its article, whether or not the journal takes
its record; the record is counted only if it does.  The counts are moved before the commit, and a
refusal does not move them back. -/
theorem Shows.counters_fire (h : l.Shows σ) (htime : now.Usable)
    (hrow : σ.tasks.row id.number = some task) :
    (∃ firing, (l.fire now id task).result = .ok firing
        ∧ (l.fire now id task).ledger.counters = l.counters.countExpired 1 l.perCommit)
      ∨ (∃ f, (l.fire now id task).result = .error f)
        ∧ (l.fire now id task).ledger.counters = l.counters.countExpired 1 0
        ∧ l.perCommit = 1 := by
  obtain ⟨article, s, -, -, -, -, hresult, hledger⟩ := h.fire_eq htime hrow
  rw [hresult, hledger]
  generalize hcounted : l.count _ = counted
  have hcounters : counted.counters = l.counters.countExpired 1 0 := by
    rw [← hcounted, ← l.counters.countDelivery_countFiring article]
    rfl
  have hper : counted.perCommit = l.perCommit := by rw [← hcounted]; rfl
  cases hcommit : (counted.commit s.pending).result with
  | ok _ =>
    refine .inl ⟨_, rfl, ?_⟩
    rw [counters_commit_ok hcommit, hcounters, hper, Counters.countRecords_countExpired,
      Nat.zero_add]
  | error f =>
    obtain ⟨hsame, hone⟩ := counters_commit_error hcommit
    exact .inr ⟨⟨f, rfl⟩, hsame.trans hcounters, hper.symm.trans hone⟩

/-- Tasks in a row are counted up to the one that the journal refuses, which is counted too.  The
induction is over the tasks, and each step counts one task on the snapshot that the one before has
left. -/
theorem Shows.counters_fireAll (htime : now.Usable) {due : List (TaskId × Task)} (h : l.Shows σ)
    (hdue : ∀ x ∈ due, σ.tasks.row x.1.number = some x.2)
    (hdistinct : due.Pairwise fun x y => x.1 ≠ y.1) :
    let count := (l.firedOf now due).length
    (∃ firings, (l.fireAll now due).result = .ok firings
        ∧ (l.fireAll now due).ledger.counters
          = l.counters.countExpired count (count * l.perCommit))
      ∨ (∃ f, (l.fireAll now due).result = .error f)
        ∧ (l.fireAll now due).ledger.counters = l.counters.countExpired (count + 1) count
        ∧ l.perCommit = 1 := by
  induction due generalizing l σ with
  | nil =>
    refine .inl ⟨[], rfl, ?_⟩
    show l.counters = l.counters.countExpired 0 (0 * l.perCommit)
    rw [Nat.zero_mul, Counters.countExpired_zero]
  | cons x rest ih =>
    obtain ⟨id, task⟩ := x
    have hrow : σ.tasks.row id.number = some task := hdue _ List.mem_cons_self
    obtain ⟨hne, hrest⟩ := List.pairwise_cons.1 hdistinct
    have hper := perCommit_congr (isSome_journal_fire l now id task)
    rcases h.counters_fire htime hrow with ⟨firing, hok, hfirst⟩ | ⟨⟨f, herror⟩, hfirst, hone⟩
    · -- The first task is committed, so the count goes on with a snapshot without it.
      rcases h.fire htime hrow with ⟨-, article, -, hshows⟩ | ⟨⟨fault, hfault⟩, -⟩
      · have hothers :=
          Snapshot.rows_tasksWithout (fun y hy => hdue y (List.mem_cons_of_mem _ hy)) hne
        rw [fireAll_cons_ok hok, firedOf_cons_ok hok, List.length_cons]
        dsimp only
        rcases ih hshows hothers hrest with ⟨firings, hall, hcounters⟩
          | ⟨⟨f, herror⟩, hcounters, hone⟩
        · rw [hfirst, hper, Counters.countExpired_countExpired] at hcounters
          refine .inl ⟨firing :: firings, by rw [hall]; rfl, ?_⟩
          rw [hcounters, Nat.succ_mul, Nat.add_comm 1, Nat.add_comm l.perCommit]
        · rw [hper] at hone
          rw [hfirst, hone, Counters.countExpired_countExpired] at hcounters
          refine .inr ⟨⟨f, by rw [herror]; rfl⟩, ?_, hone⟩
          rw [hcounters, Nat.add_comm 1, Nat.add_comm 1]
      · cases hok.symm.trans hfault
    · -- The first task is counted as fired, though it is not committed.
      rw [fireAll_cons_error herror, firedOf_cons_error herror]
      exact .inr ⟨⟨f, rfl⟩, hfirst, hone⟩

/-- A tick counts the tasks that it fires and one record for each of them; if the journal stops it,
the task that is not fired is counted too.  That nothing but the journal can stop it comes from
soundness: every task finds its article. -/
theorem Shows.counters_tick (h : l.Shows σ) (hensure : l.ensureTime now = .ok ()) :
    let count := (l.fired now).length
    (∃ report, (l.tick now).result = .ok report
        ∧ (l.tick now).ledger.counters
          = l.counters.countExpired count (count * l.perCommit))
      ∨ (∃ fault, (l.tick now).result = .error (.of (.storage fault)))
        ∧ (l.tick now).ledger.counters = l.counters.countExpired (count + 1) count
        ∧ l.perCommit = 1 := by
  obtain ⟨due, -, htasks, hrows, hdistinct⟩ := h.dueTasks_eq hensure
  have htime := usable_of_ensureTime hensure
  obtain ⟨-, -, hresult⟩ := h.fireAll htime hrows hdistinct
  unfold Ledger.tick fired
  rw [htasks]
  dsimp only
  rcases h.counters_fireAll htime hrows hdistinct with ⟨firings, hok, hcounters⟩
      | ⟨⟨f, herror⟩, hcounters, hone⟩
  · rw [hok]
    exact .inl ⟨_, rfl, hcounters⟩
  · -- Nothing but the journal stops a tick.
    rcases hresult with ⟨hok, -⟩ | ⟨fault, hfault⟩
    · cases hok.symm.trans herror
    · rw [hfault]
      exact .inr ⟨⟨fault, rfl⟩, hcounters, hone⟩

end Ledger

end BlogLedger
