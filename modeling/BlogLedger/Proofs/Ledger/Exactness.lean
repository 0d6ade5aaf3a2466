import BlogLedger.Proofs.Ledger.History
import BlogLedger.Proofs.Snapshot.Entry

/-!
# Ticks are exact

A tick reads the queue once and then commits one task after the other.  It fires the first tasks
that are due, each with its article, and touches nothing else.

The result says what a tick does in four ways that could disagree: the report that it gives, the
tables that are left, the bytes at every key, and the time that is noted last.  The fourth needs a
case of its own, since a tick that fires nothing writes nothing, not even the time.

## Main Definitions

* `Ledger.TickExact` — what a tick under a limit reports and leaves behind.

## Main Results

* `Ledger.tick_exact` — every tick does so unless the journal refuses a record.
-/

namespace BlogLedger.Ledger

/-- A tick under a limit fires the first of the tasks that are due and leaves some others live.
Both lists are given from outside, and the fields determine them. -/
structure TickExact (l : Ledger) (limit : Nat) (now : Timestamp) (due live : List (TaskId × Task)) :
    Prop where
  /-- The tasks that are due are those whose time has come, by time and then by number.  The list is
  in the order of the queue, so taking the first ones is what the limit means. -/
  lists_due : Schedule.Lists l.snapshot.tasks (fun task => task.runAt ≤ now) due
  /-- Each one that is fired succeeds, and those that are left are counted.  Tasks that wait for a
  later time are among those that are left, so the number is not what the limit has cut off. -/
  result : ((l.limited limit).tick now).result
    = .ok ⟨now, (due.take limit).map Firing.success, live.length⟩
  lists_live : Schedule.Lists ((l.limited limit).tick now).ledger.snapshot.tasks
    (fun _ => True) live
  /-- Each one that is fired has an article to delete.  It is what makes every firing a success. -/
  awaited : ∀ x ∈ due.take limit, ∃ id article, x.2.message = .deleteArticle id
    ∧ l.snapshot.articles.row id.number = some article
  /-- The fired tasks and their articles are gone, and all else is as it was.  Users, blogs and
  other articles are compared as tables, and the index entries follow from them. -/
  snapshot_eq : ((l.limited limit).tick now).ledger.snapshot
    = l.snapshot.afterFiring now (due.take limit)
  /-- The same holds of every key of the store.  The snapshot determines the bytes, so no key is
  left behind by an article that is gone. -/
  get_iff : ∀ key value, ((l.limited limit).tick now).ledger.store.get key = some value
    ↔ (l.snapshot.afterFiring now (due.take limit)).Entry key value
  lastTime_eq : ((l.limited limit).tick now).ledger.lastTime
    = if due.take limit = [] then l.lastTime else .ok now

variable {l : Ledger} {now : Timestamp} {limit : Nat}

/-- A tick goes through unless the journal, where the only storage faults are, refuses a record.
Then the list that was read at the start is fired in full, up to the limit: no task that is fired
makes another one due. -/
theorem tick_exact (h : l.Reachable) (hensure : l.ensureTime now = .ok ())
    (hjournal : ∀ fault, ((l.limited limit).tick now).result ≠ .error (.of (.storage fault))) :
    ∃ due live, l.TickExact limit now due live := by
  have hlimited : (l.limited limit).Shows l.snapshot := h.shows.of_store_eq rfl
  obtain ⟨due, hdue, -, hafter, hresult⟩ := hlimited.tick_due hensure
  rcases hresult with ⟨hok, hfired⟩ | ⟨fault, herror⟩
  · -- Nothing stopped the tick, so what it fired is all that was due under the limit.
    rw [hfired] at hafter
    obtain ⟨live, hlive, hpending⟩ := hafter.stored.schedule.pending
    refine ⟨due, live, hdue, ?_, ?_, ?_, hafter.snapshot_eq, ?_, ?_⟩
    · rw [hok, pendingTasks, hpending]
      rfl
    · rw [hafter.snapshot_eq]
      exact hlive
    · intro x hx
      have hrow := ((hdue.mem_iff x.1 x.2).1 (List.mem_of_mem_take hx)).1
      obtain ⟨id, article, hmessage, harticle, -⟩ := h.shows.sound.awaited _ _ hrow
      exact ⟨id, article, hmessage, harticle⟩
    · intro key value
      exact hafter.stored.get_iff
    · rw [hafter.lastTime, h.shows.lastTime]
      exact apply_ite Except.ok _ _ _
  · exact absurd herror (hjournal fault)

theorem tick_exact_sample :
    sample.Reachable ∧ sample.ensureTime ⟨900⟩ = .ok ()
      ∧ ((sample.limited 1).fired ⟨900⟩).length = 1
      ∧ ∃ due live, sample.TickExact 1 ⟨900⟩ due live := by
  have hensure : sample.ensureTime ⟨900⟩ = .ok () := by decide +kernel
  refine ⟨sample_reachable, hensure, by decide +kernel,
    tick_exact sample_reachable hensure fun fault herror => ?_⟩
  have hok : ((sample.limited 1).tick ⟨900⟩).result.isOk = true := by decide +kernel
  rw [herror] at hok
  cases hok

end BlogLedger.Ledger
