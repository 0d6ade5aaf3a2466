import BlogLedger.Proofs.Bucket.Lookup
import BlogLedger.Proofs.Ledger.Counting
import BlogLedger.Proofs.Ledger.Handles
import BlogLedger.Proofs.Ledger.Portions
import BlogLedger.Proofs.Snapshot.Size

/-!
# The counters balance

Without a journal nothing stops a step halfway, so the counters agree with what is stored: a task was
scheduled, and it was cancelled or fired or still waits; a record was created, and it was deleted or
is still there.

The equations are between numbers that are kept in different ways: counters that are moved by hand
at several places of the ledger, answers that calls have given, and what a search through the store
finds.  Each is an invariant of runs, and they are carried together, since a tick moves several of
them at once.  The numbers of tasks and records are taken from the snapshot, where one fired task is
one row less in each of two tables; only at the end are they compared with a search.

## Main Definitions

* `Ledger.acceptedBy`, `Ledger.refusedBy` — the transactions that a call makes and refuses.
* `Ledger.Balanced` — the counters agree with what calls gave and with what is stored.

## Main Results

* `Snapshot.Sound.size_afterFiring` — every task that is fired takes one article with it.
* `Ledger.Balanced.step` — every call keeps the balance.
* `Ledger.counters_balance` — the counters balance after every run without a journal.

## Design Notes

With a journal there is no such balance.  A commit that is refused after its task was counted leaves
counters that nothing stored accounts for, so the results ask for a ledger without a journal and for
counters that start at zero.
-/

namespace BlogLedger

/-- The call is a check. -/
def Call.isCheck : Call → Bool
  | .check _ => true
  | .deliver _ | .tick .. => false

namespace Ledger

/-- The transactions that a call makes. -/
def acceptedBy (l : Ledger) : Call → List Transaction
  | .deliver tx => if (l.deliver tx).result.isOk then [tx] else []
  | .check _ | .tick .. => []

/-- The transactions that a call refuses. -/
def refusedBy (l : Ledger) : Call → List Transaction
  | .check tx => if (l.check tx).result.isOk then [] else [tx]
  | .deliver tx => if (l.deliver tx).result.isOk then [] else [tx]
  | .tick .. => []

/-- The counters agree with what calls gave, with the number of tasks that are pending and with the
number of records that are stored.  The two numbers are parameters, so that a step can be stated
with those of the snapshots before and after it. -/
structure Balanced (start : Ledger) (calls : List Call) (pending stored : Nat) : Prop where
  tasks : (start.after calls).counters.tasksScheduled
    = (start.after calls).counters.tasksCancelled + (start.after calls).counters.tasksFired + pending
  failed : (start.after calls).counters.tasksFailed = 0
  fired : (start.after calls).counters.tasksFired = (start.gathered reportedBy calls).length
  delivered : (start.after calls).counters.delivered
    = (start.gathered acceptedBy calls).length + (start.gathered reportedBy calls).length
  rejected : (start.after calls).counters.rejected = (start.gathered refusedBy calls).length
  checks : (start.after calls).counters.checks = calls.countP Call.isCheck
  records : stored + (start.after calls).counters.recordsDeleted
    = (start.gathered acceptedBy calls).countP fun tx => tx.message.creates?.isSome

end Ledger

/-- A search through a bucket finds every row of its table.  It is what connects the size of a
table, which no read gives, with something that can be observed. -/
theorem Bucket.Holds.length_scan {b : Bucket} {t : Table Record} {s : KeySpace} (h : b.Holds t s) :
    ∃ found, b.scan [] s = .ok found ∧ found.length = t.size := by
  obtain ⟨found, hscan, hascending, hmem⟩ := h.scan []
  refine ⟨found, hscan, Table.length_eq_size (fun x => x.1.number) ?_ fun n => ?_⟩
  · exact hascending.imp fun hlt => UInt64.ne_of_lt hlt
  · constructor
    · rintro ⟨x, hx, rfl⟩
      exact ⟨x.2, ((hmem x.1 x.2).1 hx).1⟩
    · rintro ⟨r, hrow⟩
      exact ⟨(⟨n⟩, r), (hmem _ _).2 ⟨hrow, List.nil_prefix⟩, rfl⟩

/-! ### Fired tasks -/

/-- Every task that is fired is one less, and takes one article with it.  That it is exactly one
article follows from soundness: the tasks of a snapshot delete articles that are there, each a
different one. -/
theorem Snapshot.Sound.size_afterFiring {σ : Snapshot} (h : σ.Sound) (now : Timestamp)
    {fired : List (TaskId × Task)} (hrows : ∀ x ∈ fired, σ.tasks.row x.1.number = some x.2)
    (hdistinct : fired.Pairwise fun x y => x.1 ≠ y.1) :
    (σ.afterFiring now fired).tasks.size + fired.length = σ.tasks.size
      ∧ (σ.afterFiring now fired).recordCount + fired.length = σ.recordCount := by
  induction fired generalizing σ with
  | nil =>
    rw [Snapshot.afterFiring_nil]
    exact ⟨rfl, rfl⟩
  | cons x rest ih =>
    obtain ⟨id, task⟩ := x
    have hrow : σ.tasks.row id.number = some task := hrows _ List.mem_cons_self
    obtain ⟨article, stored, hmessage, harticle, hwaits⟩ := h.awaited _ _ hrow
    obtain ⟨hne, hrest⟩ := List.pairwise_cons.1 hdistinct
    have hwithout := (h.without harticle).withTime now
    rw [hwaits] at hwithout
    have hothers := rows_tasksWithout (fun y hy => hrows y (List.mem_cons_of_mem _ hy)) hne
    obtain ⟨htasks, hrecords⟩ := ih hwithout hothers hrest
    have htask : (σ.tasksWithout (some id)).size + 1 = σ.tasks.size := Table.size_drop hrow
    have hcount := Table.size_drop harticle
    rw [Snapshot.afterFiring_cons σ now hmessage, List.length_cons, ← Nat.add_assoc,
      ← Nat.add_assoc, htasks, hrecords]
    refine ⟨htask, ?_⟩
    show _ + _ + (σ.articles.drop article.number).size + 1 = σ.users.size + _ + _
    rw [← hcount, ← Nat.add_assoc]
    rfl

namespace Ledger

variable {start l : Ledger} {calls : List Call} {c : Call} {σ τ : Snapshot} {now : Timestamp}

/-- A tick without a journal counts the tasks that it reports.  Nothing can stop it, so the tasks
that are fired, reported and counted are the same. -/
theorem Shows.tick_volatile (h : l.Shows σ) (hvolatile : l.journal = none) (now : Timestamp)
    (limit : Nat) :
    (Call.run l (.tick now limit)).counters
        = l.counters.countExpired ((l.limited limit).fired now).length 0
      ∧ (l.reportedBy (.tick now limit)).length = ((l.limited limit).fired now).length := by
  have hlimited : (l.limited limit).Shows σ := h.of_store_eq rfl
  have hper : (l.limited limit).perCommit = 0 := perCommit_of_volatile hvolatile
  show ((l.limited limit).tick now).ledger.counters = _ ∧ _
  cases hensure : (l.limited limit).ensureTime now with
  | error f =>
    obtain ⟨htick, hfired⟩ := tick_error hensure
    simp only [reportedBy, htick, hfired]
    exact ⟨rfl, rfl⟩
  | ok _ =>
    rcases hlimited.counters_tick hensure with ⟨report, hok, hcounters⟩ | ⟨-, -, hone⟩
    · rw [hcounters, hper, reportedBy_tick hok, hlimited.fired_of_report hok, List.length_map]
      exact ⟨rfl, rfl⟩
    · cases hper.symm.trans hone

/-- The tasks that a tick fires are less afterwards, and so are the articles.  Written as sums,
since a difference of naturals would say nothing if it were cut off at zero. -/
theorem Shows.size_afterFiring (h : l.Shows σ) (now : Timestamp) :
    (σ.afterFiring now (l.fired now)).tasks.size + (l.fired now).length = σ.tasks.size
      ∧ (σ.afterFiring now (l.fired now)).recordCount + (l.fired now).length = σ.recordCount :=
  h.sound.size_afterFiring now (fun _ hx => (h.mem_fired hx).1)
    (List.pairwise_map.1 h.nodup_fired)

/-! ### Calls -/

theorem acceptedBy_ok {tx : Transaction} {outcome : Outcome}
    (h : (l.deliver tx).result = .ok outcome) :
    l.acceptedBy (.deliver tx) = [tx] ∧ l.refusedBy (.deliver tx) = [] := by
  simp only [acceptedBy, refusedBy, h]
  exact ⟨rfl, rfl⟩

theorem acceptedBy_error {tx : Transaction} {f : Failure}
    (h : (l.deliver tx).result = .error f) :
    l.acceptedBy (.deliver tx) = [] ∧ l.refusedBy (.deliver tx) = [tx] := by
  simp only [acceptedBy, refusedBy, h]
  exact ⟨rfl, rfl⟩

/-- Every call keeps the balance.  This is the step; the cases are a check, a transaction that is
refused or accepted, and a tick. -/
theorem Balanced.step (hold : start.Balanced calls σ.tasks.size σ.recordCount)
    (hl : (start.after calls).Shows σ) (hvolatile : (start.after calls).journal = none)
    (heffect : Effect (start.after calls) σ c τ) :
    start.Balanced (calls ++ [c]) τ.tasks.size τ.recordCount := by
  obtain ⟨htasks, hfailed, hfired, hdelivered, hrejected, hchecks, hrecords⟩ := hold
  -- Each equation gets one more term for the call, and `hold` has the sums of the earlier ones.
  cases heffect with
  | check tx =>
    have hcounters : (Call.run (start.after calls) (.check tx)).counters = _ := counters_check tx _
    cases hresult : ((start.after calls).check tx).result with
    | ok cost =>
      rw [hresult] at hcounters
      constructor <;>
        simpa [after_concat, gathered_concat, Call.isCheck, acceptedBy, refusedBy, reportedBy,
          hcounters, hresult, Except.isOk, Except.toBool, Counters.countCheck]
    | error f =>
      rw [hresult] at hcounters
      constructor <;>
        simpa [after_concat, gathered_concat, Call.isCheck, acceptedBy, refusedBy, reportedBy,
          hcounters, hresult, Except.isOk, Except.toBool, Counters.countCheck,
          Counters.countRejection]
  | refused tx f result =>
    have hcounters : (Call.run (start.after calls) (.deliver tx)).counters = _ :=
      counters_deliver_error result
    obtain ⟨haccepted, hrefused⟩ := acceptedBy_error result
    constructor <;>
      simpa [after_concat, gathered_concat, Call.isCheck, reportedBy, hcounters, haccepted,
        hrefused, Counters.countRejection]
  | accepted tx outcome τ result usable spare change =>
    show start.Balanced _ τ.tasks.size τ.recordCount
    have hcounters : (Call.run (start.after calls) (.deliver tx)).counters = _ :=
      counters_deliver_ok result
    obtain ⟨haccepted, hrefused⟩ := acceptedBy_ok result
    have hscheduled := change.tasks_size hl.sound spare
    have hcreated := change.recordCount hl.sound spare
    constructor <;>
      simp [after_concat, gathered_concat, Call.isCheck, reportedBy, hcounters, haccepted,
        hrefused, Counters.countDelivery, Counters.countRecords] <;> omega
  | tick now limit usable =>
    have hlimited : ((start.after calls).limited limit).Shows σ := hl.of_store_eq rfl
    obtain ⟨hcounters, hreported⟩ := hl.tick_volatile hvolatile now limit
    obtain ⟨hleft, hkept⟩ := hlimited.size_afterFiring now
    constructor <;>
      simp [after_concat, gathered_concat, Call.isCheck, acceptedBy, refusedBy, hcounters,
        hreported, Counters.countExpired] <;> omega

/-! ### Runs -/

/-- Before the first call everything is zero. -/
theorem balanced_nil (hcounters : start.counters = .zero) :
    start.Balanced [] Snapshot.empty.tasks.size Snapshot.empty.recordCount := by
  have hpending : Snapshot.empty.tasks.size = 0 := Table.size_empty
  have hstored : Snapshot.empty.recordCount = 0 := by
    show Table.size .empty + Table.size .empty + Table.size .empty = 0
    rw [Table.size_empty, Table.size_empty, Table.size_empty]
  have hafter : (start.after []).counters = .zero := hcounters
  rw [hpending, hstored]
  constructor <;> rw [hafter] <;> rfl

/-- The tasks that the ledger says are pending are the rows of the table.  The ledger counts keys of
the queue, and there is one for each task. -/
theorem Shows.pendingTasks_eq (h : l.Shows σ) : l.pendingTasks = σ.tasks.size := by
  obtain ⟨tasks, hlists, hpending⟩ := h.stored.schedule.pending
  refine hpending.trans (Table.length_eq_size (fun x => x.1.number) ?_ fun n => ?_)
  · exact hlists.distinct.imp fun hne heq => hne (congrArg TaskId.mk heq)
  · constructor
    · rintro ⟨x, hx, rfl⟩
      exact ⟨x.2, ((hlists.mem_iff x.1 x.2).1 hx).1⟩
    · rintro ⟨task, hrow⟩
      exact ⟨(⟨n⟩, task), (hlists.mem_iff _ _).2 ⟨hrow, trivial⟩, rfl⟩

/-- What is stored of every kind is found by a search through its bucket, so the balance can be
stated without mention of tables. -/
theorem Shows.recordCount_eq (h : l.Shows σ) :
    ∃ users blogs articles, Bucket.users.scan [] l.store = .ok users
      ∧ Bucket.blogs.scan [] l.store = .ok blogs ∧ Bucket.articles.scan [] l.store = .ok articles
      ∧ users.length + blogs.length + articles.length = σ.recordCount := by
  obtain ⟨users, hscan, husers⟩ := h.stored.users.length_scan
  obtain ⟨blogs, hscan', hblogs⟩ := h.stored.blogs.length_scan
  obtain ⟨articles, hscan'', harticles⟩ := h.stored.articles.length_scan
  refine ⟨users, blogs, articles, hscan, hscan', hscan'', ?_⟩
  rw [husers, hblogs, harticles, Table.size_map, Table.size_map, Table.size_map]
  rfl

/-- The counters of a run without a journal agree with the snapshot that it leads to.  The induction
is on the calls, with `Ledger.Balanced.step` for each. -/
theorem Run.balanced (h : start.Run calls) (hjournal : start.journal = none)
    (hcounters : start.counters = .zero) :
    start.Balanced calls (start.after calls).snapshot.tasks.size
      (start.after calls).snapshot.recordCount := by
  have hinvariant := h.induct
    (motive := fun calls l σ => l = start.after calls ∧ l.journal = none
      ∧ start.Balanced calls σ.tasks.size σ.recordCount)
    ⟨rfl, hjournal, balanced_nil hcounters⟩ ?_
  · exact hinvariant.1.2.2
  · rintro calls l σ c τ ⟨rfl, hvolatile, hold⟩ hl heffect
    refine ⟨(after_concat calls c start).symm, ?_, hold.step hl hvolatile heffect⟩
    rw [← Option.isNone_iff_eq_none, ← Option.not_isSome, isSome_journal_run, hvolatile]
    rfl

/-- The counters balance after every run without a journal. -/
theorem counters_balance {limit : Nat} (h : (volatile.limited limit).Run calls) :
    ∃ users blogs articles,
      Bucket.users.scan [] ((volatile.limited limit).after calls).store = .ok users
        ∧ Bucket.blogs.scan [] ((volatile.limited limit).after calls).store = .ok blogs
        ∧ Bucket.articles.scan [] ((volatile.limited limit).after calls).store = .ok articles
        ∧ (volatile.limited limit).Balanced calls
          ((volatile.limited limit).after calls).pendingTasks
          (users.length + blogs.length + articles.length) := by
  have hbalanced := h.balanced rfl rfl
  obtain ⟨users, blogs, articles, husers, hblogs, harticles, hcount⟩ := h.shows.recordCount_eq
  rw [← hcount, ← h.shows.pendingTasks_eq] at hbalanced
  exact ⟨users, blogs, articles, husers, hblogs, harticles, hbalanced⟩

/-- A user, a blog and three articles: one stays, one is deleted at its deadline, and the deletion of
one is cancelled.  A check and a transaction are refused. -/
def balanceCalls : List Call := [
  .deliver ⟨⟨50⟩, none, .createUser "wanderer" none⟩] ++ sampleCalls ++ [
  .deliver ⟨⟨300⟩, some sampleOwner, .createArticle ⟨1⟩ "Spring" "It was warm." ⟨800⟩⟩,
  .check ⟨⟨310⟩, none, .cancelDeletion ⟨3⟩⟩,
  .check ⟨⟨310⟩, some sampleOwner, .cancelDeletion ⟨3⟩⟩,
  .deliver ⟨⟨320⟩, none, .deleteArticle ⟨3⟩⟩,
  .deliver ⟨⟨330⟩, some sampleOwner, .cancelDeletion ⟨3⟩⟩,
  .deliver ⟨⟨340⟩, some sampleOwner, .createArticle ⟨1⟩ "Summer" "It was hot." ⟨2000⟩⟩,
  .tick ⟨900⟩ 10]

theorem counters_balance_sample :
    (volatile.limited 256).Run balanceCalls
      ∧ ((volatile.limited 256).after balanceCalls).counters
        = ⟨2, 8, 2, 3, 1, 1, 0, 7, 1, 0⟩
      ∧ ∃ users blogs articles,
        Bucket.users.scan [] ((volatile.limited 256).after balanceCalls).store = .ok users
          ∧ Bucket.blogs.scan [] ((volatile.limited 256).after balanceCalls).store = .ok blogs
          ∧ Bucket.articles.scan [] ((volatile.limited 256).after balanceCalls).store
            = .ok articles
          ∧ (volatile.limited 256).Balanced balanceCalls
            ((volatile.limited 256).after balanceCalls).pendingTasks
            (users.length + blogs.length + articles.length) := by
  have hrun : (volatile.limited 256).Run balanceCalls := run_of_length rfl (by decide)
  exact ⟨hrun, by decide +kernel, counters_balance hrun⟩

end Ledger

end BlogLedger
