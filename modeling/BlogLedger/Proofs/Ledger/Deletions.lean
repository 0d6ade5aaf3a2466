import BlogLedger.Proofs.Ledger.History

/-!
# Articles and their scheduled deletions

An article that waits for its deletion and the task that will delete it name each other, and the
queue holds one place for every task and no other.

The statements are about what reads give and which keys there are, since a maintainer can look at
those.  They all come down to the tables of the snapshot, where the links are part of soundness.  No
call is looked at here: that every call keeps a snapshot sound has been shown for runs in general.

## Main Definitions

* `Ledger.Linked` — articles, tasks and places in the queue belong together.

## Main Results

* `Ledger.deletions_linked` — they do so after every run.

## Design Notes

That the reads never fail is part of `Linked`.  Otherwise an equivalence between two reads would
also hold of a store in which neither of them can be made.
-/

namespace BlogLedger.Ledger

/-- Articles, scheduled deletions and places in the queue belong together one to one.  Each field
speaks of one direction or of one pair, so that what a use needs can be taken by its name. -/
structure Linked (l : Ledger) : Prop where
  /-- The reads that the other parts speak of never fail.  A record that cannot be decoded would be
  neither there nor missing. -/
  articles_read : ∀ id, ∃ found, Articles.get id l.store = .ok found
  tasks_read : ∀ handle, ∃ found, Schedule.task? handle l.store = .ok found
  /-- An article names a task exactly when the task is scheduled and deletes the article.  So no
  task deletes an article that does not know of it, and cancelling a deletion always finds the task. -/
  named_iff : ∀ id handle,
    (∃ article, Articles.get id l.store = .ok (some article) ∧ article.deletion = some handle)
      ↔ ∃ task, Schedule.task? handle l.store = .ok (some task)
        ∧ task.message = .deleteArticle id
  /-- The task that an article names has the deadline of the article.  The deadline is stored twice,
  once for readers and once for the queue, and the two never differ. -/
  runAt_eq : ∀ id handle article task, Articles.get id l.store = .ok (some article) →
    article.deletion = some handle → Schedule.task? handle l.store = .ok (some task) →
    article.deleteAt = some task.runAt
  /-- Every scheduled task is named by exactly one article.  If two articles named one task, one of
  them would wait for a deletion that never comes. -/
  named_once : ∀ handle task, Schedule.task? handle l.store = .ok (some task) →
    ∃! id, ∃ article, Articles.get id l.store = .ok (some article)
      ∧ article.deletion = some handle
  /-- Every key of the tasks is the key of a scheduled task.  Without it there could be tasks that
  no handle leads to. -/
  task_keys : ∀ key, Schedule.taskStart <+: key → l.store.has key →
    ∃ handle task, key = Schedule.taskKey handle
      ∧ Schedule.task? handle l.store = .ok (some task)
  /-- A task has one place in the queue, at its own time.  A second place would fire it a second
  time. -/
  queued_iff : ∀ handle task, Schedule.task? handle l.store = .ok (some task) →
    ∀ runAt, l.store.has (Schedule.queueKey runAt handle) ↔ runAt = task.runAt
  /-- Every key of the queue is the place of a scheduled task.  A place without a task would stop
  each tick that comes to it. -/
  queue_keys : ∀ key, Schedule.queueStart <+: key → l.store.has key →
    ∃ handle task, Schedule.task? handle l.store = .ok (some task)
      ∧ key = Schedule.queueKey task.runAt handle

variable {l : Ledger} {σ : Snapshot}

/-! ### Reads of a ledger that shows a snapshot -/

theorem Shows.get_article_iff (h : l.Shows σ) {id : RecordId} {article : Article} :
    Articles.get id l.store = .ok (some article) ↔ σ.articles.row id.number = some article := by
  rw [h.stored.getArticle, Except.ok.injEq]

theorem Shows.task?_iff (h : l.Shows σ) {handle : TaskId} {task : Task} :
    Schedule.task? handle l.store = .ok (some task) ↔ σ.tasks.row handle.number = some task := by
  rw [h.stored.getTask, Except.ok.injEq]

/-- The keys of the queue are the places of the tasks.  The table of tasks determines the queue,
which has no table of its own in a snapshot. -/
theorem Shows.has_queue_iff (h : l.Shows σ) {key : Bytes} (hstart : Schedule.queueStart <+: key) :
    l.store.has key ↔ ∃ (handle : TaskId) (task : Task),
      σ.tasks.row handle.number = some task ∧ key = Schedule.queueKey task.runAt handle := by
  unfold KeySpace.has
  rw [Option.isSome_iff_exists]
  simp only [h.stored.schedule.get_queue hstart, exists_eq_left]

/-! ### Links -/

/-- The links between the tables of a sound snapshot show in every store of it.  The reads are
translated into rows, and then each field is a field of soundness. -/
theorem Shows.linked (h : l.Shows σ) : l.Linked where
  articles_read id := ⟨_, h.stored.getArticle id⟩
  tasks_read handle := ⟨_, h.stored.getTask handle⟩
  named_iff := by
    intro id handle
    simp only [h.get_article_iff, h.task?_iff]
    constructor
    · rintro ⟨article, hrow, hdeletion⟩
      obtain ⟨deadline, -, hscheduled⟩ := h.sound.scheduled _ _ _ hrow hdeletion
      exact ⟨_, hscheduled, rfl⟩
    · rintro ⟨task, hrow, hmessage⟩
      obtain ⟨other, article, hother, hstored, hdeletion⟩ := h.sound.awaited _ _ hrow
      cases hmessage.symm.trans hother
      exact ⟨article, hstored, hdeletion⟩
  runAt_eq := by
    intro id handle article task hrow hdeletion hscheduled
    rw [h.get_article_iff] at hrow
    rw [h.task?_iff] at hscheduled
    obtain ⟨deadline, hdeadline, hsame⟩ := h.sound.scheduled _ _ _ hrow hdeletion
    cases hscheduled.symm.trans hsame
    exact hdeadline
  named_once := by
    intro handle task hscheduled
    rw [h.task?_iff] at hscheduled
    simp only [h.get_article_iff]
    obtain ⟨id, article, -, hrow, hdeletion⟩ := h.sound.awaited _ _ hscheduled
    refine ⟨id, ⟨article, hrow, hdeletion⟩, ?_⟩
    -- Another article that names the task is the one that the task itself names.
    rintro other ⟨article', hrow', hdeletion'⟩
    have hnumber := h.sound.article_eq hrow' hdeletion' hrow hdeletion
    cases other
    cases id
    exact congrArg RecordId.mk hnumber
  task_keys := by
    intro key hstart hkey
    obtain ⟨bytes, hget⟩ := Option.isSome_iff_exists.1 hkey
    obtain ⟨n, rfl, hbytes⟩ := h.stored.schedule.tasks.of_get hstart hget
    obtain ⟨task, hrow, -⟩ := Table.rowBytes_eq_some_iff.1 hbytes
    exact ⟨⟨n⟩, task, rfl, h.task?_iff.2 hrow⟩
  queued_iff := by
    intro handle task hscheduled runAt
    rw [h.task?_iff] at hscheduled
    rw [h.has_queue_iff (Schedule.queueStart_le_queueKey runAt handle)]
    constructor
    · rintro ⟨other, task', hrow', hkey⟩
      obtain ⟨rfl, rfl⟩ := Schedule.queueKey_inj.1 hkey
      cases hscheduled.symm.trans hrow'
      rfl
    · rintro rfl
      exact ⟨handle, task, hscheduled, rfl⟩
  queue_keys := by
    intro key hstart hkey
    obtain ⟨handle, task, hrow, rfl⟩ := (h.has_queue_iff hstart).1 hkey
    exact ⟨handle, task, h.task?_iff.2 hrow, rfl⟩

/-- After every run articles, scheduled deletions and places in the queue belong together.  A ledger
that is reached shows a sound snapshot, and nothing else is needed. -/
theorem deletions_linked (h : l.Reachable) : l.Linked :=
  h.shows.linked

theorem deletions_linked_sample :
    sample.Reachable ∧ sample.pendingTasks = 1 ∧ sample.Linked :=
  ⟨sample_reachable, by decide +kernel, deletions_linked sample_reachable⟩

end BlogLedger.Ledger
