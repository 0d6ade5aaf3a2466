import BlogLedger.Proofs.Snapshot.Stored

/-!
# Sound snapshots

What always holds of what the ledger keeps: numbers are given out in order, every record passes its
own check, and articles that wait for their deletion and scheduled deletions point at each other.

The link between an article and the task that will delete it is kept on both sides, in different
tables.  One step changes both, and the other articles must not notice.  For this it is enough that
no two articles share a task, which follows from the link itself: the task names its article.

## Main Definitions

* `Snapshot.Sound` — the invariant.
* `Snapshot.Spare` — there is a number left for everything that a message asks for.

## Main Results

* `Snapshot.Sound.without`, `Snapshot.Sound.spared` — an article goes together with its task, or
  stays and gives its task up.
* `Snapshot.Sound.posted`, `Snapshot.Sound.postedUntil` — an article comes, alone or with its task.
-/

namespace BlogLedger.Snapshot

/-- The invariant of the ledger.  Every accepted message keeps it and every deletion that fires
does, and a refused one leaves the snapshot as it is. -/
structure Sound (σ : Snapshot) : Prop where
  users_numbered : σ.users.Numbered
  blogs_numbered : σ.blogs.Numbered
  articles_numbered : σ.articles.Numbered
  tasks_numbered : σ.tasks.Numbered
  users_flawless : σ.users.All fun u => u.flaws = []
  blogs_flawless : σ.blogs.All fun b => b.flaws = []
  articles_flawless : σ.articles.All fun a => a.flaws = []
  /-- The task of an article is scheduled, for the article's own deadline.  So the time of the task
  is the one that readers of the article see. -/
  scheduled : ∀ n a task, σ.articles.row n = some a → a.deletion = some task →
    ∃ deadline, a.deleteAt = some deadline
      ∧ σ.tasks.row task.number = some ⟨deadline, .deleteArticle ⟨n⟩⟩
  /-- A scheduled task deletes an article that waits for it.  So a deletion never fires for an
  article that was spared or is gone. -/
  awaited : ∀ n task, σ.tasks.row n = some task →
    ∃ id a, task.message = .deleteArticle id ∧ σ.articles.row id.number = some a
      ∧ a.deletion = some ⟨n⟩

/-- Every sequence that a message takes a number from has one left.  For the other sequences nothing
is asked. -/
def Spare (σ : Snapshot) (m : Message) : Prop := ∀ q, m.Takes q → σ.last q + 1 ≠ 0

/-- The tasks without the one that an article names, if it names one.  With this an article is
removed in the same way whether or not it waits. -/
def tasksWithout (σ : Snapshot) : Option TaskId → Table Task
  | some task => σ.tasks.drop task.number
  | none => σ.tasks

/-- The snapshot without an article and the task for it.  A deletion that is asked for and one that
fires both lead here. -/
def without (σ : Snapshot) (id : RecordId) (task : Option TaskId) : Snapshot :=
  { σ with articles := σ.articles.drop id.number, tasks := σ.tasksWithout task }

variable {σ : Snapshot}

theorem row_tasksWithout (σ : Snapshot) (o : Option TaskId) (n : UInt64) (task : Task) :
    (σ.tasksWithout o).row n = some task ↔ σ.tasks.row n = some task ∧ o ≠ some ⟨n⟩ := by
  cases o with
  | none => simp [tasksWithout]
  | some id =>
    have hid : some id = some (⟨n⟩ : TaskId) ↔ n = id.number := by
      cases id
      simp [eq_comm]
    unfold tasksWithout
    rw [Table.row_drop, ne_eq, hid]
    by_cases hn : n = id.number <;> simp [hn]

theorem last_tasksWithout (σ : Snapshot) (o : Option TaskId) :
    (σ.tasksWithout o).last = σ.tasks.last := by
  cases o <;> rfl

namespace Sound

/-- Nothing is required of a ledger on which nothing has happened. -/
theorem empty : Snapshot.empty.Sound where
  users_numbered := .empty
  blogs_numbered := .empty
  articles_numbered := .empty
  tasks_numbered := .empty
  users_flawless := .empty
  blogs_flawless := .empty
  articles_flawless := .empty
  scheduled := by
    intro n a task hrow
    cases hrow
  awaited := by
    intro n task hrow
    cases hrow

variable (h : σ.Sound)

include h

/-- The time of the last transition is free.  Nothing in the invariant speaks of it. -/
theorem withTime (time : Timestamp) : { σ with time }.Sound :=
  { h with }

/-- Two articles never share a task.  A task names one article, and both would be it. -/
theorem article_eq {m n : UInt64} {a b : Article} {task : TaskId}
    (hm : σ.articles.row m = some a) (ha : a.deletion = some task)
    (hn : σ.articles.row n = some b) (hb : b.deletion = some task) : m = n := by
  obtain ⟨_, -, hrow⟩ := h.scheduled m a task hm ha
  obtain ⟨_, -, hrow'⟩ := h.scheduled n b task hn hb
  rw [hrow, Option.some.injEq, Task.mk.injEq] at hrow'
  cases hrow'.2
  rfl

theorem tasksWithout_numbered (o : Option TaskId) : (σ.tasksWithout o).Numbered := by
  cases o with
  | none => exact h.tasks_numbered
  | some task => exact h.tasks_numbered.drop task.number

/-- The tasks of the other articles stay when an article gives its own up.  The task that goes is
not theirs, since none is shared. -/
theorem scheduled_without {n m : UInt64} {a b : Article} {task : TaskId}
    (hn : σ.articles.row n = some a) (hm : σ.articles.row m = some b) (hmn : m ≠ n)
    (hb : b.deletion = some task) :
    ∃ deadline, b.deleteAt = some deadline
      ∧ (σ.tasksWithout a.deletion).row task.number = some ⟨deadline, .deleteArticle ⟨m⟩⟩ := by
  obtain ⟨deadline, hdeadline, hrow⟩ := h.scheduled m b task hm hb
  refine ⟨deadline, hdeadline, (row_tasksWithout σ _ _ _).2 ⟨hrow, fun ha => ?_⟩⟩
  exact hmn (h.article_eq hm hb hn ha)

/-- The tasks that are left belong to other articles than the one that gave its own up.  A task of
this article that was left would be the one that went. -/
theorem awaited_without {n m : UInt64} {a : Article} {task : Task}
    (hn : σ.articles.row n = some a) (hm : (σ.tasksWithout a.deletion).row m = some task) :
    ∃ id b, task.message = .deleteArticle id ∧ id.number ≠ n
      ∧ σ.articles.row id.number = some b ∧ b.deletion = some ⟨m⟩ := by
  obtain ⟨hrow, hne⟩ := (row_tasksWithout σ _ _ _).1 hm
  obtain ⟨id, b, hmessage, hb, hdeletion⟩ := h.awaited m task hrow
  refine ⟨id, b, hmessage, ?_, hb, hdeletion⟩
  rintro rfl
  rw [hn, Option.some.injEq] at hb
  rw [hb] at hne
  exact hne hdeletion

/-- An article and the task for it go together.  The links of the others are kept, on either side. -/
theorem without {id : RecordId} {article : Article}
    (hrow : σ.articles.row id.number = some article) :
    (σ.without id article.deletion).Sound where
  users_numbered := h.users_numbered
  blogs_numbered := h.blogs_numbered
  articles_numbered := h.articles_numbered.drop _
  tasks_numbered := h.tasksWithout_numbered _
  users_flawless := h.users_flawless
  blogs_flawless := h.blogs_flawless
  articles_flawless := h.articles_flawless.drop _
  scheduled := by
    intro m b task hm hb
    change (σ.articles.drop id.number).row m = some b at hm
    rw [Table.row_drop] at hm
    split at hm
    · cases hm
    · next hmn => exact h.scheduled_without hrow hm hmn hb
  awaited := by
    intro m task hm
    -- A task that is left waits for another article, which is still there.
    obtain ⟨other, b, hmessage, hne, hb, hdeletion⟩ := h.awaited_without hrow hm
    refine ⟨other, b, hmessage, ?_, hdeletion⟩
    show (σ.articles.drop id.number).row other.number = some b
    rw [Table.row_drop, if_neg hne]
    exact hb

/-- An article stays and gives its task up.  Its deadline stays, too, so an article may have a
deadline without a task. -/
theorem spared {id : RecordId} {article : Article}
    (hrow : σ.articles.row id.number = some article) :
    { σ with
      articles := σ.articles.put id.number { article with deletion := none }
      tasks := σ.tasksWithout article.deletion }.Sound where
  users_numbered := h.users_numbered
  blogs_numbered := h.blogs_numbered
  articles_numbered := h.articles_numbered.put hrow _
  tasks_numbered := h.tasksWithout_numbered _
  users_flawless := h.users_flawless
  blogs_flawless := h.blogs_flawless
  articles_flawless := by
    refine h.articles_flawless.put _ ?_
    show article.flaws = []
    exact h.articles_flawless _ _ hrow
  scheduled := by
    intro m b task hm hb
    change (σ.articles.put _ _).row m = some b at hm
    rw [Table.row_put] at hm
    split at hm
    · cases hm
      cases hb
    · next hmn => exact h.scheduled_without hrow hm hmn hb
  awaited := by
    intro m task hm
    obtain ⟨other, b, hmessage, hne, hb, hdeletion⟩ := h.awaited_without hrow hm
    refine ⟨other, b, hmessage, ?_, hdeletion⟩
    show (σ.articles.put _ _).row other.number = some b
    rw [Table.row_put, if_neg hne]
    exact hb

/-- A new article that waits for no deletion.  It has a number that no task names. -/
theorem posted (hnext : σ.articles.HasNext) {article : Article} (hflaws : article.flaws = [])
    (hdeletion : article.deletion = none) :
    { σ with articles := σ.articles.add article }.Sound where
  users_numbered := h.users_numbered
  blogs_numbered := h.blogs_numbered
  articles_numbered := h.articles_numbered.add hnext article
  tasks_numbered := h.tasks_numbered
  users_flawless := h.users_flawless
  blogs_flawless := h.blogs_flawless
  articles_flawless := h.articles_flawless.add hflaws
  scheduled := by
    intro m b task hm hb
    rcases Table.row_add_eq_some hm with ⟨-, rfl⟩ | hold
    · cases hdeletion.symm.trans hb
    · exact h.scheduled m b task hold hb
  awaited := by
    intro m task hm
    obtain ⟨id, a, hmessage, hrow, ha⟩ := h.awaited m task hm
    exact ⟨id, a, hmessage, h.articles_numbered.row_add_of_row hnext hrow article, ha⟩

/-- A new article together with the task that will delete it.  Both tables need a number, and each
of the two names the number of the other. -/
theorem postedUntil (hnext : σ.articles.HasNext) (hnext' : σ.tasks.HasNext) {article : Article}
    {deadline : Timestamp} (hflaws : article.flaws = [])
    (hdeadline : article.deleteAt = some deadline) :
    { σ with
      articles := σ.articles.add { article with deletion := some ⟨σ.tasks.next⟩ }
      tasks := σ.tasks.add ⟨deadline, .deleteArticle ⟨σ.articles.next⟩⟩ }.Sound where
  users_numbered := h.users_numbered
  blogs_numbered := h.blogs_numbered
  articles_numbered := h.articles_numbered.add hnext _
  tasks_numbered := h.tasks_numbered.add hnext' _
  users_flawless := h.users_flawless
  blogs_flawless := h.blogs_flawless
  articles_flawless := by
    refine h.articles_flawless.add ?_
    -- The check does not look at the task.
    show article.flaws = []
    exact hflaws
  scheduled := by
    intro m b task hm hb
    rcases Table.row_add_eq_some hm with ⟨rfl, rfl⟩ | hold
    · cases hb
      exact ⟨deadline, hdeadline, Table.row_add_next _ _⟩
    · -- An older article names an older task.
      obtain ⟨other, hother, hrow⟩ := h.scheduled m b task hold hb
      exact ⟨other, hother, h.tasks_numbered.row_add_of_row hnext' hrow _⟩
  awaited := by
    intro m task hm
    rcases Table.row_add_eq_some hm with ⟨rfl, rfl⟩ | hold
    · exact ⟨⟨σ.articles.next⟩, _, rfl, Table.row_add_next _ _, rfl⟩
    · -- An older task names an older article.
      obtain ⟨id, a, hmessage, hrow, ha⟩ := h.awaited m task hold
      exact ⟨id, a, hmessage, h.articles_numbered.row_add_of_row hnext hrow _, ha⟩

end Sound

end BlogLedger.Snapshot
