import BlogLedger.Proofs.Failure
import BlogLedger.Proofs.KeySpace.Direct
import BlogLedger.Proofs.Schedule.Due

/-!
# Well-formed schedules

A store may hold anything, also what no transition has written.  As long as tasks and places in the
queue belong together, the schedule finds the tasks that are due, and takes out each of them with two
removals.

Well-formedness is stated by looks at the store and not by a table, so that it can be assumed of a
store about which nothing else is known.  From it a table is got, and then what is shown for tables
applies.

## Main Definitions

* `Schedule.WellFormed` — every place in the queue belongs to a task and every task has its place.
* `Schedule.removal` — the writes that take a task out.

## Main Results

* `Schedule.WellFormed.shows` — a well-formed schedule shows a table of tasks.
* `Schedule.Shows.run_take` — a task is taken out with two removals.
* `Schedule.Shows.drop` — the other tasks stay.
-/

namespace BlogLedger

theorem TaskId.number_inj {id id' : TaskId} : id.number = id'.number ↔ id = id' := by
  refine ⟨fun h => ?_, fun h => by rw [h]⟩
  cases id
  exact congrArg TaskId.mk h

namespace Schedule

/-- The keys of the schedule are well formed, whatever the store holds otherwise.  Both directions
are needed: by the first a lookup of what is due never fails, and by the second no task is missed. -/
structure WellFormed (s : KeySpace) : Prop where
  /-- Every place in the queue is that of a task, with its time. -/
  placed : ∀ key, queueStart <+: key → (s.get key).isSome →
    ∃ id task, key = queueKey task.runAt id ∧ Schedule.task? id s = .ok (some task)
  /-- Every task can be read, has a time that is not before 1970, and has its place in the queue. -/
  stored : ∀ id, (s.get (taskKey id)).isSome →
    ∃ task, Schedule.task? id s = .ok (some task) ∧ ¬ task.runAt < .unset
      ∧ (s.get (queueKey task.runAt id)).isSome

/-- The writes that take a task out: one for the task and one for its place in the queue. -/
def removal (id : TaskId) (task : Task) : Batch :=
  [.delete (taskKey id), .delete (queueKey task.runAt id)]

variable {t : Table Task} {s u : KeySpace} {id : TaskId} {task : Task}

theorem taskKey_inj {id id' : TaskId} : taskKey id = taskKey id' ↔ id = id' := by
  refine ⟨fun h => ?_, fun h => by rw [h]⟩
  exact TaskId.number_inj.1 (Bytes.big64_inj.1 (List.append_cancel_left h))

/-- No key is that of a task and of a place in the queue.  So removing the one leaves the other. -/
theorem taskKey_ne_of_queue {key : Bytes} (h : queueStart <+: key) (id : TaskId) :
    taskKey id ≠ key := by
  rintro rfl
  have hapart : Bytes.Apart taskStart queueStart := by decide
  exact hapart.not_starts (List.prefix_append _ _) h

theorem isSome_get_of_task? (h : Schedule.task? id s = .ok (some task)) :
    (s.get (taskKey id)).isSome = true := by
  unfold Schedule.task? at h
  cases hget : s.get (taskKey id) with
  | some bytes => rfl
  | none =>
    rw [hget] at h
    cases h

theorem task?_of_get_none (h : s.get (taskKey id) = none) : Schedule.task? id s = .ok none := by
  unfold Schedule.task?
  rw [h]

theorem task?_congr (h : u.get (taskKey id) = s.get (taskKey id)) :
    Schedule.task? id u = Schedule.task? id s := by
  unfold Schedule.task?
  rw [h]

/-! ### What is shown -/

/-- A well-formed schedule shows a table of tasks.  The rows are what looks at the tasks give, and
the last number plays no part. -/
theorem WellFormed.shows (h : WellFormed s) : ∃ t, Shows t s := by
  have htask : ∀ id, Schedule.task? id s = .ok (Schedule.task? id s).toOption.join := by
    intro id
    cases hget : s.get (taskKey id) with
    | none =>
      rw [task?_of_get_none hget]
      rfl
    | some bytes =>
      obtain ⟨task, htask, -⟩ := h.stored id (by rw [hget]; rfl)
      rw [htask]
      rfl
  have hrow : ∀ {id task}, (Schedule.task? id s).toOption.join = some task →
      Schedule.task? id s = .ok (some task) := fun hjoin => by rw [htask, hjoin]
  -- The table is read off the store: its rows are what looks at tasks give.
  refine ⟨⟨fun n => (Schedule.task? ⟨n⟩ s).toOption.join, 0⟩, htask, fun key hkey => ⟨?_, ?_⟩, ?_⟩
  · intro hget
    obtain ⟨id, task, rfl, hid⟩ := h.placed key hkey hget
    refine ⟨id, task, ?_, rfl⟩
    show (Schedule.task? id s).toOption.join = some task
    rw [hid]
    rfl
  · rintro ⟨id, task, hid, rfl⟩
    obtain ⟨task', hid', -, hqueue⟩ := h.stored id (isSome_get_of_task? (hrow hid))
    cases (hrow hid).symm.trans hid'
    exact hqueue
  · intro n task hid
    obtain ⟨task', hid', htime, -⟩ := h.stored ⟨n⟩ (isSome_get_of_task? (hrow hid))
    cases (hrow hid).symm.trans hid'
    exact htime

namespace Shows

/-- A schedule that shows a table is well formed.  So both say the same, and the table can be chosen
when it is needed. -/
theorem wellFormed (h : Shows t s) : WellFormed s where
  placed key hkey hget := by
    obtain ⟨id, task, hrow, rfl⟩ := (h.queue key hkey).1 hget
    exact ⟨id, task, rfl, by rw [h.task?, hrow]⟩
  stored id hget := by
    cases hrow : t.row id.number with
    | none =>
      have hnone := h.task? id
      rw [hrow] at hnone
      unfold Schedule.task? at hnone
      obtain ⟨bytes, hbytes⟩ := Option.isSome_iff_exists.1 hget
      rw [hbytes] at hnone
      obtain ⟨_, -, hsome⟩ := Except.map_eq_ok.1 hnone
      cases hsome
    | some task =>
      refine ⟨task, by rw [h.task?, hrow], h.times _ _ hrow, ?_⟩
      exact (h.queue _ (queueStart_le_queueKey _ _)).2 ⟨id, task, hrow, rfl⟩

/-- A task can be looked at exactly when it has a row. -/
theorem task?_iff (h : Shows t s) :
    Schedule.task? id s = .ok (some task) ↔ t.row id.number = some task := by
  rw [h.task?, Except.ok.injEq]

/-- Only the keys of tasks and of the queue matter.  In particular the last number does not. -/
theorem congr (h : Shows t s)
    (hget : ∀ key, Bytes.Under [taskStart, queueStart] key → u.get key = s.get key) :
    Shows t u where
  task? id := by
    rw [← h.task?]
    exact task?_congr (hget _ ⟨_, List.mem_cons_self, List.prefix_append _ _⟩)
  queue key hkey := by
    rw [hget key ⟨_, List.mem_cons_of_mem _ List.mem_cons_self, hkey⟩]
    exact h.queue key hkey
  times := h.times

/-- A task is taken out with two removals, and it is returned as it was. -/
theorem run_take (h : Shows t s) (hrow : t.row id.number = some task) :
    (take id).run s = (.ok (some task), (removal id task).apply s) := by
  unfold take
  rw [Edit.run_look_bind (h.task?_iff.2 hrow)]
  show (Edit.write _ >>= _).run s = _
  rw [Edit.run_write_bind, Edit.run_ofExcept_bind (checkTime_eq (h.times _ _ hrow)),
    Edit.run_write_bind]
  rfl

theorem get_removal (id : TaskId) (task : Task) (s : KeySpace) (key : Bytes) :
    ((removal id task).apply s).get key
      = if queueKey task.runAt id = key then none
        else if taskKey id = key then none else s.get key := by
  show ((s.delete _).delete _).get key = _
  rw [KeySpace.get_delete, KeySpace.get_delete]

/-- Without a task its row is gone, and the other tasks stay.  So the schedule is still well formed
after each task that is fired. -/
theorem drop (h : Shows t s) (hrow : t.row id.number = some task) :
    Shows (t.drop id.number) ((removal id task).apply s) where
  task? id' := by
    rw [Table.row_drop]
    have hqueue : queueKey task.runAt id ≠ taskKey id' :=
      (taskKey_ne_of_queue (queueStart_le_queueKey _ _) id').symm
    by_cases hid : id' = id
    · rw [if_pos (congrArg TaskId.number hid)]
      refine task?_of_get_none ?_
      rw [get_removal, if_neg hqueue, if_pos (taskKey_inj.2 hid.symm)]
    · rw [if_neg fun hnumber => hid (TaskId.number_inj.1 hnumber), ← h.task?]
      refine task?_congr ?_
      rw [get_removal, if_neg hqueue, if_neg fun hsame => hid (taskKey_inj.1 hsame).symm]
  queue key hkey := by
    have hqueued := h.queue key hkey
    rw [get_removal, if_neg (taskKey_ne_of_queue hkey id)]
    obtain ⟨rest, rfl⟩ := hkey
    rw [← queued_iff] at hqueued
    rw [← queued_iff, queued_drop hrow, queueKey_eq]
    by_cases hrest : rest = place task.runAt id.number
    · simp [hrest]
    · rw [if_neg fun he => hrest (List.append_cancel_left he).symm, hqueued]
      exact (and_iff_right hrest).symm
  times n other hother := by
    rw [Table.row_drop] at hother
    split at hother
    · cases hother
    · exact h.times n other hother

end Shows

end Schedule

end BlogLedger
