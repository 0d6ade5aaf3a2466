import BlogLedger.Proofs.Bytes.Start
import BlogLedger.Proofs.Schedule.Holds

/-!
# What is due

The queue lies in the store by time and number, so the tasks that are due are read off a range of it
in their order, and a limit takes the first of them.

What is due is read by a range of keys and not by looking at times, so it must be known that keys
compare as times do.  They do for times since 1970.  The range ends with the second after now, and
this is where the last time of all differs from the others: there is no second after it, so a task
of that time is never in a range.  A time that the calendar can show is never the last one.

## Main Definitions

* `Schedule.Before` — the order of the queue.
* `Schedule.Lists` — an ordered list of exactly the tasks with a property.
* `Schedule.Shows` — a key space shows a table of tasks.

## Main Results

* `Schedule.Shows.due_reached`, `Schedule.Shows.due` — the tasks whose time has come, the earliest
  first, at any time and at one that the calendar can show.
* `Schedule.Shows.pending` — the number of tasks.
* `Schedule.Holds.shows` — what the schedule holds it shows.
-/

namespace BlogLedger.Schedule

/-- A task comes before another one: its time is earlier, or the time is the same and its number is
less.  The keys of the queue carry both, and so the order is in the keys. -/
def Before (x y : TaskId × Task) : Prop :=
  x.2.runAt < y.2.runAt ∨ x.2.runAt = y.2.runAt ∧ x.1.number < y.1.number

/-- The list holds exactly the tasks with the property, in the order of the queue.  The order is
strict, so there is one such list only. -/
structure Lists (t : Table Task) (p : Task → Prop) (tasks : List (TaskId × Task)) : Prop where
  ordered : tasks.Pairwise Before
  mem_iff : ∀ id task, (id, task) ∈ tasks ↔ t.row id.number = some task ∧ p task

/-- Looks at tasks show the rows of a table, and the queue has a place for each of them.  Nothing is
said of the bytes under the keys, so this also holds of schedules that were not written by requests. -/
structure Shows (t : Table Task) (s : KeySpace) : Prop where
  task? : ∀ id, Schedule.task? id s = .ok (t.row id.number)
  queue : ∀ key, queueStart <+: key → ((s.get key).isSome ↔
    ∃ id task, t.row id.number = some task ∧ key = queueKey task.runAt id)
  times : ∀ n task, t.row n = some task → ¬ task.runAt < .unset

variable {t : Table Task} {s : KeySpace} {p : Task → Prop}

theorem Before.ne {x y : TaskId × Task} (h : Before x y) : x ≠ y := by
  rintro rfl
  rcases h with h | ⟨-, h⟩
  · rw [Timestamp.lt_iff] at h
    exact Int.lt_irrefl _ h
  · exact UInt64.lt_irrefl _ h

theorem Lists.congr {q : Task → Prop} {tasks : List (TaskId × Task)} (h : Lists t p tasks)
    (hpq : ∀ task, p task ↔ q task) : Lists t q tasks :=
  ⟨h.ordered, fun id task => (h.mem_iff id task).trans (and_congr_right fun _ => hpq task)⟩

/-- Listed tasks have different numbers.  The order would allow one number with two times, but a
table has one row for a number. -/
theorem Lists.distinct {tasks : List (TaskId × Task)} (h : Lists t p tasks) :
    tasks.Pairwise fun x y => x.1 ≠ y.1 := by
  refine h.ordered.imp_of_mem fun {x y} hx hy hxy hid => hxy.ne ?_
  have hrow := ((h.mem_iff x.1 x.2).1 hx).1
  have hrow' := ((h.mem_iff y.1 y.2).1 hy).1
  rw [hid, hrow', Option.some.injEq] at hrow
  exact Prod.ext hid hrow.symm

theorem queueKey_inj {r r' : Timestamp} {id id' : TaskId} :
    queueKey r id = queueKey r' id' ↔ r = r' ∧ id = id' := by
  rw [queueKey_eq, queueKey_eq, List.append_right_inj, place_inj]
  refine and_congr_right fun _ => ⟨fun h => ?_, fun h => by rw [h]⟩
  cases id
  cases id'
  exact congrArg TaskId.mk h

/-- A key of the queue is the place of some task exactly when that task has a row.  The place is
spoken of by its whole key here, and by what stands after the start of the queue there. -/
theorem queued_iff {rest : Bytes} :
    Queued t rest
      ↔ ∃ id task, t.row id.number = some task ∧ queueStart ++ rest = queueKey task.runAt id := by
  constructor
  · rintro ⟨n, task, hrow, rfl⟩
    exact ⟨⟨n⟩, task, hrow, (queueKey_eq _ _).symm⟩
  · rintro ⟨id, task, hrow, he⟩
    rw [queueKey_eq] at he
    exact ⟨id.number, task, hrow, List.append_cancel_left he⟩

/-- Keys of the queue compare as pairs of the time and the number.  The start is the same for all,
so it does not count. -/
theorem keepsOrder_queueKey :
    Bytes.KeepsOrder (fun x : Timestamp × TaskId => ¬ x.1 < .unset) (fun x => queueKey x.1 x.2)
      fun x => toLex (x.1.toInt, x.2.number.toNat) := by
  have hplaced := (keepsOrder_place.under queueStart).comap
    (fun x : Timestamp × TaskId => (x.1, x.2.number)) fun _ h => h
  simpa only [queueKey_eq] using hplaced

/-- Keys of the queue compare as the tasks.  Then entries that ascend list the tasks in their order. -/
theorem queueKey_lt_iff {x y : TaskId × Task} (hx : ¬ x.2.runAt < .unset)
    (hy : ¬ y.2.runAt < .unset) :
    queueKey x.2.runAt x.1 < queueKey y.2.runAt y.1 ↔ Before x y := by
  unfold Before
  rw [Timestamp.lt_iff, ← Timestamp.toInt_inj, UInt64.lt_iff_toNat_lt]
  exact (keepsOrder_queueKey.lt_iff (x := (x.2.runAt, x.1)) (y := (y.2.runAt, y.1)) hx hy).trans
    Prod.Lex.toLex_lt_toLex

/-- A key of the queue lies before the end of the range for a time exactly when its own time has
come, and is not the last one: the range ends with the next second, and there is none. -/
theorem queueKey_lt_stop_iff {runAt now : Timestamp} (id : TaskId) (hrun : ¬ runAt < .unset)
    (hnext : ¬ now.addSeconds 1 < .unset) :
    queueKey runAt id < queueStart ++ (now.addSeconds 1).key ↔ runAt ≤ now ∧ runAt ≠ .last := by
  rw [queueKey_eq, Bytes.append_lt_append_left_iff]
  unfold place
  rw [Bytes.append_lt_iff _ (runAt.length_key.trans (Timestamp.length_key _).symm),
    Timestamp.key_lt_addSeconds_one hrun hnext]

/-- The last eight bytes of a key of the queue are the number of the task.  This is how the number
is got from a key, as the rows are looked up by it. -/
theorem ofNat_drop_queueKey (runAt : Timestamp) (id : TaskId) :
    UInt64.ofNat (Bytes.ofBigDigits
      ((queueKey runAt id).drop ((queueKey runAt id).length - 8))) = id.number := by
  unfold queueKey TaskId.key
  rw [Bytes.drop_append_big64, Bytes.ofNat_ofBigDigits_big64]

/-- Entries under keys of the queue belong to tasks, one each.  The induction is on the entries. -/
theorem exists_tasks {entries : List (Bytes × Bytes)}
    (h : ∀ e ∈ entries, ∃ x : TaskId × Task,
      queueKey x.2.runAt x.1 = e.1 ∧ t.row x.1.number = some x.2) :
    ∃ tasks : List (TaskId × Task),
      tasks.map (fun x => queueKey x.2.runAt x.1) = entries.map Prod.fst
        ∧ ∀ x ∈ tasks, t.row x.1.number = some x.2 := by
  induction entries with
  | nil => exact ⟨[], rfl, fun x hx => absurd hx List.not_mem_nil⟩
  | cons e rest ih =>
    obtain ⟨x, hkey, hrow⟩ := h e List.mem_cons_self
    obtain ⟨tasks, hmap, hrows⟩ := ih fun other hother => h other (List.mem_cons_of_mem e hother)
    refine ⟨x :: tasks, ?_, List.forall_mem_cons.2 ⟨hrow, hrows⟩⟩
    rw [List.map_cons, List.map_cons, hkey, hmap]

namespace Shows

/-- Whatever part of the queue a map shows, its tasks are listed in its order.  It is stated for any
map, since the tasks that are due and all that are pending are read from different ranges. -/
theorem exists_lists (h : Shows t s) {m : ByteMap Bytes}
    (hm : ∀ key, (∃ value, (key, value) ∈ m.entries) ↔
      ∃ id task, t.row id.number = some task ∧ p task ∧ key = queueKey task.runAt id) :
    ∃ tasks, Lists t p tasks
      ∧ tasks.map (fun x => queueKey x.2.runAt x.1) = m.entries.map Prod.fst
      ∧ ∀ x ∈ tasks, t.row x.1.number = some x.2 := by
  obtain ⟨tasks, hmap, hrows⟩ : ∃ tasks : List (TaskId × Task),
      tasks.map (fun x => queueKey x.2.runAt x.1) = m.entries.map Prod.fst
        ∧ ∀ x ∈ tasks, t.row x.1.number = some x.2 := by
    refine exists_tasks fun e he => ?_
    obtain ⟨id, task, hrow, -, hkey⟩ := (hm e.1).1 ⟨e.2, he⟩
    exact ⟨(id, task), hkey.symm, hrow⟩
  refine ⟨tasks, ⟨?_, fun id task => ⟨fun hmem => ?_, ?_⟩⟩, hmap, hrows⟩
  · -- The entries ascend, and their keys compare as the tasks do.
    have hkeys : (m.entries.map Prod.fst).Pairwise (· < ·) := List.pairwise_map.2 m.ascending
    rw [← hmap, List.pairwise_map] at hkeys
    refine hkeys.imp_of_mem fun {x y} hx hy hlt => ?_
    exact (queueKey_lt_iff (h.times _ _ (hrows x hx)) (h.times _ _ (hrows y hy))).1 hlt
  · -- A listed task has an entry, and the entry has the property and belongs to no other task.
    have hrow := hrows _ hmem
    have hkey : queueKey task.runAt id ∈ m.entries.map Prod.fst := by
      rw [← hmap]
      exact List.mem_map.2 ⟨(id, task), hmem, rfl⟩
    obtain ⟨e, he, hfst⟩ := List.mem_map.1 hkey
    obtain ⟨id', task', hrow', hp, hkey'⟩ := (hm e.1).1 ⟨e.2, he⟩
    obtain ⟨-, rfl⟩ := queueKey_inj.1 (hfst.symm.trans hkey')
    cases hrow.symm.trans hrow'
    exact ⟨hrow, hp⟩
  · rintro ⟨hrow, hp⟩
    obtain ⟨value, hentry⟩ := (hm (queueKey task.runAt id)).2 ⟨id, task, hrow, hp, rfl⟩
    have hkey : queueKey task.runAt id ∈ tasks.map (fun x => queueKey x.2.runAt x.1) := by
      rw [hmap]
      exact List.mem_map.2 ⟨_, hentry, rfl⟩
    obtain ⟨⟨id', task'⟩, hmem, hkey'⟩ := List.mem_map.1 hkey
    obtain ⟨-, rfl⟩ := queueKey_inj.1 hkey'
    cases (hrows _ hmem).symm.trans hrow
    exact hmem

/-- Looking up the tasks of entries of the queue gives the tasks.  No lookup fails, because every
place in the queue is that of a task. -/
theorem mapM_task? (h : Shows t s) {tasks : List (TaskId × Task)}
    {entries : List (Bytes × Bytes)} (hrows : ∀ x ∈ tasks, t.row x.1.number = some x.2)
    (hmap : tasks.map (fun x => queueKey x.2.runAt x.1) = entries.map Prod.fst) :
    (entries.mapM fun e => do
      let id : TaskId := ⟨UInt64.ofNat (Bytes.ofBigDigits (e.1.drop (e.1.length - 8)))⟩
      match ← Schedule.task? id s with
      | some task => return (id, task)
      | none => fail (.queueWithoutTask id) : Except Failure (List (TaskId × Task)))
        = .ok tasks := by
  induction tasks generalizing entries with
  | nil =>
    obtain rfl : entries = [] := List.map_eq_nil_iff.1 hmap.symm
    rfl
  | cons x tasks ih =>
    cases entries with
    | nil => cases hmap
    | cons e entries =>
      obtain ⟨hrow, hrest⟩ := List.forall_mem_cons.1 hrows
      obtain ⟨hkey, hkeys⟩ := List.cons.inj hmap
      rw [List.mapM_cons, ih hrest hkeys, ← hkey]
      simp only [ofNat_drop_queueKey, h.task?, hrow]
      rfl

/-- The tasks whose time has come and is not the last one stand in the order of the queue, and a
limit takes the first of them.  A limit that is greater than their number takes all. -/
theorem due_of_nonneg (h : Shows t s) {now : Timestamp} (hnow : ¬ now < .unset) :
    ∃ tasks, Lists t (fun task => task.runAt ≤ now ∧ task.runAt ≠ .last) tasks
      ∧ ∀ limit, Schedule.due now limit s = .ok (tasks.take limit) := by
  let stop := queueStart ++ (now.addSeconds 1).key
  have hnext := Timestamp.not_lt_unset_addSeconds_one hnow
  have hm : ∀ key, (∃ value, (key, value) ∈ (s.range queueStart (some stop)).entries) ↔
      ∃ id task, t.row id.number = some task ∧ (task.runAt ≤ now ∧ task.runAt ≠ .last)
        ∧ key = queueKey task.runAt id := by
    intro key
    simp only [KeySpace.mem_range_iff, ByteMap.inRange, Option.all_some, Bool.and_eq_true,
      decide_eq_true_eq, exists_and_left, ← Option.isSome_iff_exists]
    constructor
    · rintro ⟨⟨hlow, hhigh⟩, hget⟩
      -- The end of the range starts with the start of the queue, so only keys of the queue are met.
      have hstart := Bytes.starts_of_le_of_lt hlow hhigh
      obtain ⟨id, task, hrow, rfl⟩ := (h.queue key hstart).1 hget
      exact ⟨id, task, hrow, (queueKey_lt_stop_iff id (h.times _ _ hrow) hnext).1 hhigh, rfl⟩
    · rintro ⟨id, task, hrow, hdue, rfl⟩
      have hstart := queueStart_le_queueKey task.runAt id
      refine ⟨⟨?_, ?_⟩, (h.queue _ hstart).2 ⟨id, task, hrow, rfl⟩⟩
      · have hin := (ByteMap.inRange_prefixEnd queueStart _).2 hstart
        unfold ByteMap.inRange at hin
        exact of_decide_eq_true (Bool.and_eq_true_iff.1 hin).1
      · exact (queueKey_lt_stop_iff id (h.times _ _ hrow) hnext).2 hdue
  obtain ⟨tasks, hlists, hmap, hrows⟩ := h.exists_lists hm
  refine ⟨tasks, hlists, fun limit => ?_⟩
  unfold Schedule.due
  rw [if_neg hnow]
  refine h.mapM_task? (fun x hx => hrows x (List.mem_of_mem_take hx)) ?_
  rw [List.map_take, List.map_take, hmap]

/-- The same at every time: before 1970 no task is due.  The schedule answers so without looking at
the queue, as the key of such a time would sort after the others. -/
theorem due_reached (h : Shows t s) (now : Timestamp) :
    ∃ tasks, Lists t (fun task => task.runAt ≤ now ∧ task.runAt ≠ .last) tasks
      ∧ ∀ limit, Schedule.due now limit s = .ok (tasks.take limit) := by
  by_cases hnow : now < .unset
  · refine ⟨[], ⟨.nil, fun id task => iff_of_false List.not_mem_nil ?_⟩, fun limit => ?_⟩
    · rintro ⟨hrow, hle, -⟩
      have hrun := h.times _ _ hrow
      rw [Timestamp.lt_iff] at hnow hrun
      rw [Timestamp.le_iff] at hle
      omega
    · unfold Schedule.due
      rw [if_pos hnow, List.take_nil]
  · exact h.due_of_nonneg hnow

/-- At a time that the calendar can show, the tasks whose time has come stand in the order of the
queue, and a limit takes the first of them. -/
theorem due (h : Shows t s) {now : Timestamp} (hnow : ¬ now < .unset)
    (hshown : now.IsRepresentable) :
    ∃ tasks, Lists t (fun task => task.runAt ≤ now) tasks
      ∧ ∀ limit, Schedule.due now limit s = .ok (tasks.take limit) := by
  obtain ⟨tasks, hlists, hdue⟩ := h.due_of_nonneg hnow
  exact ⟨tasks, hlists.congr fun task => and_iff_left_of_imp hshown.ne_last, hdue⟩

/-- The queue is as long as there are tasks.  Those of the last time are pending, too. -/
theorem pending (h : Shows t s) :
    ∃ tasks, Lists t (fun _ => True) tasks ∧ Schedule.pending s = tasks.length := by
  have hm : ∀ key, (∃ value, (key, value) ∈ (s.scan queueStart).entries) ↔
      ∃ id task, t.row id.number = some task ∧ True ∧ key = queueKey task.runAt id := by
    intro key
    simp only [KeySpace.scan, KeySpace.mem_range_iff, ByteMap.inRange_prefixEnd, exists_and_left,
      ← Option.isSome_iff_exists]
    constructor
    · rintro ⟨hstart, hget⟩
      obtain ⟨id, task, hrow, hkey⟩ := (h.queue key hstart).1 hget
      exact ⟨id, task, hrow, trivial, hkey⟩
    · rintro ⟨id, task, hrow, -, rfl⟩
      have hstart := queueStart_le_queueKey task.runAt id
      exact ⟨hstart, (h.queue _ hstart).2 ⟨id, task, hrow, rfl⟩⟩
  obtain ⟨tasks, hlists, hmap, -⟩ := h.exists_lists hm
  have hlength := congrArg List.length hmap
  rw [List.length_map, List.length_map] at hlength
  exact ⟨tasks, hlists, hlength.symm⟩

end Shows

namespace Holds

/-- The keys of the queue are those of the tasks, and nothing is stored under them. -/
theorem get_queue (h : Holds t s) {key value : Bytes} (hkey : queueStart <+: key) :
    s.get key = some value ↔ value = [] ∧ ∃ id task, t.row id.number = some task
      ∧ key = queueKey task.runAt id := by
  obtain ⟨rest, rfl⟩ := hkey
  rw [h.queue, queued_iff]

/-- What the schedule holds it shows.  So all that is said of what is shown holds after requests. -/
theorem shows (h : Holds t s) : Shows t s where
  task? := h.task?
  queue key hkey := by simp only [Option.isSome_iff_exists, h.get_queue hkey, exists_eq_left]
  times := h.times

/-- The tasks whose time has come stand in the order of the queue, and a limit takes the first of
them. -/
theorem due (h : Holds t s) {now : Timestamp} (hnow : ¬ now < .unset)
    (hshown : now.IsRepresentable) :
    ∃ tasks, Lists t (fun task => task.runAt ≤ now) tasks
      ∧ ∀ limit, Schedule.due now limit s = .ok (tasks.take limit) :=
  h.shows.due hnow hshown

/-- The queue is as long as there are tasks. -/
theorem pending (h : Holds t s) :
    ∃ tasks, Lists t (fun _ => True) tasks ∧ Schedule.pending s = tasks.length :=
  h.shows.pending

end Holds

end BlogLedger.Schedule
