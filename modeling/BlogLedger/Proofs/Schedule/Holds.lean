import BlogLedger.Proofs.Edit
import BlogLedger.Proofs.Json.Stored
import BlogLedger.Proofs.Table
import BlogLedger.Proofs.Timestamp

/-!
# What the schedule holds

The schedule stands for a table of tasks: one key a task, one for the last number, and for every
task one place in the queue, which carries the time of the task and its number.

Tasks and places in the queue are written one after the other, and they must not come apart.  A turn
fails when it comes to a place without a task.  A task without a place would never fire.  Therefore
the invariant says exactly which keys there are, and each request is shown to keep it.

## Main Definitions

* `Schedule.Holds` — a key space holds exactly a table of tasks for the schedule.

## Main Results

* `Schedule.Holds.task?` — a look at a task shows the table.
* `Schedule.Holds.run_add`, `Schedule.Holds.run_take`, `Schedule.Holds.run_cancel` — writes go
  through, stay within the keys of the schedule and change the table.
-/

namespace BlogLedger.Schedule

open KeySpace (Confined)

/-- The starts of all keys of the schedule.  A request writes under these only. -/
def starts : List Bytes := [taskStart, queueStart, sequenceKey]

/-- What stands after the start of the key of a place in the queue.  It is fixed in length, so the
time and the number can be told apart. -/
def place (runAt : Timestamp) (n : UInt64) : Bytes := runAt.key ++ Bytes.big64 n

/-- Some task has a place in the queue, which is spoken of by the bytes after the start. -/
def Queued (t : Table Task) (rest : Bytes) : Prop :=
  ∃ n task, t.row n = some task ∧ rest = place task.runAt n

/-- A key space holds exactly the table for the schedule.  Keys of other parts of the store are left
open. -/
structure Holds (t : Table Task) (s : KeySpace) : Prop where
  tasks : s.Rows taskStart (t.rowBytes Task.encode)
  sequence : s.Single sequenceKey t.lastBytes
  queue : ∀ rest value, s.get (queueStart ++ rest) = some value ↔ value = [] ∧ Queued t rest
  /-- A time before 1970 would sort after every later one. -/
  times : ∀ n task, t.row n = some task → ¬ task.runAt < .unset

theorem queueKey_eq (runAt : Timestamp) (id : TaskId) :
    queueKey runAt id = queueStart ++ place runAt id.number := by
  unfold queueKey place
  rw [List.append_assoc]
  rfl

/-- Every place in the queue is a key of the queue, so a scan of the queue meets it. -/
theorem queueStart_le_queueKey (runAt : Timestamp) (id : TaskId) :
    queueStart <+: queueKey runAt id := by
  rw [queueKey_eq]
  exact List.prefix_append _ _

/-- Places compare as pairs of the time and the number.  Both are written with the highest byte
first, and this keeps the order of numbers that are not negative. -/
theorem keepsOrder_place :
    Bytes.KeepsOrder (fun x : Timestamp × UInt64 => ¬ x.1 < .unset) (fun x => place x.1 x.2)
      fun x => toLex (x.1.toInt, x.2.toNat) :=
  (Timestamp.keepsOrder_key.comap Prod.fst fun _ h => h).append
    (Bytes.keepsOrder_big64.comap Prod.snd fun _ _ => trivial)
    fun x y => x.1.length_key.trans y.1.length_key.symm

/-- A place determines the time and the number.  So two tasks never share a place. -/
theorem place_inj {r r' : Timestamp} {n n' : UInt64} :
    place r n = place r' n' ↔ r = r' ∧ n = n' :=
  (keepsOrder_place.eq_iff (x := (r, n)) (y := (r', n'))).trans <| by
    rw [toLex_inj, Prod.mk.injEq, Timestamp.toInt_inj, UInt64.toNat_inj]

variable {t : Table Task} {s : KeySpace}

theorem checkTime_eq {runAt : Timestamp} (h : ¬ runAt < .unset) : checkTime runAt = .ok () :=
  if_neg h

/-- Scheduling a task under the next number adds its place to the queue.  No task had the number
before, so no other place changes. -/
theorem queued_add (hnumbered : t.Numbered) (hnext : t.HasNext) (task : Task) (rest : Bytes) :
    Queued (t.add task) rest ↔ rest = place task.runAt t.next ∨ Queued t rest := by
  constructor
  · rintro ⟨n, other, hrow, rfl⟩
    rcases Table.row_add_eq_some hrow with ⟨rfl, rfl⟩ | hold
    · exact .inl rfl
    · exact .inr ⟨n, other, hold, rfl⟩
  · rintro (rfl | ⟨n, other, hrow, rfl⟩)
    · exact ⟨t.next, task, Table.row_add_next _ _, rfl⟩
    · exact ⟨n, other, hnumbered.row_add_of_row hnext hrow task, rfl⟩

/-- Taking a task out leaves the places of the others.  None of them has its place, as the number is
part of it. -/
theorem queued_drop {n : UInt64} {task : Task} (hrow : t.row n = some task) (rest : Bytes) :
    Queued (t.drop n) rest ↔ rest ≠ place task.runAt n ∧ Queued t rest := by
  constructor
  · rintro ⟨m, other, hm, rfl⟩
    rw [Table.row_drop] at hm
    split at hm
    · cases hm
    · next hmn => exact ⟨fun he => hmn (place_inj.1 he).2, m, other, hm, rfl⟩
  · rintro ⟨hne, m, other, hm, rfl⟩
    refine ⟨m, other, ?_, rfl⟩
    rw [Table.row_drop, if_neg]
    · exact hm
    · rintro rfl
      rw [hrow] at hm
      cases hm
      exact hne rfl

/-- A write to the key of a task or to that of the last number leaves the places in the queue.  The
starts of these keys differ within their common length. -/
theorem get_queue_of_confined {u : KeySpace} (h : Confined [taskStart, sequenceKey] s u)
    (rest : Bytes) : u.get (queueStart ++ rest) = s.get (queueStart ++ rest) :=
  h.get_of_apart (List.prefix_append _ _) (by decide)

namespace Holds

/-- An empty key space holds no task. -/
theorem empty : Holds .empty .empty where
  tasks := .empty _ _
  sequence := .empty _
  queue := by
    intro rest value
    rw [KeySpace.get_empty]
    refine iff_of_false (by simp) ?_
    rintro ⟨-, n, task, hrow, -⟩
    cases hrow
  times := nofun

/-- A look at a task shows the table. -/
protected theorem task? (h : Holds t s) (id : TaskId) :
    Schedule.task? id s = .ok (t.row id.number) := by
  have hbytes : s.get (taskKey id) = (t.row id.number).map Task.encode := h.tasks.get id.number
  unfold Schedule.task?
  rw [hbytes]
  cases hrow : t.row id.number with
  | none => rfl
  | some task =>
    show (Task.decode task.encode).map some = _
    rw [Task.decode_encode]
    rfl

/-- Only the keys of the schedule matter. -/
theorem congr {u : KeySpace} (h : Holds t s)
    (hget : ∀ key, Bytes.Under starts key → u.get key = s.get key) : Holds t u := by
  have hstart : ∀ p ∈ starts, ∀ key, p <+: key → u.get key = s.get key :=
    fun p hp key hkey => hget key ⟨p, hp, hkey⟩
  refine ⟨h.tasks.congr (hstart _ (by simp [starts])),
    h.sequence.congr (hstart _ (by simp [starts])), ?_, h.times⟩
  intro rest value
  rw [hstart queueStart (by simp [starts]) _ (List.prefix_append _ _)]
  exact h.queue rest value

/-- Nothing changes when other keys do.  It is enough that the starts of the written keys are apart
from those of the schedule. -/
theorem of_confined {u : KeySpace} {written : List Bytes} (h : Holds t s)
    (hsu : Confined written s u) (hap : ∀ p ∈ starts, ∀ q ∈ written, Bytes.Apart p q) :
    Holds t u :=
  h.congr fun _ hkey => hsu.get_of_under hkey hap

/-- The next number follows the last one, and only the last number is written. -/
theorem run_nextId (h : Holds t s) :
    nextId.run s = (.ok ⟨t.next⟩, s.set sequenceKey (Bytes.big64 t.next)) := by
  unfold nextId
  refine (Edit.run_look_bind (a := ⟨t.last⟩) ?_ _).trans (Edit.run_write_bind _ _)
  rw [h.sequence.get]
  unfold Table.lastBytes
  by_cases hzero : t.last = 0
  · rw [if_pos hzero, hzero]
  · rw [if_neg hzero]
    simp only [TaskId.ofKey?, Bytes.ofBig64?_big64, Option.map_some]

/-- A message is scheduled under the next number.  A time before 1970 is excluded, for such a
message is refused. -/
theorem run_add (h : Holds t s) (hnumbered : t.Numbered) (hnext : t.HasNext) {runAt : Timestamp}
    (htime : ¬ runAt < .unset) (message : Message) :
    ∃ u, (add runAt message).run s = (.ok ⟨t.next⟩, u) ∧ Confined starts s u
      ∧ Holds (t.add ⟨runAt, message⟩) u := by
  let numbered := s.set sequenceKey (Bytes.big64 t.next)
  let stored := numbered.set (taskKey ⟨t.next⟩) (Task.encode ⟨runAt, message⟩)
  have hnumber : Confined [sequenceKey] s numbered :=
    Confined.set ⟨_, List.mem_singleton_self _, List.prefix_rfl⟩ _ s
  have hstore : Confined [taskStart] numbered stored :=
    Confined.set ⟨_, List.mem_singleton_self _, List.prefix_append _ _⟩ _ numbered
  have hqueue : Confined [queueStart] stored (stored.set (queueKey runAt ⟨t.next⟩) []) := by
    refine Confined.set ⟨_, List.mem_singleton_self _, ?_⟩ _ stored
    rw [queueKey_eq]
    exact List.prefix_append _ _
  -- Three keys are written under three starts, so each part of the invariant sees one of them.
  refine ⟨stored.set (queueKey runAt ⟨t.next⟩) [], ?_, ?_, ?_, ?_, ?_, ?_⟩
  · unfold add
    rw [Edit.run_ofExcept_bind (checkTime_eq htime), Edit.run_bind_ok h.run_nextId,
      Edit.run_write_bind, Edit.run_write_bind]
    rfl
  · exact ((hnumber.mono (by simp [starts])).trans (hstore.mono (by simp [starts]))).trans
      (hqueue.mono (by simp [starts]))
  · have hrows := (h.tasks.of_confined hnumber (by decide)).set t.next
      (Task.encode ⟨runAt, message⟩)
    rw [← Table.rowBytes_add] at hrows
    exact hrows.of_confined hqueue (by decide)
  · rw [Table.lastBytes_add hnext]
    exact ((h.sequence.set _).of_confined hstore (by decide)).of_confined hqueue (by decide)
  · intro rest value
    have hbefore : stored.get (queueStart ++ rest) = s.get (queueStart ++ rest) :=
      get_queue_of_confined ((hnumber.mono (by simp)).trans (hstore.mono (by simp))) rest
    rw [KeySpace.get_set, hbefore, queueKey_eq, queued_add hnumbered hnext]
    by_cases hrest : rest = place runAt t.next
    · rw [if_pos (by rw [hrest])]
      simp [hrest, eq_comm]
    · rw [if_neg fun he => hrest (List.append_cancel_left he).symm, h.queue]
      simp [hrest]
  · intro n task hrow
    rw [Table.row_add] at hrow
    split at hrow
    · cases hrow
      exact htime
    · exact h.times n task hrow

/-- A task that is scheduled is taken out.  It is returned as it was stored, and its place in the
queue goes with it. -/
theorem run_take (h : Holds t s) {id : TaskId} {task : Task} (hrow : t.row id.number = some task) :
    ∃ u, (take id).run s = (.ok (some task), u) ∧ Confined starts s u
      ∧ Holds (t.drop id.number) u := by
  let unstored := s.delete (taskKey id)
  have hstore : Confined [taskStart] s unstored :=
    Confined.delete ⟨_, List.mem_singleton_self _, List.prefix_append _ _⟩ s
  have hqueue : Confined [queueStart] unstored (unstored.delete (queueKey task.runAt id)) := by
    refine Confined.delete ⟨_, List.mem_singleton_self _, ?_⟩ unstored
    rw [queueKey_eq]
    exact List.prefix_append _ _
  have htask : Schedule.task? id s = .ok (some task) := by rw [h.task?, hrow]
  -- The key of the task and that of its place go, and the sequence is left.
  refine ⟨unstored.delete (queueKey task.runAt id), ?_, ?_, ?_, ?_, ?_, ?_⟩
  · unfold take
    rw [Edit.run_look_bind htask]
    show (Edit.write _ >>= _).run s = _
    rw [Edit.run_write_bind, Edit.run_ofExcept_bind (checkTime_eq (h.times _ _ hrow)),
      Edit.run_write_bind]
    rfl
  · exact (hstore.mono (by simp [starts])).trans (hqueue.mono (by simp [starts]))
  · have hrows := h.tasks.delete id.number
    rw [← Table.rowBytes_drop] at hrows
    exact hrows.of_confined hqueue (by decide)
  · exact (h.sequence.of_confined hstore (by decide)).of_confined hqueue (by decide)
  · intro rest value
    have hbefore : unstored.get (queueStart ++ rest) = s.get (queueStart ++ rest) :=
      get_queue_of_confined (hstore.mono (by simp)) rest
    rw [KeySpace.get_delete, hbefore, queueKey_eq, queued_drop hrow]
    by_cases hrest : rest = place task.runAt id.number
    · rw [if_pos (by rw [hrest])]
      simp [hrest]
    · rw [if_neg fun he => hrest (List.append_cancel_left he).symm, h.queue]
      simp [hrest]
  · intro n other hn
    rw [Table.row_drop] at hn
    split at hn
    · cases hn
    · exact h.times n other hn

/-- A task that is scheduled can be cancelled.  This leaves the same store as taking it out. -/
theorem run_cancel (h : Holds t s) {id : TaskId} {task : Task}
    (hrow : t.row id.number = some task) :
    ∃ u, (cancel id).run s = (.ok (), u) ∧ Confined starts s u ∧ Holds (t.drop id.number) u := by
  obtain ⟨u, hrun, hconf, hu⟩ := h.run_take hrow
  refine ⟨u, ?_, hconf, hu⟩
  unfold cancel
  rw [Edit.run_bind_ok hrun]
  rfl

end Holds

end BlogLedger.Schedule
