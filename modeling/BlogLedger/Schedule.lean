import BlogLedger.Edit
import BlogLedger.Message.Json

/-!
# The schedule

Messages that are to be delivered at a later time.  A task has a number, by which it is cancelled,
and a place in a queue ordered by time and number.

## Main Definitions

* `Task` — a message and the time for it.
* `Schedule.add`, `Schedule.take`, `Schedule.cancel` — put a task in and take it out.
* `Schedule.task?`, `Schedule.due`, `Schedule.pending` — what is scheduled.

## Design Notes

A task is stored under `_crontask:` and its number, and its place under `_cronqueue:` and its time
and number, each as eight big-endian bytes.  The queue entry has no value.

The limit is taken before the tasks are looked up, so a turn reads as many tasks as it may fire.  A
place in the queue without a task stops it.
-/

namespace BlogLedger

/-- A message and the time at which it is to be delivered.  The time does not change while the task
is scheduled, so its place in the queue is known from it. -/
structure Task where
  runAt : Timestamp
  message : Message
  deriving DecidableEq

namespace Task

/-- A task as JSON. -/
def toJson (t : Task) : Json :=
  .ofMembers [("run_at", t.runAt.toJson), ("msg", t.message.toJson)]

/-- The task that a JSON value writes. -/
def ofJson? (j : Json) : Option Task := do
  let fields ← j.fields? ["run_at", "msg"]
  return {
    runAt := ← fields.required "run_at" Timestamp.ofJson?
    message := ← fields.required "msg" (Message.ofJson? 1) }

/-- The stored form of a task. -/
def encode (t : Task) : Bytes := t.toJson.print

/-- The task in its stored form. -/
def decode (bytes : Bytes) : Except Failure Task :=
  match (Json.parse? bytes).bind ofJson? with
  | some t => .ok t
  | none => fail .undecodable

end Task

namespace Schedule

/-- What the keys of tasks start with. -/
def taskStart : Bytes := Bytes.ofText "_crontask:"

/-- What the keys of the queue start with. -/
def queueStart : Bytes := Bytes.ofText "_cronqueue:"

/-- The key of the last number given out. -/
def sequenceKey : Bytes := Bytes.ofText "_s._crontask"

/-- The key of a task. -/
def taskKey (id : TaskId) : Bytes := taskStart ++ id.key

/-- The key of the place of a task in the queue. -/
def queueKey (runAt : Timestamp) (id : TaskId) : Bytes := queueStart ++ runAt.key ++ id.key

/-- Refuse a time before 1970, which would sort after every later one. -/
def checkTime (runAt : Timestamp) : Except Failure Unit :=
  if runAt < .unset then fail (.negativeSchedule runAt) else .ok ()

/-- The task of a number, if it is scheduled. -/
def task? (id : TaskId) (s : KeySpace) : Except Failure (Option Task) :=
  match s.get (taskKey id) with
  | some bytes => (Task.decode bytes).map some
  | none => .ok none

/-- Give out the next number. -/
def nextId : Edit TaskId := do
  let last ← .look fun s =>
    match s.get sequenceKey with
    | none => .ok ⟨0⟩
    | some bytes =>
      match TaskId.ofKey? bytes with
      | some last => .ok last
      | none => fail .taskSequenceLength
  let id : TaskId := ⟨last.number + 1⟩
  .write (·.set sequenceKey id.key)
  return id

/-- Schedule a message. -/
def add (runAt : Timestamp) (message : Message) : Edit TaskId := do
  .ofExcept (checkTime runAt)
  let id ← nextId
  .write (·.set (taskKey id) (Task.encode ⟨runAt, message⟩))
  .write (·.set (queueKey runAt id) [])
  return id

/-- Take a task out of the schedule, if it is there.  The task is read first, for its place in the
queue is found by its time. -/
def take (id : TaskId) : Edit (Option Task) := do
  match ← .look (task? id) with
  | none => return none
  | some task =>
    .write (·.delete (taskKey id))
    .ofExcept (checkTime task.runAt)
    .write (·.delete (queueKey task.runAt id))
    return some task

/-- Take a task out of the schedule; it must be there. -/
def cancel (id : TaskId) : Edit Unit := do
  match ← take id with
  | some _ => return
  | none => .ofExcept (fail (.noTask id))

/-- The first `limit` tasks that are due at a time, by time and number.  The range ends with the
second after the time.  After the last time of all there is none, so a task of that time is never
due. -/
def due (now : Timestamp) (limit : Nat) (s : KeySpace) :
    Except Failure (List (TaskId × Task)) :=
  if now < .unset then .ok []
  else
    let stop := queueStart ++ (now.addSeconds 1).key
    ((s.range queueStart (some stop)).entries.take limit).mapM fun e => do
      let id := ⟨UInt64.ofNat (Bytes.ofBigDigits (e.1.drop (e.1.length - 8)))⟩
      match ← task? id s with
      | some task => return (id, task)
      | none => fail (.queueWithoutTask id)

/-- How many tasks are scheduled. -/
def pending (s : KeySpace) : Nat := (s.scan queueStart).size

end Schedule

end BlogLedger
