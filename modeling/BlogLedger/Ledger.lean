import BlogLedger.Counters
import BlogLedger.Journal
import BlogLedger.Log
import BlogLedger.Transition.Routes

/-!
# The ledger

The ledger makes one transition at a time.  Each transition, and each fired task, writes on a layer of
its own; the layer becomes one journal record and is then made part of the store, or it is dropped
and nothing has happened.

## Main Definitions

* `Ledger` — the committed store, the journal and the counters.
* `Ledger.check`, `Ledger.deliver` — price a transaction, and make its change.
* `Ledger.tick` — fire the tasks that are due.
* `Step` — what a step of the ledger gives, leaves behind and logs.

## Design Notes

A task is fired on its own: it is taken out of the schedule, its message is delivered on a layer on
top of that, and both are committed as one record.  So a task whose message is refused is still
taken out, and a crash between two tasks leaves the second one scheduled.

The counts of a transaction are made after its commit.  Those of a fired task are made before it,
and they stay when the journal refuses the record.
-/

namespace BlogLedger

/-- A ledger: the committed store, the journal unless the ledger is volatile, the counters, and how
many tasks a tick may fire.  The store is written by commits, so no layer is left on it. -/
structure Ledger where
  store : KeySpace
  journal : Option Journal
  counters : Counters
  maxTasks : Nat

/-- A step of a ledger: its result, the ledger after it, and what it logged.  There is a ledger
after a failure, too, as counts go on and a journal may be poisoned. -/
structure Step (α : Type) where
  result : Except Failure α
  ledger : Ledger
  log : List LogEntry

/-- A fired task and how it went. -/
structure Firing where
  id : TaskId
  runAt : Timestamp
  path : String
  error : Option String

/-- What a tick did. -/
structure TickReport where
  now : Timestamp
  fired : List Firing
  /-- How many tasks are still scheduled. -/
  pending : Nat

/-- A fired task as JSON. -/
def Firing.toJson (f : Firing) : Json :=
  .ofMembers ([("task_id", f.id.toJson), ("run_at", f.runAt.toJson), ("path", .ofText f.path),
    ("succeeded", .bool f.error.isNone)] ++ Json.optionalMember "error" .ofText f.error)

/-- A report as JSON. -/
def TickReport.toJson (r : TickReport) : Json :=
  .ofMembers [("now", r.now.toJson), ("fired", .array (r.fired.map Firing.toJson)),
    ("pending", .ofNat r.pending)]

namespace Ledger

/-- How many tasks a tick fires unless something else is asked for. -/
def defaultMaxTasks : Nat := 256

/-- A fresh ledger without a journal. -/
def volatile : Ledger := ⟨.empty, none, .zero, defaultMaxTasks⟩

/-! ### Time -/

/-- The key of the time of the last transition.  It belongs to no bucket and not to the schedule. -/
def timeKey : Bytes := Bytes.ofText "_meta.time"

/-- The time of the last transition; zero when there was none. -/
def lastTime (l : Ledger) : Except Failure Timestamp :=
  match l.store.get timeKey with
  | none => .ok .unset
  | some bytes =>
    match Timestamp.ofKey? bytes with
    | some time => .ok time
    | none => fail .timeLength

/-- Note the time of a transition. -/
def writeTime (time : Timestamp) (s : KeySpace) : KeySpace := s.set timeKey time.key

/-- Refuse a time that is not positive, that the calendar cannot show, or that lies before the last
transition.  The same time may be used again. -/
def ensureTime (time : Timestamp) (l : Ledger) : Except Failure Unit :=
  if time ≤ .unset then fail .timeNotPositive
  else if ¬ time.IsRepresentable then fail (.timeOutOfRange time)
  else do
    let last ← l.lastTime
    if time < last then fail (.timeBackwards time last) else .ok ()

/-! ### Committing -/

/-- What a count does to the ledger. -/
def count (f : Counters → Counters) (l : Ledger) : Ledger := { l with counters := f l.counters }

/-- Write a batch to the journal and make it part of the store.  If the journal refuses it, the
store stays as it is.  The journal is kept in either case, since a refusal can poison it. -/
def commit (batch : Batch) (l : Ledger) : Step Unit :=
  match l.journal with
  | none => ⟨.ok (), { l with store := batch.apply l.store }, []⟩
  | some journal =>
    match journal.append batch with
    | (.error fault, journal) =>
      ⟨fail (.storage fault), { l with journal := some journal }, []⟩
    | (.ok offset, journal) =>
      ⟨.ok (), { l.count Counters.countRecord with
          store := batch.apply l.store, journal := some journal },
        [.of .journalAppended
          [("offset", toString offset), ("ops", toString batch.length)]]⟩

/-! ### Transactions -/

/-- A rejected transaction, counted and logged. -/
def reject {α : Type} (path : String) (f : Failure) (log : List LogEntry) (l : Ledger) : Step α :=
  let level := if f.isFatal then .error else Event.level .transitionRejected
  ⟨.error f, l.count Counters.countRejection,
    log ++ [⟨level, .transitionRejected,
      [("code", f.code.name), ("error", f.message), ("path", path)]⟩]⟩

/-- What a transaction costs, if it would be accepted. -/
def price (tx : Transaction) (l : Ledger) : Except Failure Nat := do
  l.ensureTime tx.time
  (← Routes.submitted.route tx.message).check tx.context tx.message l.store

/-- Check a transaction. -/
def check (tx : Transaction) (l : Ledger) : Step Nat :=
  let path := tx.message.path
  let counted := l.count Counters.countCheck
  match l.price tx with
  | .ok cost =>
    ⟨.ok cost, counted, [.of .transitionChecked [("path", path), ("cost", toString cost)]]⟩
  | .error f => counted.reject path f []

/-- What a transaction does and the writes it makes, if it is accepted.  The time of the transition
is one of the writes, so it is committed together with them. -/
def prepare (tx : Transaction) (l : Ledger) : Except Failure (Outcome × Batch) := do
  l.ensureTime tx.time
  let handler ← Routes.submitted.route tx.message
  match (handler.deliver tx.context tx.message).run l.store.cover with
  | (.ok outcome, s) => return (outcome, (writeTime tx.time s).pending)
  | (.error f, _) => .error f

/-- The number of the record that an outcome is about, as text. -/
def idText (o : Outcome) : String := (o.id.map RecordId.display).getD ""

/-- A line for a task that an outcome names, if it names one. -/
def taskEntry (event : Event) (o : Outcome) : Option TaskId → List LogEntry
  | some task => [.of event [("id", idText o), ("task", task.display)]]
  | none => []

/-- The lines for a transaction that was made. -/
def deliveryLog (path : String) (o : Outcome) : List LogEntry :=
  [.of .transitionDelivered [("id", idText o), ("path", path)]]
    ++ taskEntry .taskScheduled o o.scheduled
    ++ taskEntry .taskCancelled o o.cancelled

/-- Make the change of a transaction; if it fails, nothing is committed. -/
def deliver (tx : Transaction) (l : Ledger) : Step Outcome :=
  let path := tx.message.path
  match l.prepare tx with
  | .error f => l.reject path f []
  | .ok (outcome, batch) =>
    let committed := l.commit batch
    match committed.result with
    | .error f => committed.ledger.reject path f committed.log
    | .ok () =>
      ⟨.ok outcome, committed.ledger.count (Counters.countDelivery outcome),
        committed.log ++ deliveryLog path outcome⟩

/-! ### Tasks -/

/-- What a task does and the writes it makes on `s`, if its message is accepted.  The writes are on
a layer of their own, so they can be dropped without the removal of the task. -/
def prepareTask (now : Timestamp) (id : TaskId) (m : Message) (s : KeySpace) :
    Except Failure (Outcome × Batch) := do
  let handler ← Routes.fired.route m
  match (handler.deliver ⟨now, .scheduler id⟩ m).run s.cover with
  | (.ok outcome, s) => return (outcome, s.pending)
  | (.error f, _) => .error f

/-- Commit a fired task together with its removal from the schedule. -/
def commitTask (now : Timestamp) (firing : Firing) (log : List LogEntry) (s : KeySpace)
    (l : Ledger) : Step Firing :=
  let committed := l.commit (writeTime now s).pending
  ⟨committed.result.map fun _ => firing, committed.ledger, log ++ committed.log⟩

/-- Fire one task.  A failure drops the task and the writes of its message; a fatal one stops the
tick with the task still scheduled. -/
def fire (now : Timestamp) (id : TaskId) (task : Task) (l : Ledger) : Step Firing :=
  let path := task.message.path
  let counted := l.count Counters.countFiring
  let labels := [("path", path), ("task", id.display)]
  match (Schedule.take id).run l.store.cover with
  | (.error f, _) => ⟨.error f, counted, []⟩
  | (.ok _, s) =>
    match prepareTask now id task.message s with
    | .ok (outcome, batch) =>
      let event := if outcome.effect = .unchanged then .taskSkipped else .taskFired
      commitTask now ⟨id, task.runAt, path, none⟩ [.of event labels] (batch.apply s)
        (counted.count (Counters.countDelivery outcome))
    | .error f =>
      let labels := ("error", f.message) :: labels
      if f.isFatal then ⟨.error f, counted, [⟨.error, .taskFailed, labels⟩]⟩
      else
        commitTask now ⟨id, task.runAt, path, some f.display⟩ [.of .taskFailed labels] s
          (counted.count Counters.countFailure)

/-- Fire tasks in order, up to the first one that stops the tick.  The tasks before it are committed
and stay so, though the tick reports the failure alone. -/
def fireAll (now : Timestamp) : List (TaskId × Task) → Ledger → Step (List Firing)
  | [], l => ⟨.ok [], l, []⟩
  | (id, task) :: rest, l =>
    let first := l.fire now id task
    match first.result with
    | .error f => ⟨.error f, first.ledger, first.log⟩
    | .ok firing =>
      let others := fireAll now rest first.ledger
      ⟨others.result.map (firing :: ·), others.ledger, first.log ++ others.log⟩

/-- How many tasks are scheduled. -/
def pendingTasks (l : Ledger) : Nat := Schedule.pending l.store

/-- The tasks that a tick fires. -/
def dueTasks (now : Timestamp) (l : Ledger) : Except Failure (List (TaskId × Task)) := do
  l.ensureTime now
  Schedule.due now l.maxTasks l.store

/-- Fire every task that is due, the earliest first, as far as the limit allows.  Each task commits
on its own. -/
def tick (now : Timestamp) (l : Ledger) : Step TickReport :=
  match l.dueTasks now with
  | .error f => ⟨.error f, l, []⟩
  | .ok due =>
    let done := l.fireAll now due
    match done.result with
    | .error f => ⟨.error f, done.ledger, done.log⟩
    | .ok fired =>
      let pending := done.ledger.pendingTasks
      ⟨.ok ⟨now, fired, pending⟩, done.ledger,
        done.log ++ [.of .tickCompleted
          [("fired", toString fired.length), ("now", now.display),
            ("pending", toString pending)]]⟩

end Ledger

end BlogLedger
