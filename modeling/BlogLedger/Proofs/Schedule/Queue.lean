import BlogLedger.Proofs.Schedule.Due
import Mathlib.Data.List.Basic

/-!
# The schedule is a queue

Requests in a row, granted or refused, lead from an empty key space to a schedule of exactly the
tasks that were scheduled and neither cancelled nor taken since.  They come due by time and number.

A task of the last time never comes due: the range that is looked up ends with the second after now,
and after the last time there is none.

The requests themselves say which tasks are live: a task was added under a number, and no later
request cancelled or took this number.  The store is not spoken of there.  That the schedule shows
exactly these tasks is an induction on the requests, in which a table stands between the two.

## Main Definitions

* `Schedule.Request`, `Schedule.Request.run` — a request, and the key space that it leaves behind.
* `Schedule.Run` — requests in a row that find the numbers they take.
* `Schedule.Live` — a task was scheduled and neither cancelled nor taken since.
* `Schedule.IsQueue` — the schedule after requests in a row is a queue of the live tasks.

## Main Results

* `Schedule.live_concat_iff` — what one more request does to the live tasks.
* `Schedule.Run.shows_live` — after requests in a row the schedule holds the live tasks.
* `Schedule.serves_live` — the schedule is a queue of the live tasks, except for those of the last
  time.
* `Schedule.not_serves_last` — those are never due.
-/

namespace BlogLedger.Schedule

/-- A request to the schedule, with what it is made from. -/
inductive Request where
  | add (runAt : Timestamp) (message : Message)
  | cancel (id : TaskId)
  | take (id : TaskId)

/-- The key space that a request leaves behind, whether it is granted or refused.  A refused request
could have written before it was refused, so its writes are kept in view. -/
def Request.run (s : KeySpace) : Request → KeySpace
  | .add runAt message => ((Schedule.add runAt message).run s).2
  | .cancel id => ((Schedule.cancel id).run s).2
  | .take id => ((Schedule.take id).run s).2

/-- The key space after requests in a row on an empty one. -/
def after (requests : List Request) : KeySpace := requests.foldl Request.run .empty

/-- The sequence of the schedule has a number left: it has not given out the last one that fits in 64
bits. -/
def HasNext (s : KeySpace) : Prop :=
  s.get sequenceKey ≠ some (Bytes.big64 (UInt64.ofNat (UInt64.size - 1)))

/-- A request finds the number that it takes; a message for a time before 1970 takes none.
Cancelling and taking need no number. -/
def Request.Spare (s : KeySpace) : Request → Prop
  | .add runAt _ => ¬ runAt < .unset → HasNext s
  | _ => True

/-- Requests in a row, each of which finds the number that it takes.  The sequence would otherwise
start again from zero. -/
inductive Run : List Request → Prop where
  | nil : Run []
  | concat {requests : List Request} (before : Run requests) (request : Request)
    (spare : request.Spare (after requests)) : Run (requests ++ [request])

/-- A task was scheduled under a number, and has been neither cancelled nor taken since.  Requests
that were refused do not count: a message has no number then, and cancelling an absent task takes
nothing. -/
def Live (requests : List Request) (id : TaskId) (task : Task) : Prop :=
  ∃ before later, requests = before ++ .add task.runAt task.message :: later
    ∧ ((add task.runAt task.message).run (after before)).1 = .ok id
    ∧ .cancel id ∉ later ∧ .take id ∉ later

/-- The list holds exactly the live tasks with the property, in the order of the queue.  The order
is strict, so there is one such list only. -/
structure ListsLive (requests : List Request) (p : Task → Prop) (tasks : List (TaskId × Task)) :
    Prop where
  ordered : tasks.Pairwise Before
  mem_iff : ∀ id task, (id, task) ∈ tasks ↔ Live requests id task ∧ p task

/-- After requests in a row the schedule is a queue of the live tasks, where `isDue` says which times
have come. -/
structure IsQueue (isDue : Timestamp → Timestamp → Prop) (requests : List Request) : Prop where
  /-- A number shows its live task, and nothing if there is none. -/
  task? : ∀ id, ∃ found, Schedule.task? id (after requests) = .ok found
    ∧ ∀ task, found = some task ↔ Live requests id task
  /-- As many tasks are pending as are live. -/
  pending : ∃ tasks, ListsLive requests (fun _ => True) tasks
    ∧ Schedule.pending (after requests) = tasks.length
  /-- The first live tasks whose time has come are due, as many as the limit allows. -/
  due : ∀ now, ∃ tasks, ListsLive requests (fun task => isDue task.runAt now) tasks
    ∧ ∀ limit, Schedule.due now limit (after requests) = .ok (tasks.take limit)
  /-- A live task is cancelled, and it is taken with what it is. -/
  live : ∀ id task, Live requests id task →
    ((cancel id).run (after requests)).1 = .ok ()
      ∧ ((take id).run (after requests)).1 = .ok (some task)
  /-- A message for a time before 1970 is refused, and nothing changes. -/
  add_negative : ∀ runAt message, runAt < .unset → (add runAt message).run (after requests)
    = (fail (.negativeSchedule runAt), after requests)
  /-- A task that is not live is not found when it is to be cancelled, and nothing changes. -/
  cancel_absent : ∀ id, (∀ task, ¬ Live requests id task) → (Cause.noTask id).code = .notFound
    ∧ (cancel id).run (after requests) = (fail (.noTask id), after requests)

variable {requests : List Request} {request : Request} {id : TaskId} {task : Task}
  {t : Table Task} {s : KeySpace}

theorem after_concat (requests : List Request) (request : Request) :
    after (requests ++ [request]) = request.run (after requests) := by
  unfold after
  rw [List.foldl_append]
  rfl

/-! ### One request -/

/-- A message for a time before 1970 is refused, before anything is written. -/
theorem run_add_negative {runAt : Timestamp} (hnegative : runAt < .unset) (message : Message)
    (s : KeySpace) : (add runAt message).run s = (fail (.negativeSchedule runAt), s) := by
  have hcheck : checkTime runAt = fail (.negativeSchedule runAt) := if_pos hnegative
  unfold add
  refine (Edit.run_bind_error (f := .of (.negativeSchedule runAt)) ?_ _).trans rfl
  rw [Edit.run_ofExcept, hcheck]
  rfl

/-- A task that is cancelled leaves what it leaves when it is taken, also where there is none.  So
one step of the induction does for both requests. -/
theorem cancel_leaves (id : TaskId) (s : KeySpace) :
    ((cancel id).run s).2 = ((take id).run s).2 := by
  unfold cancel
  rw [Edit.run_bind]
  rcases (take id).run s with ⟨f | found, u⟩
  · rfl
  · cases found <;> rfl

namespace Holds

/-- The sequence has a number left exactly when the table has.  The one is read from the store and
the other is part of the table. -/
theorem hasNext_iff (h : Holds t s) : HasNext s ↔ t.HasNext := by
  unfold HasNext
  rw [h.sequence.get, Table.hasNext_iff]

/-- Nothing is taken where there is no task, and nothing is written. -/
theorem run_take_none (h : Holds t s) (hrow : t.row id.number = none) :
    (take id).run s = (.ok none, s) := by
  unfold take
  rw [Edit.run_look_bind (h.task? id), hrow]
  rfl

/-- A task that is not there cannot be cancelled, and nothing is written. -/
theorem run_cancel_none (h : Holds t s) (hrow : t.row id.number = none) :
    (cancel id).run s = (fail (.noTask id), s) := by
  unfold cancel
  rw [Edit.run_bind_ok (h.run_take_none hrow)]
  rfl

/-- Whether or not there is a task, there is none after it is taken.  In a table, dropping a row
that is not there changes nothing. -/
theorem after_take (h : Holds t s) (id : TaskId) :
    Holds (t.drop id.number) ((take id).run s).2 := by
  cases hrow : t.row id.number with
  | none =>
    rw [h.run_take_none hrow, Table.drop_of_none hrow]
    exact h
  | some task =>
    obtain ⟨u, hrun, -, hu⟩ := h.run_take hrow
    rw [hrun]
    exact hu

end Holds

/-! ### Requests in a row -/

/-- One more request schedules its task, or takes one out, and leaves the others live.  The
definition speaks of all requests at once, and this is its step. -/
theorem live_concat_iff : Live (requests ++ [request]) id task
    ↔ (request = .add task.runAt task.message
        ∧ ((add task.runAt task.message).run (after requests)).1 = .ok id)
      ∨ Live requests id task ∧ request ≠ .cancel id ∧ request ≠ .take id := by
  constructor
  · rintro ⟨before, later, heq, hresult, hcancel, htake⟩
    rcases List.eq_nil_or_concat' later with rfl | ⟨rest, last, rfl⟩
    · obtain ⟨rfl, hrequest⟩ := List.append_inj' heq rfl
      exact .inl ⟨(List.cons.inj hrequest).1, hresult⟩
    · rw [← List.cons_append, ← List.append_assoc] at heq
      obtain ⟨rfl, hrequest⟩ := List.append_inj' heq rfl
      obtain ⟨rfl, -⟩ := List.cons.inj hrequest
      simp only [List.mem_append, List.mem_singleton, not_or] at hcancel htake
      exact .inr ⟨⟨before, rest, rfl, hresult, hcancel.1, htake.1⟩, Ne.symm hcancel.2,
        Ne.symm htake.2⟩
  · rintro (⟨rfl, hresult⟩ | ⟨⟨before, later, rfl, hresult, hcancel, htake⟩, hne, hne'⟩)
    · exact ⟨requests, [], rfl, hresult, List.not_mem_nil, List.not_mem_nil⟩
    · refine ⟨before, later ++ [request], by simp, hresult, ?_, ?_⟩
      · simp [hcancel, Ne.symm hne]
      · simp [htake, Ne.symm hne']

/-- After requests in a row the schedule holds exactly the live tasks.  One table stands for the
store and for the requests, and this is what the induction carries. -/
structure ShowsLive (requests : List Request) (t : Table Task) : Prop where
  holds : Holds t (after requests)
  numbered : t.Numbered
  row_iff : ∀ id task, t.row id.number = some task ↔ Live requests id task

theorem ShowsLive.nil : ShowsLive [] .empty where
  holds := .empty
  numbered := .empty
  row_iff id task := by
    refine iff_of_false nofun ?_
    rintro ⟨before, later, heq, -⟩
    cases before <;> cases heq

namespace ShowsLive

variable (h : ShowsLive requests t)

include h

/-- A message for a time before 1970 is refused, so the live tasks stay. -/
theorem concat_refused {runAt : Timestamp} (hnegative : runAt < .unset) (message : Message) :
    ShowsLive (requests ++ [.add runAt message]) t where
  holds := by
    rw [after_concat, Request.run, run_add_negative hnegative]
    exact h.holds
  numbered := h.numbered
  row_iff id task := by
    rw [h.row_iff, live_concat_iff]
    constructor
    · exact fun hlive => .inr ⟨hlive, nofun, nofun⟩
    · rintro (⟨heq, hresult⟩ | ⟨hlive, -⟩)
      · cases heq
        rw [run_add_negative hnegative] at hresult
        cases hresult
      · exact hlive

/-- A message that is scheduled becomes a live task under the next number.  The next number is that
of no live task, since all of them are numbered up to the last one. -/
theorem concat_add {runAt : Timestamp} (hnonneg : ¬ runAt < .unset)
    (hnext : HasNext (after requests)) (message : Message) :
    ShowsLive (requests ++ [.add runAt message]) (t.add ⟨runAt, message⟩) := by
  have hspare := h.holds.hasNext_iff.1 hnext
  obtain ⟨u, hrun, -, hu⟩ := h.holds.run_add h.numbered hspare hnonneg message
  refine ⟨?_, h.numbered.add hspare _, fun id task => ?_⟩
  · rw [after_concat, Request.run, hrun]
    exact hu
  · rw [live_concat_iff, ← h.row_iff]
    constructor
    · intro hrow
      rcases Table.row_add_eq_some hrow with ⟨hid, rfl⟩ | hold
      · exact .inl ⟨rfl, by rw [hrun, ← hid]⟩
      · exact .inr ⟨hold, nofun, nofun⟩
    · rintro (⟨heq, hresult⟩ | ⟨hold, -⟩)
      · cases heq
        rw [hrun] at hresult
        cases hresult
        exact Table.row_add_next t task
      · exact h.numbered.row_add_of_row hspare hold _

/-- A task that is taken out is not live any more.  Cancelling and taking are the same here. -/
theorem concat_drop (hrequest : request = .cancel id ∨ request = .take id) :
    ShowsLive (requests ++ [request]) (t.drop id.number) := by
  refine ⟨?_, h.numbered.drop id.number, fun other task => ?_⟩
  · have hleaves : request.run (after requests) = ((take id).run (after requests)).2 := by
      rcases hrequest with rfl | rfl
      · exact cancel_leaves id _
      · rfl
    rw [after_concat, hleaves]
    exact h.holds.after_take id
  · have hnot : request ≠ .add task.runAt task.message := by
      rcases hrequest with rfl | rfl <;> nofun
    have hother : request ≠ .cancel other ∧ request ≠ .take other ↔ other.number ≠ id.number := by
      have hsame : id = other ↔ other.number = id.number := by
        cases id
        cases other
        simp [eq_comm]
      rcases hrequest with rfl | rfl <;> simp [hsame]
    rw [Table.row_drop, live_concat_iff, hother, or_iff_right fun hadd => hnot hadd.1, ← h.row_iff]
    by_cases hid : other.number = id.number <;> simp [hid]

/-- One more request leaves the schedule with exactly the live tasks.  The cases are the requests,
and for a message whether its time is before 1970. -/
theorem concat (hspare : request.Spare (after requests)) :
    ∃ u, ShowsLive (requests ++ [request]) u := by
  cases request with
  | add runAt message =>
    by_cases hnegative : runAt < .unset
    · exact ⟨t, h.concat_refused hnegative message⟩
    · exact ⟨_, h.concat_add hnegative (hspare hnegative) message⟩
  | cancel id => exact ⟨_, h.concat_drop (.inl rfl)⟩
  | take id => exact ⟨_, h.concat_drop (.inr rfl)⟩

end ShowsLive

/-- After requests in a row the schedule holds exactly the live tasks.  The induction is on the
requests, from the empty key space, where there are none. -/
theorem Run.shows_live (h : Run requests) : ∃ t, ShowsLive requests t := by
  induction h with
  | nil => exact ⟨_, .nil⟩
  | concat before request spare ih =>
    obtain ⟨t, ht⟩ := ih
    exact ht.concat spare

/-! ### The queue -/

/-- A list of rows is a list of live tasks.  So what is listed for a table is listed for the
requests. -/
theorem ShowsLive.listsLive (h : ShowsLive requests t) {p : Task → Prop}
    {tasks : List (TaskId × Task)} (hlists : Lists t p tasks) : ListsLive requests p tasks :=
  ⟨hlists.ordered, fun id task => by rw [hlists.mem_iff, h.row_iff]⟩

/-- A number without a live task has no row.  So what is refused for want of a row is refused for
want of a live task. -/
theorem ShowsLive.row_none (h : ShowsLive requests t) (hnone : ∀ task, ¬ Live requests id task) :
    t.row id.number = none := by
  cases hrow : t.row id.number with
  | none => rfl
  | some task => exact absurd ((h.row_iff id task).1 hrow) (hnone task)

/-- After requests in a row, granted or refused, the schedule is a queue of the live tasks: a task is
due when its time has come, unless its time is the last one. -/
theorem serves_live (h : Run requests) :
    IsQueue (fun runAt now => runAt ≤ now ∧ runAt ≠ .last) requests := by
  obtain ⟨t, ht⟩ := h.shows_live
  have hshows := ht.holds.shows
  constructor
  case task? => exact fun id => ⟨_, ht.holds.task? id, fun task => ht.row_iff id task⟩
  case pending =>
    obtain ⟨tasks, hlists, hpending⟩ := hshows.pending
    exact ⟨tasks, ht.listsLive hlists, hpending⟩
  case due =>
    intro now
    obtain ⟨tasks, hlists, hdue⟩ := hshows.due_reached now
    exact ⟨tasks, ht.listsLive hlists, hdue⟩
  case live =>
    intro id task hlive
    have hrow := (ht.row_iff id task).2 hlive
    obtain ⟨u, hcancel, -⟩ := ht.holds.run_cancel hrow
    obtain ⟨v, htake, -⟩ := ht.holds.run_take hrow
    rw [hcancel, htake]
    exact ⟨rfl, rfl⟩
  case add_negative => exact fun runAt message hnegative => run_add_negative hnegative message _
  case cancel_absent =>
    exact fun id hnone => ⟨rfl, ht.holds.run_cancel_none (ht.row_none hnone)⟩

/-- Three messages are scheduled, the later one of the first two before the earlier one, and the third
is cancelled. -/
def sampleRequests : List Request :=
  [.add ⟨900⟩ (.deleteArticle ⟨1⟩), .add ⟨500⟩ (.deleteArticle ⟨2⟩),
    .add ⟨700⟩ (.deleteArticle ⟨3⟩), .cancel ⟨3⟩]

theorem serves_live_sample :
    Run sampleRequests
      ∧ Schedule.due .last 5 (after sampleRequests)
        = .ok [(⟨2⟩, ⟨⟨500⟩, .deleteArticle ⟨2⟩⟩), (⟨1⟩, ⟨⟨900⟩, .deleteArticle ⟨1⟩⟩)]
      ∧ IsQueue (fun runAt now => runAt ≤ now ∧ runAt ≠ .last) sampleRequests := by
  have hrun : Run sampleRequests := by
    refine .concat (.concat (.concat (.concat .nil (.add ⟨900⟩ (.deleteArticle ⟨1⟩)) ?_)
      (.add ⟨500⟩ (.deleteArticle ⟨2⟩)) ?_) (.add ⟨700⟩ (.deleteArticle ⟨3⟩)) ?_) (.cancel ⟨3⟩) trivial
    all_goals
      intro _
      unfold HasNext
      decide +kernel
  exact ⟨hrun, by decide +kernel, serves_live hrun⟩

/-- A message is scheduled for the last time. -/
def lastRequests : List Request := [.add .last (.deleteArticle ⟨1⟩)]

/-- When its time has come the task is live, but the schedule does not find it due.  The second
after the last time is the last time again, and the range ends before the first task of that time. -/
theorem not_serves_last :
    ¬ ∀ requests, Run requests → IsQueue (fun runAt now => runAt ≤ now) requests := by
  intro hall
  have hrun : Run lastRequests := by
    refine .concat .nil (.add .last (.deleteArticle ⟨1⟩)) fun _ => ?_
    unfold HasNext
    decide +kernel
  have hlive : Live lastRequests ⟨1⟩ ⟨.last, .deleteArticle ⟨1⟩⟩ :=
    ⟨[], [], rfl, by decide +kernel, List.not_mem_nil, List.not_mem_nil⟩
  have hdue : Schedule.due .last 1 (after lastRequests) = .ok [] := by decide +kernel
  obtain ⟨tasks, hlists, htasks⟩ := (hall lastRequests hrun).due .last
  have hmem := (hlists.mem_iff _ _).2 ⟨hlive, Timestamp.le_refl _⟩
  have htake : tasks.take 1 = [] := Except.ok.inj ((htasks 1).symm.trans hdue)
  rcases List.take_eq_nil_iff.1 htake with hzero | hnil
  · cases hzero
  · rw [hnil] at hmem
    cases hmem

end BlogLedger.Schedule
