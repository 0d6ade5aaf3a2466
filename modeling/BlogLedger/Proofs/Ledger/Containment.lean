import BlogLedger.Proofs.Ledger.Portions
import BlogLedger.Proofs.Schedule.WellFormed
import BlogLedger.Proofs.Transition.Touched

/-!
# Failing tasks are contained

A journal can hold anything, so a task that is due may ask for what cannot be done.  Whatever the
store holds beside a well-formed schedule, a task that fails takes nothing with it but its own place:
the writes of its message are dropped, and the next task is fired.  A fatal failure stops the tick,
and then the task and all later ones stay.

Of all that the other results take for granted about a store, only the schedule is asked for here.
Articles may be missing, and keys of other parts may hold any bytes.  That is enough, because taking
a task out of the queue reads and writes the schedule alone, and because the message of a fired task
is answered on a layer that can be thrown away.  So the proof has two halves: what a fired task may
write at all, and that writes of that kind leave a schedule that is well formed again.

## Main Definitions

* `Ledger.Committed`, `Ledger.Refused` — exactly some writes are committed, or none.
* `Ledger.Goes` — how a task goes that does not stop the tick, and what is written then.
* `Ledger.Fate` — what can happen to one task that is fired.
* `Ledger.Course` — what happens to tasks in a row.
* `Ledger.Contained` — what a tick does on any store whose schedule is well formed.

## Main Results

* `Ledger.fate` — what happens to one task.
* `Ledger.course` — what happens to tasks in a row.
* `Ledger.failures_contained` — failing tasks are contained.

## Design Notes

`Goes`, `Fate` and `Course` are inductive and not conjunctions of conditional statements.  A task
has one of three fates, the case splits below are made on them, and a result about tasks in a row is
an induction on `Course`.

The record that the journal takes is a permutation of the writes and not the writes themselves: a
layer keeps what is pending by key and not in the order in which it was written.  `Goes.nodup` is
there for that reason, since for distinct keys the order does not matter.
-/

namespace BlogLedger

open Bytes (Under)

/-- Only deletions are fired.  The routes of fired tasks have one entry, so whatever message a
damaged task holds, there is one handler to look at, and any other path is refused before something
is written. -/
theorem Routes.eq_firedDeletion {m : Message} {handler : Handler}
    (h : Routes.fired.route m = .ok handler) : handler = .firedDeletion := by
  unfold Routes.route at h
  cases hlookup : Routes.fired.lookup m.path with
  | none =>
    rw [hlookup] at h
    cases h
  | some found =>
    rw [hlookup] at h
    cases h
    -- The table has one entry.
    unfold Routes.fired at hlookup
    rw [List.lookup_cons] at hlookup
    split at hlookup
    · cases hlookup
      rfl
    · cases hlookup

/-- Keys of different parts differ.  No start of one part is a prefix of a start of another, which
has been settled once for all pairs of parts. -/
theorem Part.ne_of_under {p q : Part} (h : p ≠ q) {a b : Bytes} (ha : Under p.starts a)
    (hb : Under q.starts b) : a ≠ b := by
  rintro rfl
  obtain ⟨x, hx, hxa⟩ := ha
  obtain ⟨y, hy, hya⟩ := hb
  exact (Part.apart p p.mem_all q q.mem_all h x hx y hy).not_starts hxa hya

/-- Writes to another part leave the schedule as it is.  So nothing has to be known of what a fired
message does with articles, not even that it makes sense. -/
theorem Schedule.Shows.beside {t : Table Task} {s u : KeySpace} (h : Schedule.Shows t s) {p : Part}
    (hp : .schedule ≠ p) (hwrites : KeySpace.Confined p.starts s u) : Schedule.Shows t u := by
  refine h.congr fun key hkey => ?_
  have hschedule : Under Part.schedule.starts key :=
    hkey.mono (by simp [Part.starts, Schedule.starts])
  exact hwrites.get_of_under hschedule (Part.apart .schedule (Part.mem_all _) p p.mem_all hp)

namespace Ledger

/-- From one ledger to the next one exactly the given writes are committed: the store takes them,
and the journal, if there is one, takes one record that holds them and nothing else.  One record for
each task is what makes the task and its message stand or fall together after a crash. -/
structure Committed (l m : Ledger) (writes : Batch) : Prop where
  store : m.store = writes.apply l.store
  recorded : ∃ record, record.Perm writes
    ∧ m.journal = l.journal.map (fun j => (j.append record).2)
    ∧ ∀ j, l.journal = some j → ∃ offset, (j.append record).1 = .ok offset

/-- The journal does not take the record with the given writes, and nothing is committed.  The
journal itself may be another one afterwards, for instance one that takes no more records. -/
structure Refused (l m : Ledger) (writes : Batch) (fault : StorageFault) : Prop where
  store : m.store = l.store
  refused : ∃ j record, l.journal = some j ∧ record.Perm writes
    ∧ (j.append record).1 = .error fault

/-- How a task that is fired at a time goes, if it does not stop the tick, and what is written then.
Its message is answered on a layer on which the task has been taken out already, so a message that
looks for its own task does not find it. -/
inductive Goes (now : Timestamp) (id : TaskId) (task : Task) (s : KeySpace) :
    Firing → Batch → Prop where
  /-- The writes of the message come with the removal of the task and the time. -/
  | well (outcome : Outcome) (writes : Batch)
      (answer : prepareTask now id task.message ((Schedule.removal id task).apply s.cover)
        = .ok (outcome, writes)) :
    Goes now id task s ⟨id, task.runAt, task.message.path, none⟩
      (Schedule.removal id task ++ writes ++ [.set timeKey now.key])
  /-- The writes of the message are dropped, and the failure is reported.  The task is taken out all
  the same: a task that fails once would fail again at every tick. -/
  | wrong (f : Failure)
      (answer : prepareTask now id task.message ((Schedule.removal id task).apply s.cover)
        = .error f)
      (mild : f.isFatal = false) :
    Goes now id task s ⟨id, task.runAt, task.message.path, some f.display⟩
      (Schedule.removal id task ++ [.set timeKey now.key])

/-- What can happen to a task that is fired at a time: what firing it gives, and the ledger
afterwards.  It says nothing about which of the three happens when; that is for the message and the
journal to decide. -/
inductive Fate (now : Timestamp) (id : TaskId) (task : Task) (l : Ledger) :
    Except Failure Firing → Ledger → Prop where
  | committed (firing : Firing) (writes : Batch) (m : Ledger)
      (goes : Goes now id task l.store firing writes) (committed : l.Committed m writes) :
    Fate now id task l (.ok firing) m
  /-- A fatal failure: nothing is committed.  A store that contradicts itself is not written to, and
  the task stays for a tick after the repair. -/
  | stopped (f : Failure) (m : Ledger)
      (answer : prepareTask now id task.message ((Schedule.removal id task).apply l.store.cover)
        = .error f)
      (fatal : f.isFatal = true) (store : m.store = l.store) (journal : m.journal = l.journal) :
    Fate now id task l (.error f) m
  | refused (firing : Firing) (writes : Batch) (fault : StorageFault) (m : Ledger)
      (goes : Goes now id task l.store firing writes) (refused : l.Refused m writes fault) :
    Fate now id task l (.error (.of (.storage fault))) m

/-- What happens to tasks that are fired in a row: the firings, the failure that stops them if there
is one, and the ledger afterwards.  Each task is fired on the ledger that the one before has left,
so what one of them wrote is seen by the next one. -/
inductive Course (now : Timestamp) : Ledger → List (TaskId × Task) → List Firing →
    Option Failure → Ledger → Prop where
  | finished (l : Ledger) : Course now l [] [] none l
  | next {l m n : Ledger} {id : TaskId} {task : Task} {rest : List (TaskId × Task)}
      {firing : Firing} {firings : List Firing} {stop : Option Failure}
      (first : Fate now id task l (.ok firing) m) (others : Course now m rest firings stop n) :
    Course now l ((id, task) :: rest) (firing :: firings) stop n
  | halted {l m : Ledger} {id : TaskId} {task : Task} {f : Failure}
      (rest : List (TaskId × Task)) (first : Fate now id task l (.error f) m) :
    Course now l ((id, task) :: rest) [] (some f) m

/-- What a tick does with the tasks that are due, whatever they ask for and whatever the store holds
otherwise.  It says who comes first, what happens to each one, and exactly which tasks are left. -/
structure Contained (l : Ledger) (now : Timestamp) (due : List (TaskId × Task))
    (firings : List Firing) (stop : Option Failure) : Prop where
  ordered : due.Pairwise Schedule.Before
  mem_due_iff : ∀ id task,
    (id, task) ∈ due ↔ Schedule.task? id l.store = .ok (some task) ∧ task.runAt ≤ now
  course : Course now l (due.take l.maxTasks) firings stop (l.tick now).ledger
  result : (l.tick now).result
    = stop.elim (.ok ⟨now, firings, (l.tick now).ledger.pendingTasks⟩) .error
  fired : firings.map Firing.id <+: (due.take l.maxTasks).map Prod.fst
  wellFormed : Schedule.WellFormed (l.tick now).ledger.store
  live_iff : ∀ id task, Schedule.task? id (l.tick now).ledger.store = .ok (some task)
    ↔ Schedule.task? id l.store = .ok (some task) ∧ id ∉ firings.map Firing.id
  /-- What comes after the tasks that were fired is still scheduled, the task that stopped the tick
  included. -/
  later_live : ∀ x ∈ due.drop firings.length,
    Schedule.task? x.1 (l.tick now).ledger.store = .ok (some x.2)

variable {l m n : Ledger} {now : Timestamp} {id : TaskId} {task : Task} {t : Table Task}
  {writes : Batch} {f : Failure} {firing : Firing}

/-! ### What is written -/

/-- The writes of a message that is fired go to the keys of articles, to each at most once.  It
holds on every store, because it is a property of the handler and not of what the handler finds
there. -/
theorem under_of_prepareTask {message : Message} {s : KeySpace} {outcome : Outcome}
    (h : prepareTask now id message s = .ok (outcome, writes)) :
    (∀ o ∈ writes, Under Part.articles.starts o.key) ∧ (writes.map Op.key).Nodup := by
  unfold prepareTask at h
  obtain ⟨handler, hroute, h⟩ := Except.bind_eq_ok.1 h
  obtain rfl := Routes.eq_firedDeletion hroute
  have hunder := (Handler.touches_fireDeletion ⟨now, .scheduler id⟩ message).under_pending s
  rcases hrun : (Handler.firedDeletion.deliver ⟨now, .scheduler id⟩ message).run s.cover
    with ⟨f | answered, u⟩
  · rw [hrun] at h
    cases h
  · rw [hrun] at h
    cases h
    change (Handler.fireDeletion ⟨now, .scheduler id⟩ message).run s.cover = _ at hrun
    rw [hrun] at hunder
    refine ⟨hunder, (KeySpace.touched_ascending u).imp fun {a b} hlt heq => ?_⟩
    exact List.lt_irrefl b (heq ▸ hlt)

theorem under_taskKey (id : TaskId) : Under Part.schedule.starts (Schedule.taskKey id) :=
  ⟨_, List.mem_cons_self, List.prefix_append _ _⟩

theorem under_queueKey (runAt : Timestamp) (id : TaskId) :
    Under Part.schedule.starts (Schedule.queueKey runAt id) :=
  ⟨_, List.mem_cons_of_mem _ List.mem_cons_self, Schedule.queueStart_le_queueKey runAt id⟩

theorem under_timeKey : Under Part.time.starts timeKey :=
  ⟨_, List.mem_cons_self, List.prefix_rfl⟩

/-- However a task goes, it is taken out, the time is noted, and otherwise keys of articles are
written to.  A task that goes wrong is the case without any own writes, so from here on the two
cases are one. -/
theorem Goes.writes_eq {s : KeySpace} (h : Goes now id task s firing writes) :
    firing.id = id ∧ ∃ own, writes = Schedule.removal id task ++ own ++ [.set timeKey now.key]
      ∧ (∀ o ∈ own, Under Part.articles.starts o.key) ∧ (own.map Op.key).Nodup := by
  cases h with
  | well outcome own answer =>
    obtain ⟨hunder, hdistinct⟩ := under_of_prepareTask answer
    exact ⟨rfl, own, rfl, hunder, hdistinct⟩
  | wrong f answer mild => exact ⟨rfl, [], rfl, List.forall_mem_nil _, .nil⟩

/-- No key is written to twice.  The three groups of writes lie in three parts of the key space, and
within a group the keys differ. -/
theorem Goes.nodup {s : KeySpace} (h : Goes now id task s firing writes) :
    (writes.map Op.key).Nodup := by
  obtain ⟨-, own, rfl, hunder, hdistinct⟩ := h.writes_eq
  have hown : ∀ key ∈ own.map Op.key, Under Part.articles.starts key := by
    intro key hkey
    obtain ⟨o, ho, rfl⟩ := List.mem_map.1 hkey
    exact hunder o ho
  have hremoval : ∀ key ∈ (Schedule.removal id task).map Op.key,
      Under Part.schedule.starts key :=
    List.forall_mem_cons.2 ⟨under_taskKey id, List.forall_mem_singleton.2 (under_queueKey _ id)⟩
  have hkeys : Schedule.taskKey id ≠ Schedule.queueKey task.runAt id :=
    Schedule.taskKey_ne_of_queue (Schedule.queueStart_le_queueKey _ _) id
  rw [List.map_append, List.map_append, List.nodup_append, List.nodup_append]
  refine ⟨⟨?_, hdistinct, fun a ha b hb => ?_⟩, List.pairwise_singleton _ _, fun a ha b hb => ?_⟩
  · refine List.nodup_cons.2 ⟨fun hmem => ?_, List.pairwise_singleton _ _⟩
    exact hkeys (List.mem_singleton.1 hmem)
  · exact Part.ne_of_under (p := .schedule) (q := .articles) nofun (hremoval a ha) (hown b hb)
  · obtain rfl : b = timeKey := List.mem_singleton.1 hb
    rcases List.mem_append.1 ha with ha | ha
    · exact Part.ne_of_under (p := .schedule) (q := .time) nofun (hremoval a ha) under_timeKey
    · exact Part.ne_of_under (p := .articles) (q := .time) nofun (hown a ha) under_timeKey

/-- What remains of the schedule when a task was fired.  Only the removal matters; the other writes
lie beside the schedule, and any store with those writes shows the same tasks. -/
theorem Goes.shows {s : KeySpace} (h : Goes now id task s firing writes)
    (ht : Schedule.Shows t s) (hrow : t.row id.number = some task) :
    Schedule.Shows (t.drop id.number) (writes.apply s) := by
  obtain ⟨-, own, rfl, hunder, -⟩ := h.writes_eq
  rw [Batch.apply_append, Batch.apply_append]
  have hshows := (ht.drop hrow).beside (p := .articles) nofun
    (KeySpace.Confined.apply hunder ((Schedule.removal id task).apply s))
  exact hshows.beside (p := .time) nofun (.set under_timeKey _ _)

/-! ### One task -/

/-- The writes of a layer are committed, unless the journal does not take the record.  It is stated
for the writes and not for the layer, so that `Committed` and `Refused` need not speak of layers. -/
theorem commit_layer (counts : Counters → Counters) (hdistinct : (writes.map Op.key).Nodup) :
    let committed := (l.count counts).commit (writes.apply l.store.cover).pending
    committed.result = .ok () ∧ l.Committed committed.ledger writes
      ∨ ∃ fault, committed.result = .error (.of (.storage fault))
        ∧ l.Refused committed.ledger writes fault := by
  have hperm : (writes.apply l.store.cover).pending.Perm writes :=
    KeySpace.perm_pending_apply (t := l.store.cover) (u := l.store) rfl hdistinct
      fun _ _ => List.not_mem_nil
  have hstore := KeySpace.commit_apply_cover writes l.store
  generalize (writes.apply l.store.cover).pending = record at hperm hstore
  dsimp only
  rcases commit_cases record (l.count counts) with ⟨hj, h⟩ | ⟨j, k, fault, hj, happend, h⟩
    | ⟨j, k, offset, log, hj, happend, h⟩
  · have hnone : l.journal = none := hj
    rw [h]
    refine .inl ⟨rfl, hstore, record, hperm, ?_, fun j hsome => ?_⟩
    · rw [hnone]
      exact hnone
    · cases hnone.symm.trans hsome
  · rw [h]
    exact .inr ⟨fault, rfl, rfl, j, record, hj, hperm, congrArg Prod.fst happend⟩
  · have hsome : l.journal = some j := hj
    rw [h]
    refine .inl ⟨rfl, hstore, record, hperm, ?_, fun i hi => ?_⟩
    · rw [hsome, Option.map_some, happend]
    · cases hsome.symm.trans hi
      exact ⟨offset, congrArg Prod.fst happend⟩

/-- Committing what a task writes is its fate, whether it goes well or wrong.  The counters are the
only difference between the two, and they have no part in it. -/
theorem Goes.fate (h : Goes now id task l.store firing writes) (counts : Counters → Counters) :
    let committed := (l.count counts).commit (writes.apply l.store.cover).pending
    Fate now id task l (committed.result.map fun _ => firing) committed.ledger := by
  dsimp only
  rcases commit_layer (l := l) counts h.nodup with ⟨hresult, hcommitted⟩
    | ⟨fault, hresult, hrefused⟩
  · rw [hresult]
    exact .committed firing writes _ h hcommitted
  · rw [hresult]
    exact .refused firing writes fault _ h hrefused

/-- What happens to a task that is scheduled.  It follows `Ledger.fire` from its first step to its
last one, and it is where the hypothesis on the schedule is used: taking out a task that is queued
does not fail. -/
theorem fate (h : Schedule.Shows t l.store) (hrow : t.row id.number = some task)
    (now : Timestamp) :
    Fate now id task l (l.fire now id task).result (l.fire now id task).ledger := by
  have hcover : Schedule.Shows t l.store.cover := h.congr fun _ _ => rfl
  unfold Ledger.fire
  rw [hcover.run_take hrow]
  dsimp only
  cases hanswer : prepareTask now id task.message
    ((Schedule.removal id task).apply l.store.cover) with
  | ok answered =>
    obtain ⟨outcome, own⟩ := answered
    have hfate := (Goes.well outcome own hanswer).fate
      (Counters.countDelivery outcome ∘ Counters.countFiring)
    rw [Batch.apply_append, Batch.apply_append] at hfate
    exact hfate
  | error f =>
    dsimp only
    by_cases hfatal : f.isFatal = true
    · rw [if_pos hfatal]
      exact .stopped f _ hanswer hfatal rfl rfl
    · have hmild : f.isFatal = false := Bool.eq_false_iff.2 hfatal
      have hfate := (Goes.wrong f hanswer hmild).fate (Counters.countFailure ∘ Counters.countFiring)
      rw [if_neg hfatal]
      exact hfate

/-! ### Tasks in a row -/

namespace Fate

/-- A task that is fired is taken out, and the others stay.  This is the step of the induction over
tasks in a row. -/
theorem shows (h : Fate now id task l (.ok firing) m) (ht : Schedule.Shows t l.store)
    (hrow : t.row id.number = some task) :
    firing.id = id ∧ Schedule.Shows (t.drop id.number) m.store := by
  cases h with
  | committed firing writes m goes committed =>
    rw [committed.store]
    exact ⟨goes.writes_eq.1, goes.shows ht hrow⟩

/-- A task that stops the tick changes nothing, whether its message or the journal has stopped it. -/
theorem store_eq (h : Fate now id task l (.error f) m) : m.store = l.store := by
  cases h with
  | stopped f m answer fatal store journal => exact store
  | refused firing writes fault m goes refused => exact refused.store

end Fate

/-- What happens to scheduled tasks in a row, and which ones are left.  The induction is over the
tasks with the store and its table general, since each task leaves another schedule behind.  The
tasks must be distinct, for otherwise the second one would no longer be queued. -/
theorem course (now : Timestamp) {due : List (TaskId × Task)} (h : Schedule.Shows t l.store)
    (hdue : ∀ x ∈ due, t.row x.1.number = some x.2)
    (hdistinct : due.Pairwise fun x y => x.1 ≠ y.1) :
    ∃ firings stop, Course now l due firings stop (l.fireAll now due).ledger
      ∧ (l.fireAll now due).result = stop.elim (.ok firings) .error
      ∧ firings.map Firing.id <+: due.map Prod.fst
      ∧ Schedule.Shows (t.dropAll ((firings.map Firing.id).map TaskId.number))
        (l.fireAll now due).ledger.store := by
  induction due generalizing l t with
  | nil =>
    exact ⟨[], none, .finished l, rfl, List.nil_prefix, h⟩
  | cons x rest ih =>
    obtain ⟨id, task⟩ := x
    have hrow : t.row id.number = some task := hdue _ List.mem_cons_self
    obtain ⟨hne, hrest⟩ := List.pairwise_cons.1 hdistinct
    have hfirst := fate h hrow now
    -- A task that stops the tick ends the course; otherwise the rest finds the schedule without it.
    cases hfire : (l.fire now id task).result with
    | error f =>
      rw [hfire] at hfirst
      rw [fireAll_cons_error hfire]
      refine ⟨[], some f, .halted rest hfirst, rfl, List.nil_prefix, ?_⟩
      rw [hfirst.store_eq]
      exact h
    | ok firing =>
      rw [hfire] at hfirst
      rw [fireAll_cons_ok hfire]
      obtain ⟨hid, hshows⟩ := hfirst.shows h hrow
      have hothers : ∀ y ∈ rest, (t.drop id.number).row y.1.number = some y.2 := by
        intro y hy
        rw [Table.row_drop, if_neg]
        · exact hdue y (List.mem_cons_of_mem _ hy)
        · intro hnumber
          exact hne y hy (congrArg TaskId.mk hnumber.symm)
      obtain ⟨firings, stop, hcourse, hresult, hprefix, hleft⟩ := ih hshows hothers hrest
      refine ⟨firing :: firings, stop, .next hfirst hcourse, ?_, ?_, ?_⟩
      · dsimp only
        rw [hresult]
        cases stop <;> rfl
      · rw [List.map_cons, List.map_cons, hid]
        exact List.cons_prefix_cons.2 ⟨rfl, hprefix⟩
      · have hdrop : t.dropAll (((firing :: firings).map Firing.id).map TaskId.number)
            = (t.drop id.number).dropAll ((firings.map Firing.id).map TaskId.number) := by
          rw [← hid]
          rfl
        rw [hdrop]
        exact hleft

/-- A listed task that comes after the fired ones is not one of them.  The fired ones are a prefix
of what is listed, and a list of tasks has no repetition. -/
theorem not_mem_fired {p : Task → Prop} {due : List (TaskId × Task)}
    (hlists : Schedule.Lists t p due) {fired : List TaskId} {limit : Nat}
    (hfired : fired <+: (due.take limit).map Prod.fst) {x : TaskId × Task}
    (hx : x ∈ due.drop fired.length) : x.1 ∉ fired := by
  have hfirst : fired = (due.take fired.length).map Prod.fst := by
    have hwhole : fired <+: due.map Prod.fst :=
      hfired.trans ((List.take_prefix _ _).map Prod.fst)
    rw [List.map_take]
    exact List.prefix_iff_eq_take.1 hwhole
  have hdistinct := hlists.distinct
  rw [← List.take_append_drop fired.length due, List.pairwise_append] at hdistinct
  intro hmem
  rw [hfirst] at hmem
  obtain ⟨y, hy, hsame⟩ := List.mem_map.1 hmem
  exact hdistinct.2.2 y hy x hx hsame

/-- Failing tasks are contained, whatever they ask for and whatever the store holds beside a
well-formed schedule.  No hypothesis is made on how the store has come about, and none on the
journal. -/
theorem failures_contained (h : Schedule.WellFormed l.store) (hensure : l.ensureTime now = .ok ()) :
    ∃ due firings stop, l.Contained now due firings stop := by
  obtain ⟨t, ht⟩ := h.shows
  have htime : now.Usable := usable_of_ensureTime hensure
  obtain ⟨due, hlists, hdue⟩ := ht.due htime.not_lt_unset htime.shown
  have htasks : l.dueTasks now = .ok (due.take l.maxTasks) := by
    unfold Ledger.dueTasks
    rw [hensure]
    exact hdue l.maxTasks
  obtain ⟨firings, stop, hcourse, hresult, hfired, hleft⟩ := course now ht
    (fun x hx => ((hlists.mem_iff x.1 x.2).1 (List.mem_of_mem_take hx)).1)
    (hlists.distinct.sublist (List.take_sublist _ _))
  have hledger : (l.tick now).ledger = (l.fireAll now (due.take l.maxTasks)).ledger := by
    unfold Ledger.tick
    rw [htasks]
    dsimp only
    cases (l.fireAll now (due.take l.maxTasks)).result <;> rfl
  -- What is left of the schedule is the table without the fired tasks, and all that is said of
  -- tasks afterwards is read off it.
  have hlive : ∀ id task, Schedule.task? id (l.tick now).ledger.store = .ok (some task)
      ↔ t.row id.number = some task ∧ id ∉ firings.map Firing.id := by
    intro id task
    have hgone : id.number ∈ (firings.map Firing.id).map TaskId.number
        ↔ id ∈ firings.map Firing.id := by
      simp only [List.mem_map, TaskId.number_inj, exists_eq_right]
    rw [hledger, hleft.task?_iff, Table.row_dropAll_eq_some_iff, hgone]
  refine ⟨due, firings, stop, hlists.ordered, fun id task => ?_, ?_, ?_, hfired, ?_,
    fun id task => ?_, fun x hx => ?_⟩
  · rw [ht.task?_iff]
    exact hlists.mem_iff id task
  · rw [hledger]
    exact hcourse
  · rw [hledger]
    unfold Ledger.tick
    rw [htasks]
    dsimp only
    rw [hresult]
    cases stop <;> rfl
  · rw [hledger]
    exact hleft.wellFormed
  · rw [hlive, ht.task?_iff]
  · rw [← List.length_map Firing.id] at hx
    have hrow := ((hlists.mem_iff x.1 x.2).1 (List.mem_of_mem_drop hx)).1
    exact (hlive x.1 x.2).2 ⟨hrow, not_mem_fired hlists hfired hx⟩

/-! ### A damaged store -/

/-- The key of the entry that lists the articles of the first blog that were created at 200.  Its
bytes are damaged below, so a deletion that has to update the entry cannot read it. -/
def damagedEntry : Bytes := Bucket.articles.indexKey "timed_blog" (timedValue ⟨1⟩ ⟨200⟩)

/-- The entry cannot be read, and in the place of the second article there is a user.  The first
kind of damage makes a task fail, and the second one is fatal. -/
def damaged (l : Ledger) : Ledger :=
  { l with
    store := (l.store.set damagedEntry [0]).set (Bucket.articles.recordKey ⟨2⟩)
      (Record.encode (.user ⟨"wanderer", none, ⟨50⟩⟩)) }

/-- The damage does not reach the schedule.  Both damaged keys lie in the part of the articles, and
no more has to be known about them. -/
theorem wellFormed_damaged (h : l.Reachable) : Schedule.WellFormed l.damaged.store := by
  have hentry : Under Part.articles.starts damagedEntry :=
    ⟨Bucket.articles.indexStart "timed_blog", by decide, List.prefix_append _ _⟩
  have hrecord : Under Part.articles.starts (Bucket.articles.recordKey ⟨2⟩) :=
    ⟨Bucket.articles.recordStart, List.mem_cons_self, List.prefix_append _ _⟩
  have hdamage : KeySpace.Confined Part.articles.starts l.store l.damaged.store :=
    (KeySpace.Confined.set hentry _ _).trans (.set hrecord _ _)
  exact (h.shows.stored.schedule.shows.beside (p := .articles) nofun hdamage).wellFormed

/-- Three articles are to be deleted, the third one first, but the store is damaged. -/
def damagedSample : Ledger := portionSample.damaged

/-- The third article is deleted.  The task of the first one fails halfway and is dropped, and the
article stays; the task of the second one fails fatally and stays. -/
theorem failures_contained_sample :
    Schedule.WellFormed damagedSample.store ∧ damagedSample.ensureTime ⟨900⟩ = .ok ()
      ∧ (damagedSample.tick ⟨900⟩).result.map (fun _ => ())
        = fail (.foreignKind "article" .article .user)
      ∧ [3, 1].map (fun n => (damagedSample.tick ⟨900⟩).ledger.store.has
          (Bucket.articles.recordKey ⟨n⟩)) = [false, true]
      ∧ [3, 1, 2].map (fun n => (damagedSample.tick ⟨900⟩).ledger.store.has
          (Schedule.taskKey ⟨n⟩)) = [false, false, true]
      ∧ ∃ due firings stop, damagedSample.Contained ⟨900⟩ due firings stop := by
  have hwellFormed : Schedule.WellFormed damagedSample.store :=
    wellFormed_damaged ⟨volatile, portionCalls, run_of_length rfl (by decide), rfl⟩
  obtain ⟨hensure, hfatal, harticles, htasks⟩ : damagedSample.ensureTime ⟨900⟩ = .ok ()
      ∧ (damagedSample.tick ⟨900⟩).result.map (fun _ => ())
        = fail (.foreignKind "article" .article .user)
      ∧ [3, 1].map (fun n => (damagedSample.tick ⟨900⟩).ledger.store.has
          (Bucket.articles.recordKey ⟨n⟩)) = [false, true]
      ∧ [3, 1, 2].map (fun n => (damagedSample.tick ⟨900⟩).ledger.store.has
          (Schedule.taskKey ⟨n⟩)) = [false, false, true] := by
    decide +kernel
  exact ⟨hwellFormed, hensure, hfatal, harticles, htasks, failures_contained hwellFormed hensure⟩

end Ledger

end BlogLedger
