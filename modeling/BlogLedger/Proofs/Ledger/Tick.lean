import BlogLedger.Proofs.Ledger.Deliver
import BlogLedger.Proofs.Schedule.Due

/-!
# Ticks

A tick fires the tasks that are due one after the other.  Each one takes its article with it and
commits on its own, so a tick that is stopped by the journal leaves behind exactly what the tasks
before did.

The tasks that are due are read once, at the start, while each one is fired on the store that the
one before has left.  That this makes no difference has a simple reason: the messages of scheduled
tasks are deletions of different articles, and so firing one of them leaves the others where they
are.  `Snapshot.afterFiring` says it for a whole list.

## Main Definitions

* `Ledger.firedOf`, `Ledger.fired` — the tasks that are fired before something stops the tick.
* `Snapshot.afterFiring` — a snapshot without some tasks and the articles that they delete.

## Main Results

* `Ledger.Shows.fire_eq`, `Ledger.Shows.fire` — one task.
* `Ledger.Shows.fireAll` — tasks in a row.
* `Ledger.Shows.tick` — a tick.
-/

namespace BlogLedger

/-- The firing of a task that goes through.  On a sound store no other one can be reported, since
the article of every task is there to be deleted. -/
def Firing.success (x : TaskId × Task) : Firing :=
  ⟨x.1, x.2.runAt, x.2.message.path, none⟩

/-- The snapshot after tasks were fired at a time: the tasks are gone together with the articles
that they delete.  It is a fold over the list, so that a portion of a tick and a whole tick are
described in the same way. -/
def Snapshot.afterFiring (σ : Snapshot) (now : Timestamp) (fired : List (TaskId × Task)) :
    Snapshot :=
  { σ with
    articles := { σ.articles with
      row := fun n =>
        if ∃ x ∈ fired, x.2.message = .deleteArticle ⟨n⟩ then none else σ.articles.row n }
    tasks := { σ.tasks with
      row := fun n => if ∃ x ∈ fired, x.1 = ⟨n⟩ then none else σ.tasks.row n }
    time := if fired = [] then σ.time else now }

theorem Snapshot.afterFiring_nil (σ : Snapshot) (now : Timestamp) : σ.afterFiring now [] = σ := by
  simp [afterFiring]

/-- The other tasks are still scheduled when one is taken out, since their numbers differ.  Without
this the second task of a tick might have been cancelled by the first. -/
theorem Snapshot.rows_tasksWithout {σ : Snapshot} {id : TaskId} {others : List (TaskId × Task)}
    (hrows : ∀ x ∈ others, σ.tasks.row x.1.number = some x.2) (hne : ∀ x ∈ others, id ≠ x.1) :
    ∀ x ∈ others, (σ.tasksWithout (some id)).row x.1.number = some x.2 := by
  intro x hx
  refine (Snapshot.row_tasksWithout σ _ _ _).2 ⟨hrows x hx, fun he => ?_⟩
  exact hne x hx (Option.some.inj he)

/-- The first task and its article go first.  It unfolds one step of `Snapshot.afterFiring` in the
form in which one fired task changes the snapshot. -/
theorem Snapshot.afterFiring_cons (σ : Snapshot) (now : Timestamp) {id : TaskId} {task : Task}
    {article : RecordId} (hmessage : task.message = .deleteArticle article)
    (rest : List (TaskId × Task)) :
    σ.afterFiring now ((id, task) :: rest)
      = { σ.without article (some id) with time := now }.afterFiring now rest := by
  have harticle : ∀ n, (∃ x ∈ (id, task) :: rest, x.2.message = .deleteArticle ⟨n⟩)
      ↔ n = article.number ∨ ∃ x ∈ rest, x.2.message = .deleteArticle ⟨n⟩ := by
    intro n
    cases article
    simp [hmessage, eq_comm]
  have htask : ∀ n, (∃ x ∈ (id, task) :: rest, x.1 = ⟨n⟩)
      ↔ n = id.number ∨ ∃ x ∈ rest, x.1 = ⟨n⟩ := by
    intro n
    cases id
    simp [eq_comm]
  unfold afterFiring
  rw [Table.row_without σ.articles harticle, Table.row_without σ.tasks htask,
    if_neg (List.cons_ne_nil _ _)]
  -- The time is the same whether or not another task is fired afterwards.
  show _ = Snapshot.mk _ _ _ _ (if rest = [] then now else now)
  rw [ite_self]
  rfl

namespace Ledger

/-- The tasks of a list that are fired before something stops the tick.  A tick that stops returns
an error and no report, so what it has done before can only be said with this. -/
def firedOf (now : Timestamp) : List (TaskId × Task) → Ledger → List (TaskId × Task)
  | [], _ => []
  | (id, task) :: rest, l =>
    match (l.fire now id task).result with
    | .ok _ => (id, task) :: firedOf now rest (l.fire now id task).ledger
    | .error _ => []

/-- The tasks that a tick fires, also when it is stopped later.  A tick at a refused time fires
none. -/
def fired (now : Timestamp) (l : Ledger) : List (TaskId × Task) :=
  match l.dueTasks now with
  | .ok due => firedOf now due l
  | .error _ => []

variable {l : Ledger} {σ : Snapshot} {now : Timestamp}

/-- What a task does and writes, when its message goes through on a layer of its own.  The layer
lies on the one that has taken the task out, and both are committed together. -/
theorem prepareTask_eq {s u : KeySpace} {id : TaskId} {article : RecordId} {outcome : Outcome}
    (hrun : (Handler.firedDeletion.deliver ⟨now, .scheduler id⟩ (.deleteArticle article)).run
      s.cover = (.ok outcome, u)) :
    prepareTask now id (.deleteArticle article) s = .ok (outcome, u.pending) := by
  unfold prepareTask
  rw [Routes.fired_route]
  simp only [bind, Except.bind, hrun]
  rfl

/-- The message of a scheduled task goes through, so what firing the task comes to is one commit: of
a layer on which the task is taken out and its article is deleted.  Only the journal can still stand
in the way, and it is left open here whether it does. -/
theorem Shows.fire_eq (h : l.Shows σ) (htime : now.Usable) {id : TaskId} {task : Task}
    (hrow : σ.tasks.row id.number = some task) :
    ∃ article s, task.message = .deleteArticle article
      ∧ { σ.without article (some id) with time := now }.Sound
      ∧ { σ.without article (some id) with time := now }.Stored s ∧ s.parent? = some l.store
      ∧ let committed := (l.count fun c =>
          c.countFiring.countDelivery (.on .deleted article)).commit s.pending
        (l.fire now id task).result = committed.result.map (fun _ => Firing.success (id, task))
          ∧ (l.fire now id task).ledger = committed.ledger := by
  obtain ⟨runAt, message⟩ := task
  obtain ⟨article, stored, hmessage, harticle, hwaits⟩ := h.sound.awaited _ _ hrow
  obtain rfl : message = .deleteArticle article := hmessage
  have hassigned : article.isAssigned = true :=
    decide_eq_true (h.sound.articles_numbered _ _ harticle).1
  -- The task is taken out on one layer, and the article on another one above it.
  obtain ⟨s, hrun, hparent, hs⟩ := h.stored.cover.takeTask hrow
  obtain ⟨u, hrun', hparent', hu⟩ :=
    Handler.fireDeletion_yields now hs.cover hassigned harticle hwaits
  have hsound : { σ.without article (some id) with time := now }.Sound := by
    have hwithout := h.sound.without harticle
    rw [hwaits] at hwithout
    exact hwithout.withTime now
  refine ⟨article, writeTime now (Batch.apply u.pending s), rfl, hsound, ?_, ?_, ?_⟩
  · exact (hu.congr (KeySpace.get_apply_pending hparent')).writeTime htime.ne_unset
  · exact (KeySpace.parent?_set _ _ _).trans ((KeySpace.parent?_apply _ s).trans hparent)
  · unfold Ledger.fire
    rw [hrun]
    dsimp only
    rw [prepareTask_eq hrun']
    exact ⟨rfl, rfl⟩

/-- A scheduled task is fired and takes its article with it, unless the journal refuses the record;
then nothing happens to the store.  Both cases are needed, since a tick goes on after the first and
stops at the second. -/
theorem Shows.fire (h : l.Shows σ) (htime : now.Usable) {id : TaskId} {task : Task}
    (hrow : σ.tasks.row id.number = some task) :
    ((l.fire now id task).result = .ok (Firing.success (id, task))
      ∧ ∃ article, task.message = .deleteArticle article
        ∧ (l.fire now id task).ledger.Shows { σ.without article (some id) with time := now })
    ∨ ((∃ fault, (l.fire now id task).result = .error (.of (.storage fault)))
      ∧ (l.fire now id task).ledger.store = l.store) := by
  obtain ⟨article, s, hmessage, hsound, hs, hparent, hresult, hledger⟩ := h.fire_eq htime hrow
  rw [hresult, hledger]
  generalize hcounted : l.count _ = counted
  have hstore : counted.store = l.store := by rw [← hcounted]; rfl
  rw [← hstore] at hparent
  cases hcommit : (counted.commit s.pending).result with
  | ok _ =>
    exact .inl ⟨rfl, article, hmessage, (h.of_store_eq hstore).commit hparent hs hsound hcommit⟩
  | error f =>
    obtain ⟨⟨fault, rfl⟩, hsame⟩ := commit_error hcommit
    exact .inr ⟨⟨fault, rfl⟩, hsame.trans hstore⟩

/-! ### Tasks in a row -/

section Cons

variable {id : TaskId} {task : Task} {rest : List (TaskId × Task)}

theorem fireAll_cons_ok {firing : Firing} (hok : (l.fire now id task).result = .ok firing) :
    l.fireAll now ((id, task) :: rest)
      = let others := (l.fire now id task).ledger.fireAll now rest
        ⟨others.result.map (firing :: ·), others.ledger,
          (l.fire now id task).log ++ others.log⟩ := by
  simp only [Ledger.fireAll, hok]

theorem fireAll_cons_error {f : Failure} (herror : (l.fire now id task).result = .error f) :
    l.fireAll now ((id, task) :: rest)
      = ⟨.error f, (l.fire now id task).ledger, (l.fire now id task).log⟩ := by
  simp only [Ledger.fireAll, herror]

theorem firedOf_cons_ok {firing : Firing} (hok : (l.fire now id task).result = .ok firing) :
    l.firedOf now ((id, task) :: rest)
      = (id, task) :: (l.fire now id task).ledger.firedOf now rest := by
  simp only [firedOf, hok]

theorem firedOf_cons_error {f : Failure} (herror : (l.fire now id task).result = .error f) :
    l.firedOf now ((id, task) :: rest) = [] := by
  simp only [firedOf, herror]

end Cons

/-- Tasks in a row are fired up to the first one that the journal refuses.  The induction is on the
list, and what carries it is that the tasks which are left are still scheduled after each one. -/
theorem Shows.fireAll (htime : now.Usable) {due : List (TaskId × Task)} (h : l.Shows σ)
    (hdue : ∀ x ∈ due, σ.tasks.row x.1.number = some x.2)
    (hdistinct : due.Pairwise fun x y => x.1 ≠ y.1) :
    (l.fireAll now due).ledger.Shows (σ.afterFiring now (l.firedOf now due))
      ∧ l.firedOf now due <+: due
      ∧ ((l.fireAll now due).result = .ok (due.map Firing.success) ∧ l.firedOf now due = due
        ∨ ∃ fault, (l.fireAll now due).result = .error (.of (.storage fault))) := by
  induction due generalizing l σ with
  | nil =>
    refine ⟨?_, List.prefix_rfl, .inl ⟨rfl, rfl⟩⟩
    show l.Shows (σ.afterFiring now [])
    rw [Snapshot.afterFiring_nil]
    exact h
  | cons x rest ih =>
    obtain ⟨id, task⟩ := x
    have hrow : σ.tasks.row id.number = some task := hdue _ List.mem_cons_self
    obtain ⟨hne, hrest⟩ := List.pairwise_cons.1 hdistinct
    rcases h.fire htime hrow with ⟨hok, article, hmessage, hshows⟩ | ⟨⟨fault, herror⟩, hstore⟩
    · have hothers := Snapshot.rows_tasksWithout (fun y hy => hdue y (List.mem_cons_of_mem _ hy)) hne
      obtain ⟨hlast, hfront, hresult⟩ := ih hshows hothers hrest
      rw [fireAll_cons_ok hok, firedOf_cons_ok hok, Snapshot.afterFiring_cons σ now hmessage]
      refine ⟨hlast, List.cons_prefix_cons.2 ⟨rfl, hfront⟩, ?_⟩
      dsimp only
      rcases hresult with ⟨hall, heq⟩ | ⟨fault, hfault⟩
      · rw [hall, heq]
        exact .inl ⟨rfl, rfl⟩
      · rw [hfault]
        exact .inr ⟨fault, rfl⟩
    · rw [fireAll_cons_error herror, firedOf_cons_error herror, Snapshot.afterFiring_nil]
      exact ⟨h.of_store_eq hstore, List.nil_prefix, .inr ⟨fault, rfl⟩⟩

/-! ### Ticks -/

/-- A refused time stops a tick before anything happens. -/
theorem tick_error {f : Failure} (hensure : l.ensureTime now = .error f) :
    l.tick now = ⟨.error f, l, []⟩ ∧ l.fired now = [] := by
  have hdue : l.dueTasks now = .error f := by
    unfold dueTasks
    rw [hensure]
    rfl
  unfold Ledger.tick fired
  rw [hdue]
  exact ⟨rfl, rfl⟩

/-- A tick at a time that is not refused finds the tasks that are due, as many as it may fire; they
are scheduled and differ in their numbers.  These are the conditions under which tasks can be fired
in a row. -/
theorem Shows.dueTasks_eq (h : l.Shows σ) (hensure : l.ensureTime now = .ok ()) :
    ∃ due, Schedule.Lists σ.tasks (fun task => task.runAt ≤ now) due
      ∧ l.dueTasks now = .ok (due.take l.maxTasks)
      ∧ (∀ x ∈ due.take l.maxTasks, σ.tasks.row x.1.number = some x.2)
      ∧ (due.take l.maxTasks).Pairwise fun x y => x.1 ≠ y.1 := by
  have htime : now.Usable := usable_of_ensureTime hensure
  obtain ⟨due, hlists, hdue⟩ := h.stored.schedule.due htime.not_lt_unset htime.shown
  refine ⟨due, hlists, ?_, fun x hx => ?_, hlists.distinct.sublist (List.take_sublist _ _)⟩
  · unfold Ledger.dueTasks
    rw [hensure]
    exact hdue l.maxTasks
  · exact ((hlists.mem_iff x.1 x.2).1 (List.mem_of_mem_take hx)).1

/-- What a tick finds due, and what it leaves behind.  It is the full account of a tick, and the two
results after it are the parts of it that runs use. -/
theorem Shows.tick_due (h : l.Shows σ) (hensure : l.ensureTime now = .ok ()) :
    ∃ due, Schedule.Lists σ.tasks (fun task => task.runAt ≤ now) due
      ∧ l.fired now <+: due.take l.maxTasks
      ∧ (l.tick now).ledger.Shows (σ.afterFiring now (l.fired now))
      ∧ ((l.tick now).result = .ok ⟨now, (due.take l.maxTasks).map Firing.success,
            (l.tick now).ledger.pendingTasks⟩ ∧ l.fired now = due.take l.maxTasks
        ∨ ∃ fault, (l.tick now).result = .error (.of (.storage fault))) := by
  obtain ⟨due, hlists, htasks, hrows, hdistinct⟩ := h.dueTasks_eq hensure
  obtain ⟨hshows, hfront, hresult⟩ := h.fireAll (usable_of_ensureTime hensure) hrows hdistinct
  refine ⟨due, hlists, ?_⟩
  unfold Ledger.tick fired
  rw [htasks]
  dsimp only
  refine ⟨hfront, ?_⟩
  rcases hresult with ⟨hok, hall⟩ | ⟨fault, herror⟩
  · rw [hok]
    exact ⟨hshows, .inl ⟨rfl, hall⟩⟩
  · rw [herror]
    exact ⟨hshows, .inr ⟨fault, rfl⟩⟩

/-- Only scheduled tasks whose time has come are fired.  This is how it is known of any fired task
that it was put there by a transaction. -/
theorem Shows.mem_fired (h : l.Shows σ) {x : TaskId × Task} (hx : x ∈ l.fired now) :
    σ.tasks.row x.1.number = some x.2 ∧ x.2.runAt ≤ now := by
  cases hensure : l.ensureTime now with
  | error f =>
    rw [(tick_error hensure).2] at hx
    cases hx
  | ok _ =>
    obtain ⟨due, hlists, hfront, -, -⟩ := h.tick_due hensure
    exact (hlists.mem_iff x.1 x.2).1 (List.mem_of_mem_take (hfront.subset hx))

/-- After a tick the store holds the snapshot without what was fired, whether the tick went through,
was stopped by the journal or was refused. -/
theorem Shows.tick (h : l.Shows σ) (now : Timestamp) :
    (l.tick now).ledger.Shows (σ.afterFiring now (l.fired now)) := by
  cases hensure : l.ensureTime now with
  | error f =>
    obtain ⟨htick, hfired⟩ := tick_error hensure
    rw [htick, hfired, Snapshot.afterFiring_nil]
    exact h
  | ok _ =>
    obtain ⟨due, -, -, hshows, -⟩ := h.tick_due hensure
    exact hshows

end Ledger

end BlogLedger
