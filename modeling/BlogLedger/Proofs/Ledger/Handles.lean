import BlogLedger.Proofs.Ledger.Authority
import BlogLedger.Proofs.Schedule.Handles

/-!
# Handles over a run

The handle of a task is reported when the task is scheduled, and once more at most: when the task is
cancelled or fired.  Between the two the task is live.

A handle is a number out of one sequence, so handles are given out in order and never twice.  That
each one is used up at most once needs an invariant that links the answers that calls have given to
the tasks that are stored: a task is live exactly when its handle was given out and not yet used up.
It is called an account of the handles, and it is carried through the run from one effect to the
next.

What happens after a cancellation is an induction of its own.  It is over the rest of the run and
not over the whole, as it starts at the call that cancels.

## Main Definitions

* `Ledger.scheduledBy`, `Ledger.consumedBy` — the handles that a call gives out and uses up.
* `Ledger.Schedules` — a task is scheduled for the deletion of a new article.
* `Ledger.Keeps` — an article stays until its owner deletes it.
* `Ledger.Handled` — what is true of the handles of a run.

## Main Results

* `Ledger.Run.accounts` — the handles of a run account for the tasks that it leads to.
* `Ledger.Run.keeps` — an article that waits for no deletion stays until its owner deletes it.
* `Ledger.handles_consumed_once` — the handles of every run are as they should be.
-/

namespace BlogLedger.Ledger

open Schedule (Accounts)

/-- The handle that a call gives out, if it schedules a task.  It is taken from the answer to the
call and not from the store, as it is what a client gets to see. -/
def scheduledBy (l : Ledger) : Call → List TaskId
  | .deliver tx => ((l.deliver tx).result.toOption.bind Outcome.scheduled).toList
  | .check _ | .tick .. => []

/-- The handles that a call uses up: a transaction cancels a task, and a tick fires tasks.  A tick
that the journal stops uses up those that it has committed. -/
def consumedBy (l : Ledger) : Call → List TaskId
  | .deliver tx => ((l.deliver tx).result.toOption.bind Outcome.cancelled).toList
  | .tick now limit => ((l.limited limit).fired now).map Prod.fst
  | .check _ => []

/-- A call creates an article and reports the handle of the task that deletes it at a deadline.
Nothing else schedules a task. -/
def Schedules (l : Ledger) (handle : TaskId) (deadline : Timestamp) (id : RecordId) (c : Call) :
    Prop :=
  ∃ signer blog title content outcome,
    l.Accepts signer (.createArticle blog title content deadline) outcome c
      ∧ outcome.id = some id ∧ outcome.scheduled = some handle

/-- An article stays as it is until its owner deletes it, and no tick touches it.  The two are
separate fields, since after its owner has deleted the article the first one says nothing more, and
the second one still says that ticks leave its number alone. -/
structure Keeps (l : Ledger) (id : RecordId) (article : Article) (later : List Call) : Prop where
  here : Articles.get id l.store = .ok (some article)
  stays : ∀ calls, calls <+: later → Articles.get id (l.after calls).store = .ok (some article)
    ∨ ∃ l' c outcome, l.Made calls l' c ∧ l'.Accepts article.owner (.deleteArticle id) outcome c
  untouched : ∀ l' now limit, l.Made later l' (.tick now limit) →
    Articles.get id (Call.run l' (.tick now limit)).store = Articles.get id l'.store

/-- Handles are given out in order and used up at most once, each at its time.  The statement is
about the calls of a run and their answers, and it speaks of the store only where a task is said to
be live. -/
structure Handled (start : Ledger) (calls : List Call) : Prop where
  ascending : (start.gathered scheduledBy calls).Pairwise fun x y => x.number < y.number
  once : (start.gathered consumedBy calls).Nodup
  scheduled_of_consumed : ∀ handle ∈ start.gathered consumedBy calls,
    handle ∈ start.gathered scheduledBy calls
  /-- At every point of the run a task is live exactly when its handle was given out before and was
  not used up before.  The points are the prefixes of the run, so a handle cannot be used up before
  it is given out. -/
  live_iff : ∀ before, before <+: calls → ∀ handle,
    (∃ task, Schedule.task? handle (start.after before).store = .ok (some task))
      ↔ handle ∈ start.gathered scheduledBy before ∧ handle ∉ start.gathered consumedBy before
  /-- A task that is fired is live, and its time, which was set when it was scheduled, has come.
  The call that scheduled it is named, so the deadline is the one that was asked for there. -/
  fired_due : ∀ before now limit handle task, before ++ [.tick now limit] <+: calls →
    (handle, task) ∈ ((start.after before).limited limit).fired now →
      Schedule.task? handle (start.after before).store = .ok (some task) ∧ task.runAt ≤ now
        ∧ ∃ l c id, start.Made before l c ∧ l.Schedules handle task.runAt id c
          ∧ task.message = .deleteArticle id
  /-- A tick that is not stopped by the journal reports what it fires.  What is fired is defined by
  the commits of a tick, and it is the report that a caller sees. -/
  reported : ∀ l now limit report, start.Made calls l (.tick now limit) →
    ((l.limited limit).tick now).result = .ok report →
      report.fired = ((l.limited limit).fired now).map Firing.success
  /-- An article whose deletion is cancelled stays until its owner deletes it.  In particular the
  deadline that is cancelled never comes to effect, however late a tick is. -/
  cancelled_keeps : ∀ before tx id outcome later, calls = before ++ .deliver tx :: later →
    tx.message = .cancelDeletion id → ((start.after before).deliver tx).result = .ok outcome →
      ∃ article, (start.after (before ++ [.deliver tx])).Keeps id article later

variable {start l : Ledger} {calls : List Call} {c : Call} {σ τ : Snapshot} {n : UInt64}
variable {tx : Transaction} {outcome : Outcome} {now : Timestamp} {limit : Nat}

/-! ### Calls in a row -/

/-- A call that is made later is made in the whole run.  It lets facts about the rest of a run be
used where the whole run is known. -/
theorem Made.append {later : List Call} (h : (start.after calls).Made later l c) :
    start.Made (calls ++ later) l c := by
  obtain ⟨before, hfront, rfl⟩ := h
  refine ⟨calls ++ before, ?_, (after_append _ _ _).symm⟩
  rw [List.append_assoc]
  exact (List.prefix_append_right_inj calls).2 hfront

/-! ### Handles that a call gives out and uses up -/

theorem scheduledBy_deliver (result : (l.deliver tx).result = .ok outcome) :
    l.scheduledBy (.deliver tx) = outcome.scheduled.toList := by
  rw [scheduledBy, result]
  rfl

theorem consumedBy_deliver (result : (l.deliver tx).result = .ok outcome) :
    l.consumedBy (.deliver tx) = outcome.cancelled.toList := by
  rw [consumedBy, result]
  rfl

/-- A transaction that is refused gives nothing out and uses nothing up.  Its sequence is as it was,
so the next one gets the handle that this one would have got. -/
theorem handles_of_refused {f : Failure} (result : (l.deliver tx).result = .error f) :
    l.scheduledBy (.deliver tx) = [] ∧ l.consumedBy (.deliver tx) = [] := by
  rw [scheduledBy, consumedBy, result]
  exact ⟨rfl, rfl⟩

/-- A tick never fires a task twice.  The tasks that are due are read once, and the list of them has
no repetition. -/
theorem Shows.nodup_fired (h : l.Shows σ) : ((l.fired now).map Prod.fst).Nodup := by
  cases hensure : l.ensureTime now with
  | error f =>
    rw [(tick_error hensure).2]
    exact .nil
  | ok _ =>
    obtain ⟨due, hlists, hfront, -, -⟩ := h.tick_due hensure
    have hsub : (l.fired now).Sublist due := hfront.sublist.trans (List.take_sublist _ _)
    exact List.pairwise_map.2 (hlists.distinct.sublist hsub)

section Accounts

variable {given used : List TaskId}

/-- An article gives up its task, and the handle is used up.  Deletions and cancellations do the
same to the tasks, and share this step; an article without a task uses up nothing. -/
theorem accounts_without (h : Accounts σ.tasks given used) (hσ : σ.Sound) {article : Article}
    (hrow : σ.articles.row n = some article) :
    Accounts (σ.tasksWithout article.deletion) given (used ++ article.deletion.toList) := by
  refine h.use (Option.toList_nodup _) ?_ ?_ (Snapshot.last_tasksWithout _ _)
  · intro handle hhandle
    obtain ⟨deadline, -, htask⟩ := hσ.scheduled _ _ _ hrow (Option.mem_toList.1 hhandle)
    exact ⟨_, htask⟩
  · intro handle task
    rw [Snapshot.row_tasksWithout, Option.mem_toList]

/-- Tasks are fired, and their handles are used up, all at once.  It is about what the tick has
fired in the end, and so it covers ticks that are stopped halfway. -/
theorem accounts_afterFiring (h : Accounts σ.tasks given used) (hl : l.Shows σ) (now : Timestamp) :
    Accounts (σ.afterFiring now (l.fired now)).tasks given
      (used ++ (l.fired now).map Prod.fst) := by
  refine h.use hl.nodup_fired ?_ ?_ rfl
  · intro handle hhandle
    obtain ⟨x, hx, rfl⟩ := List.mem_map.1 hhandle
    exact ⟨_, (hl.mem_fired hx).1⟩
  · intro handle task
    rw [List.mem_map]
    dsimp only [Snapshot.afterFiring]
    split
    · next hfired => exact iff_of_false nofun fun hleft => hleft.2 hfired
    · next hleft => rw [and_iff_left hleft]

/-- The handles of a run account for the tasks, and so do those of the run and one more call.  This
is the step of the induction, and the only place where the kinds of calls are told apart. -/
theorem Effect.accounts (h : Effect l σ c τ) (hl : l.Shows σ) (hold : Accounts σ.tasks given used) :
    Accounts τ.tasks (given ++ l.scheduledBy c) (used ++ l.consumedBy c) := by
  cases h with
  | check =>
    show Accounts σ.tasks (given ++ []) (used ++ [])
    rwa [List.append_nil, List.append_nil]
  | refused tx f result =>
    obtain ⟨hgiven, hused⟩ := handles_of_refused result
    rwa [hgiven, hused, List.append_nil, List.append_nil]
  | tick now limit usable =>
    show Accounts _ (given ++ []) _
    rw [List.append_nil]
    have hlimited : (l.limited limit).Shows σ := hl.of_store_eq rfl
    exact accounts_afterFiring hold hlimited now
  | accepted tx outcome τ result usable spare change =>
    rw [scheduledBy_deliver result, consumedBy_deliver result]
    show Accounts τ.tasks _ _
    obtain ⟨time, signer, message⟩ := tx
    -- One kind of message gives a handle out, and two use one up if there is one.
    cases change with
    | createUser | createBlog | changeBlogOwner | createArticle =>
      show Accounts σ.tasks (given ++ []) (used ++ [])
      rwa [List.append_nil, List.append_nil]
    | scheduleArticle id title content deleteAt blog valid row signed set later =>
      show Accounts _ _ (used ++ [])
      rw [List.append_nil]
      exact hold.give (spare .tasks set) _
    | deleteArticle id article valid row signed =>
      show Accounts _ (given ++ []) _
      rw [List.append_nil]
      exact accounts_without hold hl.sound row
    | cancelDeletion id article task valid row signed waiting =>
      have hwithout := accounts_without hold hl.sound row
      rw [waiting] at hwithout
      show Accounts _ (given ++ []) _
      rw [List.append_nil]
      exact hwithout

end Accounts

/-- The handles of a run account for the tasks that it leads to.  At the start there are neither
handles nor tasks. -/
theorem Run.accounts (h : start.Run calls) :
    Accounts (start.after calls).snapshot.tasks (start.gathered scheduledBy calls)
      (start.gathered consumedBy calls) := by
  have hinvariant := h.induct
    (motive := fun calls l σ => l = start.after calls ∧ Accounts σ.tasks
      (start.gathered scheduledBy calls) (start.gathered consumedBy calls))
    ⟨rfl, .empty⟩ ?_
  · exact hinvariant.1.2
  · rintro calls l σ c τ ⟨rfl, hold⟩ hl heffect
    rw [gathered_concat, gathered_concat]
    exact ⟨(after_concat calls c start).symm, heffect.accounts hl hold⟩

/-! ### Where tasks come from -/

/-- A task was scheduled before, or it is scheduled now for the deadline that is asked for.  No call
changes a task: its time and its message stay as they are from the first moment to the last one. -/
theorem Effect.task_origin (h : Effect l σ c τ) {task : Task} (hrow : τ.tasks.row n = some task) :
    σ.tasks.row n = some task
      ∨ ∃ id, l.Schedules ⟨n⟩ task.runAt id c ∧ task.message = .deleteArticle id := by
  cases h with
  | check | refused => exact .inl hrow
  | tick now limit usable =>
    dsimp only [Snapshot.afterFiring] at hrow
    split at hrow
    · cases hrow
    · exact .inl hrow
  | accepted tx outcome τ result usable spare change =>
    change τ.tasks.row n = some task at hrow
    obtain ⟨time, signer, message⟩ := tx
    cases change with
    | createUser | createBlog | changeBlogOwner | createArticle => exact .inl hrow
    | scheduleArticle id title content deleteAt blog valid row signed set later =>
      rcases Table.row_add_eq_some hrow with ⟨rfl, rfl⟩ | hold
      · exact .inr ⟨_, ⟨blog.owner, id, title, content, _, accepts_of_signed result signed, rfl,
          rfl⟩, rfl⟩
      · exact .inl hold
    | deleteArticle id article valid row signed =>
      exact .inl ((Snapshot.row_tasksWithout _ _ _ _).1 hrow).1
    | cancelDeletion id article handle valid row signed waiting =>
      exact .inl ((Snapshot.row_tasksWithout _ (some handle) _ _).1 hrow).1

/-- Every live task was scheduled in the run for its deadline.  The run starts without tasks, so
going back one call after the other must end at the call that scheduled it. -/
theorem Run.exists_schedules (h : start.Run calls) {task : Task}
    (hrow : (start.after calls).snapshot.tasks.row n = some task) :
    ∃ l c id, start.Made calls l c ∧ l.Schedules ⟨n⟩ task.runAt id c
      ∧ task.message = .deleteArticle id := by
  have hinvariant := h.induct
    (motive := fun calls l σ => l = start.after calls
      ∧ ∀ n task, σ.tasks.row n = some task → ∃ l c id, start.Made calls l c
        ∧ l.Schedules ⟨n⟩ task.runAt id c ∧ task.message = .deleteArticle id)
    ⟨rfl, nofun⟩ ?_
  · exact hinvariant.1.2 n task hrow
  · rintro calls l σ c τ ⟨rfl, hknown⟩ - heffect
    refine ⟨(after_concat calls c start).symm, fun n task hrow => ?_⟩
    rcases heffect.task_origin hrow with hold | ⟨id, hschedules, hmessage⟩
    · obtain ⟨l', d, id, hmade, hschedules, hmessage⟩ := hknown n task hold
      exact ⟨l', d, id, made_concat.2 (.inl hmade), hschedules, hmessage⟩
    · exact ⟨_, c, id, made_concat.2 (.inr ⟨rfl, rfl⟩), hschedules, hmessage⟩

/-! ### Articles that wait for no deletion -/

/-- A tick does not touch a number whose article waits for no deletion, or that has no article.  A
tick deletes only articles that name the task that is fired. -/
theorem Effect.row_of_tick (h : Effect l σ (.tick now limit) τ) (hl : l.Shows σ)
    (hfree : ∀ article, σ.articles.row n = some article → article.deletion = none) :
    τ.articles.row n = σ.articles.row n := by
  cases h with
  | tick _ _ usable =>
    dsimp only [Snapshot.afterFiring]
    split
    · next hfired =>
      obtain ⟨x, hx, hmessage⟩ := hfired
      have hlimited : (l.limited limit).Shows σ := hl.of_store_eq rfl
      obtain ⟨id, article, hother, hrow, hnamed⟩ :=
        hl.sound.awaited _ _ (hlimited.mem_fired hx).1
      cases hmessage.symm.trans hother
      cases (hfree article hrow).symm.trans hnamed
    · rfl

/-- A number that was given out before, and has no article, is not given out again.  The number is
known to be small, and new ones are greater than all before. -/
theorem Effect.row_of_gone (h : Effect l σ c τ) (hl : l.Shows σ) (hgone : σ.articles.row n = none)
    (hle : n ≤ σ.articles.last) : τ.articles.row n = none := by
  cases hfound : τ.articles.row n with
  | none => rfl
  | some other =>
    rcases h.article_origin hl hfound with ⟨old, hold, -⟩ | ⟨hnew, -⟩
    · cases hgone.symm.trans hold
    · exact absurd hle (UInt64.not_le.2 hnew)

/-- An article that waits for no deletion stays until its owner deletes it, and its number is never
given out again.  The two belong in one induction: without the second part, a later article with the
number could be taken for the first one. -/
theorem Run.row_of_free {later : List Call} (h : start.Run (calls ++ later)) {article : Article}
    (hrow : (start.after calls).snapshot.articles.row n = some article)
    (hfree : article.deletion = none) :
    (start.after (calls ++ later)).snapshot.articles.row n = some article
      ∨ (start.after (calls ++ later)).snapshot.articles.row n = none
        ∧ n ≤ (start.after (calls ++ later)).snapshot.articles.last
        ∧ ∃ l c outcome, (start.after calls).Made later l c
          ∧ l.Accepts article.owner (.deleteArticle ⟨n⟩) outcome c := by
  -- The induction goes along the rest of the run: the next call finds the article as it was, or
  -- finds its number without a row.
  induction later using List.reverseRecOn with
  | nil =>
    rw [List.append_nil]
    exact .inl hrow
  | append_singleton later c ih =>
    rw [← List.append_assoc] at h ⊢
    have hmade : start.Made (calls ++ later ++ [c]) (start.after (calls ++ later)) c :=
      made_concat.2 (.inr ⟨rfl, rfl⟩)
    have hlater : (start.after calls).Made (later ++ [c]) (start.after (calls ++ later)) c :=
      made_concat.2 (.inr ⟨after_append _ _ _, rfl⟩)
    obtain ⟨hl, heffect, -⟩ := h.effect hmade
    have hlast := heffect.last_le .articles
    rw [after_concat]
    rcases ih (h.of_prefix (List.prefix_append _ _)) with hkept | ⟨hgone, hle, l, d, outcome,
      hdeleted, haccepted⟩
    · -- The fate of the article is settled by the last call.
      have hfate := heffect.article hl hkept
      generalize hfound : (c.run (start.after (calls ++ later))).snapshot.articles.row n = found
        at hfate
      cases hfate with
      | kept => exact .inl rfl
      | spared outcome accepted =>
        left
        cases article
        cases hfree
        rfl
      | deleted outcome accepted =>
        have hle := (hl.sound.articles_numbered _ _ hkept).2
        exact .inr ⟨rfl, UInt64.le_trans hle hlast, _, c, outcome, hlater, accepted⟩
      | expired passed =>
        cases passed with
        | tick now limit handle deadline named due passed fired => cases hfree.symm.trans named
    · exact .inr ⟨heffect.row_of_gone hl hgone hle, UInt64.le_trans hle hlast, l, d, outcome,
        made_concat.2 (.inl hdeleted), haccepted⟩

/-- An article that waits for no deletion stays until its owner deletes it.  It is the induction
above, read at every point of the rest of the run and at every tick of it. -/
theorem Run.keeps {later : List Call} (h : start.Run (calls ++ later)) {article : Article}
    (hrow : (start.after calls).snapshot.articles.row n = some article)
    (hfree : article.deletion = none) : (start.after calls).Keeps ⟨n⟩ article later where
  here := (h.of_prefix (List.prefix_append _ _)).shows.get_article_iff.2 hrow
  stays := by
    intro middle hfront
    have hrun : start.Run (calls ++ middle) :=
      h.of_prefix ((List.prefix_append_right_inj calls).2 hfront)
    rw [← after_append]
    rcases hrun.row_of_free hrow hfree with hkept | ⟨-, -, hdeleted⟩
    · exact .inl (hrun.shows.get_article_iff.2 hkept)
    · exact .inr hdeleted
  untouched := by
    intro l now limit hmade
    obtain ⟨hl, heffect, hτ⟩ := h.effect hmade.append
    obtain ⟨middle, hfront, rfl⟩ := hmade
    rw [hl.stored.getArticle, hτ.stored.getArticle]
    refine congrArg Except.ok (heffect.row_of_tick hl fun other hother => ?_)
    have hrun : start.Run (calls ++ middle) :=
      h.of_prefix ((List.prefix_append_right_inj calls).2 ((List.prefix_append _ _).trans hfront))
    rw [← after_append] at hother
    rcases hrun.row_of_free hrow hfree with hkept | ⟨hgone, -⟩
    · cases hkept.symm.trans hother
      exact hfree
    · cases hgone.symm.trans hother

/-- An article whose deletion is cancelled is stored and waits for no deletion.  It is where the
rest of the run starts. -/
theorem Effect.row_of_cancelled {id : RecordId} (h : Effect l σ (.deliver tx) τ)
    (hmessage : tx.message = .cancelDeletion id) (hresult : (l.deliver tx).result = .ok outcome) :
    ∃ article, τ.articles.row id.number = some article ∧ article.deletion = none := by
  cases h with
  | refused _ f result => cases hresult.symm.trans result
  | accepted _ outcome' τ result usable spare change =>
    show ∃ article, τ.articles.row id.number = some article ∧ _
    obtain ⟨time, signer, message⟩ := tx
    obtain rfl : message = .cancelDeletion id := hmessage
    cases change with
    | cancelDeletion id article task valid row signed waiting =>
      refine ⟨{ article with deletion := none }, ?_, rfl⟩
      rw [Table.row_put, if_pos rfl]

/-! ### Runs -/

/-- A tick that is not stopped reports what it fires.  It holds of a ledger by itself, and runs have
no part in it. -/
theorem Shows.fired_of_report (h : l.Shows σ) {report : TickReport}
    (hreport : (l.tick now).result = .ok report) :
    report.fired = (l.fired now).map Firing.success := by
  cases hensure : l.ensureTime now with
  | error f =>
    rw [(tick_error hensure).1] at hreport
    cases hreport
  | ok _ =>
    obtain ⟨due, -, -, -, ⟨hok, hfired⟩ | ⟨fault, herror⟩⟩ := h.tick_due hensure
    · cases hok.symm.trans hreport
      rw [hfired]
    · cases herror.symm.trans hreport

/-- Every handle of a run is used up at most once, at its time, and a cancelled deletion never comes
back.  The fields come from the account of the handles, from the origin of tasks and from what
becomes of an article that waits for nothing. -/
theorem handles_consumed_once (h : start.Run calls) : start.Handled calls where
  ascending := h.accounts.ascending
  once := h.accounts.once
  scheduled_of_consumed := h.accounts.given_of_used
  live_iff := by
    intro before hfront handle
    have hrun := h.of_prefix hfront
    simp only [hrun.shows.task?_iff]
    exact hrun.accounts.live_iff handle
  fired_due := by
    intro before now limit handle task hfront hfired
    have hrun := h.of_prefix ((List.prefix_append _ _).trans hfront)
    have hlimited : ((start.after before).limited limit).Shows (start.after before).snapshot :=
      hrun.shows.of_store_eq rfl
    obtain ⟨hrow, hdue⟩ := hlimited.mem_fired hfired
    exact ⟨hrun.shows.task?_iff.2 hrow, hdue, hrun.exists_schedules hrow⟩
  reported := by
    intro l now limit report hmade hreport
    obtain ⟨hl, -, -⟩ := h.effect hmade
    have hlimited : (l.limited limit).Shows l.snapshot := hl.of_store_eq rfl
    exact hlimited.fired_of_report hreport
  cancelled_keeps := by
    rintro before tx id outcome later rfl hmessage hresult
    rw [List.append_cons] at h
    obtain ⟨-, heffect, -⟩ := h.effect (c := .deliver tx) (l := start.after before)
      ⟨before, List.prefix_append _ _, rfl⟩
    obtain ⟨article, hrow, hfree⟩ := heffect.row_of_cancelled hmessage hresult
    rw [← after_concat] at hrow
    exact ⟨article, h.keeps hrow hfree⟩

/-- The short run, and then the deletion is cancelled before a tick comes to its deadline. -/
def cancelledCalls : List Call := sampleCalls ++ [
  .deliver ⟨⟨300⟩, some sampleOwner, .cancelDeletion ⟨1⟩⟩,
  .tick ⟨900⟩ 10]

theorem handles_consumed_once_sample :
    volatile.Run cancelledCalls ∧ volatile.gathered consumedBy cancelledCalls = [⟨1⟩]
      ∧ volatile.Handled cancelledCalls := by
  have hrun : volatile.Run cancelledCalls := run_of_length rfl (by decide)
  exact ⟨hrun, by decide +kernel, handles_consumed_once hrun⟩

end BlogLedger.Ledger
