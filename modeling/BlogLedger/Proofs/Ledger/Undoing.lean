import BlogLedger.Proofs.Ledger.Deletions
import BlogLedger.Proofs.Ledger.Portions
import BlogLedger.Proofs.Snapshot.Entry

/-!
# Deleting undoes creating

When an article is created and deleted again, by its owner or because its deadline has come, the
store is as it was: the records, the lists of the indexes, the tasks and their places in the queue.
Only the numbers that were given out stay used up, and the time has moved on.

That deleting an article undoes creating it is first shown for snapshots, where it is a matter of
two tables: a row that was added is dropped again, and what is left is the table with a number used
up.  The keys follow, as two stores whose tables have the same rows differ at most in their
sequences and in the time.  This is how the entries of the indexes are covered.  An entry that lists
no article any more is not stored, so after the deletion there is no trace of it.

## Main Definitions

* `Snapshot.spent` — the numbers of an article, and of a task if there was one, are used up.
* `Snapshot.Posted` — what was posted, and what is left without it.
* `Ledger.movedKeys` — the keys that a created article leaves changed for good.
* `Ledger.Restored` — a ledger shows the same as another one under all other keys.
* `Ledger.CreationUndone` — both ways of deleting an article that was just created.

## Main Results

* `Snapshot.Change.posted` — removing what a change has posted leaves its numbers used up.
* `Ledger.Shows.restored` — which keys that leaves changed.
* `Ledger.creation_undone` — deleting an article undoes creating it.
-/

namespace BlogLedger

/-! ### Snapshots -/

namespace Snapshot

/-- The next number of an article is used up, and that of a task if one was scheduled.  It is what
remains of an article that came and went. -/
def spent (σ : Snapshot) (scheduled : Option TaskId) : Snapshot :=
  { σ with
    articles := σ.articles.spend
    tasks := if scheduled.isSome then σ.tasks.spend else σ.tasks }

/-- What was posted, and what is left when it is removed again.  The numbers are those that were
next before, so the two snapshots can be compared by tables. -/
structure Posted (σ τ : Snapshot) (deadline : Timestamp) (outcome : Outcome) : Prop where
  hasNext : σ.articles.HasNext
  id_eq : outcome.id = some ⟨σ.articles.next⟩
  article : ∃ a, τ.articles.row σ.articles.next = some a ∧ a.deletion = outcome.scheduled
  /-- There is a task exactly for an article with a deadline.  Its number is the next one, and it
  deletes the article that was posted with it. -/
  task : deadline = .unset ∧ outcome.scheduled = none
    ∨ deadline ≠ .unset ∧ σ.tasks.HasNext ∧ outcome.scheduled = some ⟨σ.tasks.next⟩
      ∧ τ.tasks.row σ.tasks.next = some ⟨deadline, .deleteArticle ⟨σ.articles.next⟩⟩
  /-- Without the article and its task, their numbers are used up and nothing else has changed.
  This equation is what both ways of deletion come down to. -/
  without_eq : τ.without ⟨σ.articles.next⟩ outcome.scheduled = σ.spent outcome.scheduled

variable {ctx : Context} {σ τ : Snapshot} {blog : RecordId} {title content : String}
  {deadline : Timestamp} {outcome : Outcome}

/-- An article that was just posted can be removed together with its task, and then only their
numbers are used up.  The rows under the new numbers were empty before, so dropping them leaves the
tables as they were. -/
theorem Change.posted (h : Change ctx σ (.createArticle blog title content deadline) outcome τ)
    (hσ : σ.Sound) (hspare : σ.Spare (.createArticle blog title content deadline)) :
    σ.Posted τ deadline outcome := by
  have hnext : σ.articles.HasNext := hspare .articles trivial
  cases h with
  | createArticle blog title content found valid row signed =>
    refine ⟨hnext, rfl, ⟨_, Table.row_add_next _ _, rfl⟩, .inl ⟨rfl, rfl⟩, ?_⟩
    show Snapshot.mk _ _ ((σ.articles.add _).drop σ.articles.next) _ _ = _
    rw [hσ.articles_numbered.drop_add hnext]
    rfl
  | scheduleArticle blog title content deadline found valid row signed set later =>
    have hnext' : σ.tasks.HasNext := hspare .tasks set
    refine ⟨hnext, rfl, ⟨_, Table.row_add_next _ _, rfl⟩,
      .inr ⟨set, hnext', rfl, Table.row_add_next _ _⟩, ?_⟩
    show Snapshot.mk _ _ ((σ.articles.add _).drop σ.articles.next)
      ((σ.tasks.add _).drop σ.tasks.next) _ = _
    rw [hσ.articles_numbered.drop_add hnext, hσ.tasks_numbered.drop_add hnext']
    rfl

/-- Numbers that are used up leave all rows.  So the records, the indexes and the queue, which
depend on rows alone, are stored under the same keys with the same bytes. -/
theorem sameRows_spent (σ : Snapshot) (scheduled : Option TaskId) (time : Timestamp) :
    σ.SameRows { σ.spent scheduled with time } where
  users := rfl
  blogs := rfl
  articles := rfl
  tasks := by
    unfold spent
    cases scheduled <;> rfl

end Snapshot

/-! ### Ledgers -/

namespace Ledger

/-- The keys that a created article leaves changed for good: the time, the last number of an
article, and that of a task if one was scheduled.  Without a task its sequence is not touched, and
so the list depends on the outcome. -/
def movedKeys (outcome : Outcome) : List Bytes :=
  timeKey :: Sequence.articles.key :: if outcome.scheduled.isSome then [Sequence.tasks.key] else []

/-- A ledger shows what another one shows under all keys but those that a created article leaves
changed, where it shows the numbers that were given out and the time.  Together these fields
determine every byte of the store. -/
structure Restored (l : Ledger) (outcome : Outcome) (time : Timestamp) (l' : Ledger) : Prop where
  get_eq : ∀ key, key ∉ movedKeys outcome → l'.store.get key = l.store.get key
  articles : ∀ id, outcome.id = some id → l'.store.get Sequence.articles.key = some id.key
  tasks : ∀ handle, outcome.scheduled = some handle →
    l'.store.get Sequence.tasks.key = some handle.key
  lastTime : l'.lastTime = .ok time

/-- An article that was just created is deleted again in one of two ways, and either one undoes the
creation.  Nothing may come in between, since other calls would leave traces of their own. -/
structure CreationUndone (l : Ledger) (tx : Transaction) (deadline : Timestamp) (outcome : Outcome) :
    Prop where
  /-- The outcome names the article, and with a deadline the task that will delete it.  It is what
  the other two fields refer to. -/
  named : ∃ id, outcome.id = some id ∧ (deadline = .unset ∧ outcome.scheduled = none
    ∨ deadline ≠ .unset ∧ ∃ handle, outcome.scheduled = some handle
      ∧ Schedule.task? handle (l.deliver tx).ledger.store
        = .ok (some ⟨deadline, .deleteArticle id⟩))
  /-- A transaction that deletes the article is accepted next.  Its time may be later, and it is the
  time that is stored afterwards. -/
  byOwner : ∀ id deletion accepted, outcome.id = some id → deletion.message = .deleteArticle id →
    ((l.deliver tx).ledger.deliver deletion).result = .ok accepted →
    l.Restored outcome deletion.time ((l.deliver tx).ledger.deliver deletion).ledger
  /-- A tick that may fire a task is made next, and no other task is due.  Another task that is due
  could be fired as well, and would take its own article with it. -/
  byDeadline : ∀ handle now limit report, outcome.scheduled = some handle → deadline ≤ now →
    0 < limit →
    (∀ other task, Schedule.task? other (l.deliver tx).ledger.store = .ok (some task) →
      task.runAt ≤ now → other = handle) →
    (((l.deliver tx).ledger.limited limit).tick now).result = .ok report →
    l.Restored outcome now (((l.deliver tx).ledger.limited limit).tick now).ledger

variable {l l' : Ledger} {σ : Snapshot} {tx : Transaction} {outcome : Outcome} {now : Timestamp}

/-- Where only numbers were used up and the time has moved on, all other keys show the same.  The
case split is on the four sequences, two of which have not moved at all. -/
theorem Shows.restored {τ : Snapshot} {deadline : Timestamp} (h : l.Shows σ)
    (hposted : σ.Posted τ deadline outcome)
    (h' : l'.Shows { σ.spent outcome.scheduled with time := now }) :
    l.Restored outcome now l' where
  get_eq key hkey := by
    have hmoved : key ≠ timeKey ∧ key ≠ Sequence.articles.key
        ∧ (outcome.scheduled.isSome → key ≠ Sequence.tasks.key) := by
      unfold movedKeys at hkey
      cases hsome : outcome.scheduled <;> simpa [hsome] using hkey
    refine (h.stored.get_eq_of_rows h'.stored (σ.sameRows_spent _ _) (fun q hq => ?_)
      fun ht => absurd ht hmoved.1).symm
    -- The sequences differ where the creation took a number.
    cases q with
    | users | blogs => rfl
    | articles => exact absurd hq hmoved.2.1
    | tasks =>
      cases hsome : outcome.scheduled with
      | none => rfl
      | some handle => exact absurd hq (hmoved.2.2 (by rw [hsome]; rfl))
  articles id hsome := by
    cases hposted.id_eq.symm.trans hsome
    exact (h'.stored.get_sequence .articles).trans (if_neg hposted.hasNext)
  tasks handle hsome := by
    rcases hposted.task with ⟨-, hnone⟩ | ⟨-, hnext, hsome', -⟩
    · cases hnone.symm.trans hsome
    · cases hsome'.symm.trans hsome
      have hlast : (σ.spent outcome.scheduled).tasks = σ.tasks.spend := by
        unfold Snapshot.spent
        rw [hsome]
        rfl
      refine (h'.stored.get_sequence .tasks).trans ?_
      show (σ.spent outcome.scheduled).tasks.lastBytes = _
      rw [hlast]
      exact if_neg hnext
  lastTime := h'.lastTime

/-- A transaction that deletes an article takes its task with it.  An article without a task is the
same case, with nothing to take. -/
theorem Shows.deliver_deleteArticle (h : l.Shows σ) {id : RecordId} {article : Article}
    (hmessage : tx.message = .deleteArticle id) (hrow : σ.articles.row id.number = some article)
    (hok : (l.deliver tx).result = .ok outcome) :
    (l.deliver tx).ledger.Shows { σ.without id article.deletion with time := tx.time } := by
  have hspare : σ.Spare tx.message := by
    rw [hmessage]
    rintro (_ | _) htakes <;> exact htakes.elim
  obtain ⟨-, τ, hchange, hτ⟩ := h.deliver_ok hspare hok
  rw [hmessage] at hchange
  cases hchange with
  | deleteArticle id found valid row signed =>
    cases hrow.symm.trans row
    exact hτ

/-- A tick that finds one task due takes out this task and its article.  The list of what is due has
one member, and any positive limit lets it be fired. -/
theorem Shows.tick_only (h : l.Shows σ) (handle : TaskId) {task : Task} {id : RecordId}
    {report : TickReport} (hrow : σ.tasks.row handle.number = some task)
    (hmessage : task.message = .deleteArticle id) (hdue : task.runAt ≤ now)
    (honly : ∀ (other : TaskId) task', σ.tasks.row other.number = some task' → task'.runAt ≤ now →
      other = handle)
    (hlimit : 0 < l.maxTasks) (hok : (l.tick now).result = .ok report) :
    (l.tick now).ledger.Shows { σ.without id (some handle) with time := now } := by
  have hensure : l.ensureTime now = .ok () := by
    cases hensure : l.ensureTime now with
    | ok _ => rfl
    | error f =>
      rw [(tick_error hensure).1] at hok
      cases hok
  obtain ⟨due, hlists, -, hshows, ⟨-, hfired⟩ | ⟨fault, herror⟩⟩ := h.tick_due hensure
  · have hsingle : Schedule.Lists σ.tasks (fun task => task.runAt ≤ now) [(handle, task)] := by
      refine ⟨List.pairwise_singleton _ _, fun other task' => ?_⟩
      rw [List.mem_singleton, Prod.mk.injEq]
      constructor
      · rintro ⟨rfl, rfl⟩
        exact ⟨hrow, hdue⟩
      · rintro ⟨hrow', hdue'⟩
        obtain rfl := honly other task' hrow' hdue'
        exact ⟨rfl, Option.some.inj (hrow'.symm.trans hrow)⟩
    rw [hlists.unique hsingle, List.take_of_length_le hlimit] at hfired
    rw [hfired, Snapshot.afterFiring_cons σ now hmessage, Snapshot.afterFiring_nil] at hshows
    exact hshows
  · cases herror.symm.trans hok

/-- Deleting an article that was just created, by its owner or by a tick that finds nothing else
due, gives back what every key showed before, apart from the numbers and the time.  The comparison
is with the ledger from before the creation. -/
theorem creation_undone {blog : RecordId} {title content : String} {deadline : Timestamp}
    (h : l.Reachable) (hnext : ∀ q, tx.message.Takes q → l.HasNext q)
    (hmessage : tx.message = .createArticle blog title content deadline)
    (hok : (l.deliver tx).result = .ok outcome) : l.CreationUndone tx deadline outcome := by
  have hshows := h.shows
  have hspare : l.snapshot.Spare tx.message := fun q hq => (hshows.hasNext_iff q).1 (hnext q hq)
  obtain ⟨-, τ, hchange, hτ⟩ := hshows.deliver_ok hspare hok
  rw [hmessage] at hchange hspare
  have hposted := hchange.posted hshows.sound hspare
  obtain ⟨article, hrow, hdeletion⟩ := hposted.article
  refine ⟨⟨_, hposted.id_eq, ?_⟩, ?_, ?_⟩
  · rcases hposted.task with hunset | ⟨hset, -, hsome, htask⟩
    · exact .inl hunset
    · exact .inr ⟨hset, _, hsome, hτ.task?_iff.2 htask⟩
  · -- The owner deletes the article.
    intro id deletion accepted hid hdelete haccepted
    cases hposted.id_eq.symm.trans hid
    have hdeleted := hτ.deliver_deleteArticle hdelete hrow haccepted
    rw [hdeletion] at hdeleted
    refine hshows.restored hposted ?_
    rw [← hposted.without_eq]
    exact hdeleted
  · -- The scheduler deletes it.
    intro handle now limit report hsome hdue hlimit honly hreport
    rcases hposted.task with ⟨-, hnone⟩ | ⟨-, -, hsome', htask⟩
    · cases hnone.symm.trans hsome
    · cases hsome'.symm.trans hsome
      have hlimited : ((l.deliver tx).ledger.limited limit).Shows { τ with time := tx.time } :=
        hτ.of_store_eq rfl
      have hticked := hlimited.tick_only ⟨l.snapshot.tasks.next⟩ htask rfl hdue
        (fun other task' hrow' => honly other task' (hτ.task?_iff.2 hrow')) hlimit hreport
      refine hshows.restored hposted ?_
      rw [← hposted.without_eq, hsome]
      exact hticked

/-- An article that is to be deleted before the one of the short run. -/
def shortLived : Transaction :=
  ⟨⟨300⟩, some sampleOwner, .createArticle ⟨1⟩ "Hail" "It did not last." ⟨700⟩⟩

/-- The owner deletes it first. -/
def earlyDeletion : Transaction := ⟨⟨400⟩, some sampleOwner, .deleteArticle ⟨3⟩⟩

theorem creation_undone_sample :
    sample.Reachable ∧ (∀ q, sample.HasNext q)
      ∧ (sample.deliver shortLived).result = .ok ⟨some ⟨3⟩, .created, some ⟨2⟩, none⟩
      ∧ ((sample.deliver shortLived).ledger.deliver earlyDeletion).result.isOk = true
      ∧ (((sample.deliver shortLived).ledger.limited 5).tick ⟨800⟩).result.toOption.map
        (fun report => report.fired.map Firing.id) = some [⟨2⟩]
      ∧ sample.CreationUndone shortLived ⟨700⟩ ⟨some ⟨3⟩, .created, some ⟨2⟩, none⟩ := by
  have hok : (sample.deliver shortLived).result = .ok ⟨some ⟨3⟩, .created, some ⟨2⟩, none⟩ := by
    decide +kernel
  exact ⟨sample_reachable, sample_hasNext, hok, by decide +kernel, by decide +kernel,
    creation_undone sample_reachable (fun q _ => sample_hasNext q) rfl hok⟩

end Ledger

end BlogLedger
