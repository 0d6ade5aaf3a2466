import BlogLedger.Proofs.Ledger.Authority
import BlogLedger.Proofs.Ledger.Chronology

/-!
# Outcomes are exact accounts

The outcome of an accepted transaction names the one record that has changed, what was done to it, the
one task that was scheduled and the one that was cancelled.  Nothing else is different afterwards.

An outcome is computed while a transaction is made, and by itself it is only what the handler says
that it has done.  To compare it with what was done, the change from one snapshot to the next is
taken apart: the record that is named goes from one state to another, every other row stays, and so
for the tasks.  Both directions matter.  That what is reported has happened would also be true of an
outcome that left something out.

## Main Definitions

* `Message.subject` — the kind of the record that a message is about.
* `Transaction.Creates` — the record that a transaction creates.
* `Outcome.RecordFate`, `Outcome.TaskFate` — what became of the record and the tasks that an outcome
  names.
* `Outcome.Accounts` — an outcome says exactly what is different between two key spaces.

## Main Results

* `Snapshot.Change.fate`, `Snapshot.Change.row_records_eq` — the record that is named, and the others.
* `Snapshot.Change.task_fate` — what a change does to every task.
* `Ledger.outcome_accounts` — the outcome of every accepted transaction is an exact account.

## Design Notes

Records of different kinds can have the same number, and an outcome gives a number only.  The kind
comes from the message, so what is said of the record that is named is said of a kind and a number.
-/

namespace BlogLedger

/-- The kind of the record that a message is about.  A message that cancels a deletion is about the
article and not about the task. -/
def Message.subject : Message → RecordKind
  | .createUser .. => .user
  | .createBlog .. | .changeBlogOwner .. => .blog
  | .createArticle .. | .deleteArticle _ | .cancelDeletion _ => .article

/-- A transaction creates a record with the fields of its message and its own time.  The signer owns
the record, and an article names the task that was scheduled for it.  Every field is given, so it is
known to the last byte what is stored. -/
inductive Transaction.Creates (tx : Transaction) (scheduled : Option TaskId) : Record → Prop where
  | user (username : String) (bio : Option String)
      (message : tx.message = .createUser username bio) :
    Creates tx scheduled (.user ⟨username, Message.givenBio bio, tx.time⟩)
  | blog (title description : String) (owner : Address)
      (message : tx.message = .createBlog title description) (signed : tx.signer = some owner) :
    Creates tx scheduled (.blog ⟨owner, title, description, tx.time⟩)
  | article (id : RecordId) (title content : String) (deleteAt : Timestamp) (owner : Address)
      (message : tx.message = .createArticle id title content deleteAt)
      (signed : tx.signer = some owner) :
    Creates tx scheduled
      (.article ⟨id, owner, title, content, tx.time, Message.deadline deleteAt, scheduled⟩)

namespace Outcome

/-- What became of the record that an outcome names, as the outcome reports it.  There is one case
for each way in which a message can go, and no case in which nothing is named. -/
inductive RecordFate (tx : Transaction) (outcome : Outcome) (id : RecordId) :
    Option Record → Option Record → Prop where
  | created (r : Record) (effect : outcome.effect = .created)
      (creates : tx.Creates outcome.scheduled r) : RecordFate tx outcome id none (some r)
  | handedOver (blog : Blog) (newOwner : String) (owner : Address)
      (effect : outcome.effect = .updated) (message : tx.message = .changeBlogOwner id newOwner)
      (named : Address.read newOwner = .ok owner) :
    RecordFate tx outcome id (some (.blog blog)) (some (.blog { blog with owner }))
  | spared (article : Article) (task : TaskId) (effect : outcome.effect = .updated)
      (message : tx.message = .cancelDeletion id) (waiting : article.deletion = some task) :
    RecordFate tx outcome id (some (.article article))
      (some (.article { article with deletion := none }))
  | deleted (article : Article) (effect : outcome.effect = .deleted)
      (message : tx.message = .deleteArticle id) :
    RecordFate tx outcome id (some (.article article)) none

/-- What became of a task, as an outcome reports it.  The three cases exclude each other, so an
outcome never reports a task as scheduled that it also reports as cancelled. -/
inductive TaskFate (outcome : Outcome) (handle : TaskId) : Option Task → Option Task → Prop where
  | kept (found : Option Task) (scheduled : outcome.scheduled ≠ some handle)
      (cancelled : outcome.cancelled ≠ some handle) : TaskFate outcome handle found found
  | came (task : Task) (scheduled : outcome.scheduled = some handle)
      (cancelled : outcome.cancelled ≠ some handle) : TaskFate outcome handle none (some task)
  | gone (task : Task) (scheduled : outcome.scheduled ≠ some handle)
      (cancelled : outcome.cancelled = some handle) : TaskFate outcome handle (some task) none

/-- A message hands a blog to the account that owns it already.  It is accepted and reported as an
update, and it is the one case in which a record that is named does not differ. -/
def KeepsOwner (s : KeySpace) (m : Message) (id : RecordId) : Prop :=
  ∃ newOwner blog, m = .changeBlogOwner id newOwner ∧ Blogs.get id s = .ok (some blog)
    ∧ Address.read newOwner = .ok blog.owner

/-- An outcome says exactly what is different between the key space before a transaction and the one
after it.  Differences are those between reads, so it makes no difference here how records and
indexes are stored. -/
structure Accounts (outcome : Outcome) (tx : Transaction) (s t : KeySpace) : Prop where
  /-- Records and tasks can be read, before and after.  Reads that fail alike would count as equal. -/
  records_read : ∀ (kind : RecordKind) id, ∃ before after,
    kind.bucket.get id s = .ok before ∧ kind.bucket.get id t = .ok after
  tasks_read : ∀ handle, ∃ before after,
    Schedule.task? handle s = .ok before ∧ Schedule.task? handle t = .ok after
  /-- The record that is named was created, changed or removed, as it is reported. -/
  record_fate : ∃ id before after, outcome.id = some id
    ∧ tx.message.subject.bucket.get id s = .ok before
    ∧ tx.message.subject.bucket.get id t = .ok after ∧ RecordFate tx outcome id before after
  /-- It is the only record of any kind that is different, and it is different unless a blog was
  handed to its own owner.  As an equivalence it says both that nothing else has changed and that
  something has. -/
  changed_iff : ∀ (kind : RecordKind) id, kind.bucket.get id s ≠ kind.bucket.get id t
    ↔ (kind = tx.message.subject ∧ outcome.id = some id) ∧ ¬ KeepsOwner s tx.message id
  /-- The task that is reported as scheduled is the only new one.  New means that the handle had no
  task before. -/
  scheduled_iff : ∀ handle, outcome.scheduled = some handle
    ↔ Schedule.task? handle s = .ok none ∧ ∃ task, Schedule.task? handle t = .ok (some task)
  /-- The task that is reported as cancelled is the only one that is gone. -/
  cancelled_iff : ∀ handle, outcome.cancelled = some handle
    ↔ (∃ task, Schedule.task? handle s = .ok (some task)) ∧ Schedule.task? handle t = .ok none
  /-- The other tasks are as they were.  A task that is there before and after has not been put off
  or given another message. -/
  tasks_kept : ∀ handle task task', Schedule.task? handle s = .ok (some task) →
    Schedule.task? handle t = .ok (some task') → task = task'
  /-- An article with a deadline names the task that deletes it then.  Both can be read after the
  transaction, under the numbers that the outcome gives. -/
  deadline_set : ∀ blog title content deleteAt,
    tx.message = .createArticle blog title content deleteAt → deleteAt ≠ .unset →
    ∃ id handle article, outcome.id = some id ∧ outcome.scheduled = some handle
      ∧ Schedule.task? handle t = .ok (some ⟨deleteAt, .deleteArticle id⟩)
      ∧ Articles.get id t = .ok (some article)
      ∧ article.deletion = some handle ∧ article.deleteAt = some deleteAt
  /-- Nothing is scheduled for an article without a deadline. -/
  deadline_unset : ∀ blog title content,
    tx.message = .createArticle blog title content .unset → outcome.scheduled = none

end Outcome

namespace Snapshot

variable {σ τ : Snapshot} {tx : Transaction} {outcome : Outcome} {kind : RecordKind}

/-! ### The record that is named -/

/-- No record has the number that the next one will have.  Creating a record puts it into the table
without looking, and this is why nothing is lost there. -/
theorem Sound.row_records_next (h : σ.Sound) (kind : RecordKind)
    (hnext : σ.last kind.sequence + 1 ≠ 0) :
    (σ.records kind).row (σ.records kind).next = none :=
  (h.records_numbered kind).row_next (by rwa [Table.HasNext, next_records])

/-- A record that is added was created.  The three kinds of records share this case; they differ in
the fields only. -/
theorem Sound.fate_add (h : σ.Sound) (kind : RecordKind) (hnext : σ.last kind.sequence + 1 ≠ 0)
    {r : Record} (hadds : τ.records kind = (σ.records kind).add r)
    (heffect : outcome.effect = .created) (hcreates : tx.Creates outcome.scheduled r) :
    Outcome.RecordFate tx outcome ⟨(σ.records kind).next⟩
      ((σ.records kind).row (σ.records kind).next)
      ((τ.records kind).row (σ.records kind).next) := by
  rw [h.row_records_next kind hnext, hadds, Table.row_add_next]
  exact .created r heffect hcreates

/-- The record that is named was created, changed or removed, as it is reported.  The case split is
on the change, so it goes through the messages one by one. -/
theorem Change.fate (h : Change tx.context σ tx.message outcome τ) (hσ : σ.Sound)
    (hspare : σ.Spare tx.message) :
    ∃ id, outcome.id = some id
      ∧ Outcome.RecordFate tx outcome id ((σ.records tx.message.subject).row id.number)
        ((τ.records tx.message.subject).row id.number) := by
  obtain ⟨time, signer, message⟩ := tx
  have hsigner : ∀ {owner}, (Caller.ofSigner signer).signer? = some owner → signer = some owner :=
    fun hsigned => (Caller.signer?_ofSigner signer).symm.trans hsigned
  -- A new record finds no row under its number; every other message finds the row that it names.
  cases h with
  | createUser username bio valid =>
    refine ⟨_, rfl, hσ.fate_add .user (hspare .users trivial) (Table.map_add _ _ _) rfl ?_⟩
    exact .user username bio rfl
  | createBlog title description owner valid signed =>
    refine ⟨_, rfl, hσ.fate_add .blog (hspare .blogs trivial) (Table.map_add _ _ _) rfl ?_⟩
    exact .blog title description owner rfl (hsigner signed)
  | changeBlogOwner id newOwner owner blog valid named row signed =>
    refine ⟨id, rfl, ?_⟩
    show Outcome.RecordFate _ _ _ ((σ.blogs.row id.number).map .blog)
      (((σ.blogs.put id.number _).row id.number).map .blog)
    rw [row, Table.row_put, if_pos rfl]
    exact .handedOver blog newOwner owner rfl rfl named
  | createArticle id title content blog valid row signed =>
    refine ⟨_, rfl, hσ.fate_add .article (hspare .articles trivial) (Table.map_add _ _ _) rfl ?_⟩
    exact .article id title content .unset blog.owner rfl (hsigner signed)
  | scheduleArticle id title content deleteAt blog valid row signed set later =>
    have hdeadline : Message.deadline deleteAt = some deleteAt := if_neg set
    refine ⟨_, rfl, hσ.fate_add .article (hspare .articles trivial) (Table.map_add _ _ _) rfl ?_⟩
    rw [← hdeadline]
    exact .article id title content deleteAt blog.owner rfl (hsigner signed)
  | deleteArticle id article valid row signed =>
    refine ⟨id, rfl, ?_⟩
    show Outcome.RecordFate _ _ _ ((σ.articles.row id.number).map .article)
      (((σ.articles.drop id.number).row id.number).map .article)
    rw [row, Table.row_drop, if_pos rfl]
    exact .deleted article rfl rfl
  | cancelDeletion id article task valid row signed waiting =>
    refine ⟨id, rfl, ?_⟩
    show Outcome.RecordFate _ _ _ ((σ.articles.row id.number).map .article)
      (((σ.articles.put id.number _).row id.number).map .article)
    rw [row, Table.row_put, if_pos rfl]
    exact .spared article task rfl rfl waiting

/-- The other records are as they were.  A change touches one row of one table, and the outcome
names it. -/
theorem Change.row_records_eq {ctx : Context} {m : Message} (h : Change ctx σ m outcome τ)
    {n : UInt64} (hother : ¬ (kind = m.subject ∧ outcome.id = some ⟨n⟩)) :
    (τ.records kind).row n = (σ.records kind).row n := by
  have hne : kind = m.subject → ∀ id, outcome.id = some id → n ≠ id.number := by
    rintro hkind id hid rfl
    exact hother ⟨hkind, hid⟩
  cases h with
  | createUser =>
    cases kind with
    | user => exact congrArg (Option.map _) (Function.update_of_ne (hne rfl _ rfl) _ _)
    | blog | article => rfl
  | createBlog | changeBlogOwner =>
    cases kind with
    | blog => exact congrArg (Option.map _) (Function.update_of_ne (hne rfl _ rfl) _ _)
    | user | article => rfl
  | createArticle | scheduleArticle | deleteArticle | cancelDeletion =>
    cases kind with
    | article => exact congrArg (Option.map _) (Function.update_of_ne (hne rfl _ rfl) _ _)
    | user | blog => rfl

/-! ### The tasks that are named -/

/-- The tasks without the one that an article names are those that an outcome leaves which reports
it as cancelled.  Deleting an article and cancelling its deletion share this case. -/
theorem task_fate_tasksWithout (hnone : outcome.scheduled = none)
    (hthere : ∀ handle : TaskId, outcome.cancelled = some handle →
      ∃ task, σ.tasks.row handle.number = some task) (handle : TaskId) :
    outcome.TaskFate handle (σ.tasks.row handle.number)
      ((σ.tasksWithout outcome.cancelled).row handle.number) := by
  have hscheduled : outcome.scheduled ≠ some handle := by
    rw [hnone]
    exact nofun
  by_cases hcancelled : outcome.cancelled = some handle
  · obtain ⟨task, hrow⟩ := hthere handle hcancelled
    have hgone : (σ.tasksWithout (some handle)).row handle.number = none :=
      Function.update_self _ _ _
    rw [hcancelled, hgone, hrow]
    exact .gone task hscheduled hcancelled
  · have hkept : (σ.tasksWithout outcome.cancelled).row handle.number
        = σ.tasks.row handle.number := by
      refine Option.ext fun task => ?_
      rw [row_tasksWithout]
      exact and_iff_left hcancelled
    rw [hkept]
    exact .kept _ hscheduled hcancelled

/-- A change does to the tasks what the outcome says.  Soundness is needed where a task is removed:
the task that an article names is there. -/
theorem Change.task_fate {ctx : Context} {m : Message} (h : Change ctx σ m outcome τ)
    (hσ : σ.Sound) (hspare : σ.Spare m) (handle : TaskId) :
    outcome.TaskFate handle (σ.tasks.row handle.number) (τ.tasks.row handle.number) := by
  cases h with
  | createUser | createBlog | changeBlogOwner | createArticle => exact .kept _ nofun nofun
  | scheduleArticle id title content deleteAt blog valid row signed set later =>
    show Outcome.TaskFate _ _ _ ((σ.tasks.add _).row handle.number)
    rw [Table.row_add]
    split
    · next hnew =>
      obtain rfl : handle = ⟨σ.tasks.next⟩ := congrArg TaskId.mk hnew
      rw [hσ.tasks_numbered.row_next (hspare .tasks set)]
      exact .came _ rfl nofun
    · next hold =>
      exact .kept _ (fun he => hold (congrArg TaskId.number (Option.some.inj he)).symm) nofun
  | deleteArticle id article valid row signed =>
    refine task_fate_tasksWithout rfl (fun other hnamed => ?_) handle
    obtain ⟨deadline, -, htask⟩ := hσ.scheduled _ _ _ row hnamed
    exact ⟨_, htask⟩
  | cancelDeletion id article task valid row signed waiting =>
    refine task_fate_tasksWithout rfl (fun other hnamed => ?_) handle
    obtain ⟨deadline, -, htask⟩ := hσ.scheduled _ _ _ row (waiting.trans hnamed)
    exact ⟨_, htask⟩

/-- An article with a deadline and the task for it name each other.  The handle is known before the
article is stored, so the article can name it. -/
theorem Change.deadline_set {ctx : Context} {blog : RecordId} {title content : String}
    {deleteAt : Timestamp}
    (h : Change ctx σ (.createArticle blog title content deleteAt) outcome τ)
    (hset : deleteAt ≠ .unset) :
    ∃ (id : RecordId) (handle : TaskId) (article : Article),
      outcome.id = some id ∧ outcome.scheduled = some handle
      ∧ τ.tasks.row handle.number = some ⟨deleteAt, .deleteArticle id⟩
      ∧ τ.articles.row id.number = some article
      ∧ article.deletion = some handle ∧ article.deleteAt = some deleteAt := by
  cases h with
  | createArticle => exact absurd rfl hset
  | scheduleArticle =>
    exact ⟨_, _, _, rfl, rfl, Table.row_add_next _ _, Table.row_add_next _ _, rfl, rfl⟩

theorem Change.deadline_unset {ctx : Context} {blog : RecordId} {title content : String}
    (h : Change ctx σ (.createArticle blog title content .unset) outcome τ) :
    outcome.scheduled = none := by
  cases h with
  | createArticle => rfl
  | scheduleArticle _ _ _ _ _ _ _ _ set _ => exact absurd rfl set

end Snapshot

namespace Outcome

variable {tx : Transaction} {outcome : Outcome} {id : RecordId} {handle : TaskId}

/-- The record that is named is different, unless a blog was handed to its own owner.  Cancelling a
deletion changes the article, since it did name a task. -/
theorem RecordFate.changed_iff {before after : Option Record}
    (h : RecordFate tx outcome id before after) :
    before ≠ after ↔ ¬ ∃ newOwner blog, tx.message = .changeBlogOwner id newOwner
      ∧ before = some (.blog blog) ∧ Address.read newOwner = .ok blog.owner := by
  cases h with
  | created r effect creates =>
    refine iff_of_true nofun ?_
    rintro ⟨_, _, -, habsent, -⟩
    cases habsent
  | handedOver blog newOwner owner effect message named =>
    rw [not_iff_not, Option.some.injEq, Record.blog.injEq]
    constructor
    · intro hsame
      exact ⟨newOwner, blog, message, rfl, named.trans (congrArg (Except.ok ∘ Blog.owner) hsame.symm)⟩
    · rintro ⟨newOwner', blog', hmessage, hblog, hnamed⟩
      cases hblog
      cases message.symm.trans hmessage
      cases named.symm.trans hnamed
      rfl
  | spared article task effect message waiting =>
    refine iff_of_true (fun hsame => ?_) ?_
    · have hdeletion : article.deletion = none :=
        congrArg Article.deletion (Record.article.inj (Option.some.inj hsame))
      cases waiting.symm.trans hdeletion
    · rintro ⟨_, _, hmessage, -⟩
      cases message.symm.trans hmessage
  | deleted article effect message =>
    refine iff_of_true nofun ?_
    rintro ⟨_, _, hmessage, -⟩
    cases message.symm.trans hmessage

namespace TaskFate

variable {before after : Option Task} (h : outcome.TaskFate handle before after)

include h

theorem scheduled_iff :
    outcome.scheduled = some handle ↔ before = none ∧ ∃ task, after = some task := by
  cases h with
  | kept found scheduled cancelled =>
    refine iff_of_false scheduled ?_
    rintro ⟨hnone, task, hsome⟩
    cases hnone.symm.trans hsome
  | came task scheduled cancelled => exact iff_of_true scheduled ⟨rfl, task, rfl⟩
  | gone task scheduled cancelled => exact iff_of_false scheduled nofun

theorem cancelled_iff :
    outcome.cancelled = some handle ↔ (∃ task, before = some task) ∧ after = none := by
  cases h with
  | kept found scheduled cancelled =>
    refine iff_of_false cancelled ?_
    rintro ⟨⟨task, hsome⟩, hnone⟩
    cases hnone.symm.trans hsome
  | came task scheduled cancelled => exact iff_of_false cancelled nofun
  | gone task scheduled cancelled => exact iff_of_true cancelled ⟨⟨task, rfl⟩, rfl⟩

theorem eq_of_some {task task' : Task} (hbefore : before = some task)
    (hafter : after = some task') : task = task' := by
  cases h with
  | kept => exact Option.some.inj (hbefore.symm.trans hafter)
  | came => cases hbefore
  | gone => cases hafter

end TaskFate

end Outcome

namespace Ledger

variable {l m : Ledger} {σ τ : Snapshot} {tx : Transaction} {outcome : Outcome}

theorem Shows.keepsOwner_iff (h : l.Shows σ) {m : Message} {id : RecordId} :
    Outcome.KeepsOwner l.store m id ↔ ∃ newOwner blog, m = .changeBlogOwner id newOwner
      ∧ (σ.records m.subject).row id.number = some (.blog blog)
      ∧ Address.read newOwner = .ok blog.owner := by
  refine exists_congr fun newOwner => exists_congr fun blog => and_congr_right ?_
  rintro rfl
  rw [h.get_blog_iff]
  refine and_congr_left' ?_
  show _ ↔ (σ.blogs.row id.number).map Record.blog = some (.blog blog)
  simp

/-- An outcome is an exact account of what is different between the ledgers before and after.  Reads
are translated into rows; the time has no part in it, as it is no record and no task. -/
theorem Shows.accounts (hl : l.Shows σ) (hm : m.Shows { τ with time := tx.time })
    (hspare : σ.Spare tx.message) (h : Snapshot.Change tx.context σ tx.message outcome τ) :
    outcome.Accounts tx l.store m.store := by
  have hbefore : ∀ (kind : RecordKind) id,
      kind.bucket.get id l.store = .ok ((σ.records kind).row id.number) :=
    fun kind => (hl.stored.records kind).get
  have hafter : ∀ (kind : RecordKind) id,
      kind.bucket.get id m.store = .ok ((τ.records kind).row id.number) := by
    intro kind id
    rw [(hm.stored.records kind).get, Snapshot.records_withTime]
  -- From here on both stores are looked at through their snapshots.
  obtain ⟨id, hid, hfate⟩ := h.fate hl.sound hspare
  have htasks := h.task_fate hl.sound hspare
  refine ⟨fun kind id => ⟨_, _, hbefore kind id, hafter kind id⟩,
    fun handle => ⟨_, _, hl.stored.getTask handle, hm.stored.getTask handle⟩,
    ⟨id, _, _, hid, hbefore _ id, hafter _ id, hfate⟩, fun kind other => ?_, fun handle => ?_,
    fun handle => ?_, fun handle task task' hget hget' => ?_,
    fun blog title content deleteAt hmessage hset => ?_, fun blog title content hmessage => ?_⟩
  · rw [hbefore, hafter, ne_eq, Except.ok.injEq, ← ne_eq]
    by_cases hnamed : kind = tx.message.subject ∧ outcome.id = some other
    · obtain ⟨rfl, hother⟩ := hnamed
      obtain rfl : id = other := Option.some.inj (hid.symm.trans hother)
      rw [hfate.changed_iff, and_iff_right ⟨rfl, hid⟩, hl.keepsOwner_iff]
    · exact iff_of_false (not_not.2 (h.row_records_eq hnamed).symm) fun hboth => hnamed hboth.1
  · rw [(htasks handle).scheduled_iff, hl.stored.getTask, hm.stored.getTask]
    simp only [Except.ok.injEq]
  · rw [(htasks handle).cancelled_iff, hl.stored.getTask, hm.stored.getTask]
    simp only [Except.ok.injEq]
  · exact (htasks handle).eq_of_some (hl.task?_iff.1 hget) (hm.task?_iff.1 hget')
  · rw [hmessage] at h
    simp only [hm.task?_iff, hm.get_article_iff]
    exact h.deadline_set hset
  · rw [hmessage] at h
    exact h.deadline_unset

/-- The outcome of every accepted transaction is an exact account of what it changed.  The
hypothesis on numbers is needed for a record that is created, which would otherwise come in the
place of an earlier one. -/
theorem outcome_accounts (h : l.Reachable) (hnext : ∀ q, tx.message.Takes q → l.HasNext q)
    (hok : (l.deliver tx).result = .ok outcome) :
    outcome.Accounts tx l.store (l.deliver tx).ledger.store := by
  have hspare : l.snapshot.Spare tx.message :=
    fun q hq => (h.shows.hasNext_iff q).1 (hnext q hq)
  obtain ⟨-, τ, hchange, hτ⟩ := h.shows.deliver_ok hspare hok
  exact h.shows.accounts hτ hspare hchange

theorem outcome_accounts_sample :
    sample.Reachable ∧ (∀ q, sample.HasNext q)
      ∧ (sample.deliver ⟨⟨300⟩, some sampleOwner, .deleteArticle ⟨1⟩⟩).result
        = .ok ⟨some ⟨1⟩, .deleted, none, some ⟨1⟩⟩
      ∧ Outcome.Accounts ⟨some ⟨1⟩, .deleted, none, some ⟨1⟩⟩
        ⟨⟨300⟩, some sampleOwner, .deleteArticle ⟨1⟩⟩ sample.store
        (sample.deliver ⟨⟨300⟩, some sampleOwner, .deleteArticle ⟨1⟩⟩).ledger.store := by
  have hok : (sample.deliver ⟨⟨300⟩, some sampleOwner, .deleteArticle ⟨1⟩⟩).result
      = .ok ⟨some ⟨1⟩, .deleted, none, some ⟨1⟩⟩ := by decide +kernel
  exact ⟨sample_reachable, sample_hasNext, hok,
    outcome_accounts sample_reachable (fun q _ => sample_hasNext q) hok⟩

end Ledger

end BlogLedger
