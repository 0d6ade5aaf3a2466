import BlogLedger.Proofs.Ledger.Authority
import BlogLedger.Proofs.Ledger.Portions
import BlogLedger.Proofs.Ledger.Prediction

/-!
# Transactions and ticks commute

A transaction and a tick at the same time can be made in either order, unless the transaction names an
article whose deletion is due.  The one does not see what the other does, so the answers and the store
are the same.

Both orders are compared on snapshots.  Firing tasks is described by `Snapshot.afterFiring`,
accepting a message by `Snapshot.Change`, and the heart of the matter is
`Snapshot.Change.afterFiring`: the same change is possible after the tasks were fired, and it leads
where firing them after the change leads.  This is a calculation with rows that are put and dropped
under different numbers, for which `Table.hide` describes all that a tick removes at once.

## Main Definitions

* `Message.article?` — the article that a message deletes or spares.
* `Table.hide` — a table without some rows.
* `Ledger.Undue` — a message names no article whose deletion is due.
* `Ledger.Untroubled` — the journal takes every record of a call.
* `Ledger.Commute` — a transaction and a tick give the same in either order.

## Main Results

* `Snapshot.Change.unique` — a message makes one change.
* `Snapshot.Change.afterFiring` — it makes the same change after tasks were fired.
* `Snapshot.Change.lists_due` — it leaves the list of the tasks that are due.
* `Ledger.deliver_tick_commute` — a transaction and a tick commute.

## Design Notes

Three things could connect the two.  The transaction could name an article that the tick deletes,
which the statement excludes.  It could schedule a task that the tick would fire, but deadlines lie
after the time of the transaction, and the tick happens at that time.  And it could take a number
that depends on what was deleted, but sequences never move back.  The journal could refuse one of
the four writes; only there are storage faults possible, and they are excluded one by one.
-/

namespace BlogLedger

/-- The article that a message deletes or spares, if it does either.  No other message depends on an
article that is there. -/
def Message.article? : Message → Option RecordId
  | .deleteArticle id | .cancelDeletion id => some id
  | .createUser .. | .createBlog .. | .changeBlogOwner .. | .createArticle .. => none

/-! ### Tables with hidden rows -/

namespace Table

variable {α : Type} {p : UInt64 → Prop} [DecidablePred p] {t : Table α} {n : UInt64}

/-- A table without some of its rows.  A tick drops many rows; as a table with a condition they are
dropped in one step, and the order in which it was done does not matter. -/
def hide (p : UInt64 → Prop) [DecidablePred p] (t : Table α) : Table α :=
  { t with row := fun n => if p n then none else t.row n }

/-- A row that is not hidden can be put before or after others are hidden.  There is one such lemma
for each way in which a change touches a table. -/
theorem hide_put (hn : ¬ p n) (a : α) : (t.put n a).hide p = (t.hide p).put n a := by
  refine ext (fun m => ?_) rfl
  show (if p m then none else (t.put n a).row m) = _
  rw [row_put, row_put]
  by_cases hm : m = n
  · subst hm
    rw [if_neg hn, if_pos rfl, if_pos rfl]
  · rw [if_neg hm, if_neg hm]
    rfl

theorem hide_add (hnext : ¬ p t.next) (a : α) : (t.add a).hide p = (t.hide p).add a := by
  refine ext (fun m => ?_) rfl
  show (if p m then none else (t.add a).row m) = _
  rw [row_add, row_add]
  show _ = if m = t.next then _ else _
  by_cases hm : m = t.next
  · subst hm
    rw [if_neg hnext, if_pos rfl, if_pos rfl]
  · rw [if_neg hm, if_neg hm]
    rfl

theorem hide_drop (t : Table α) (n : UInt64) : (t.drop n).hide p = (t.hide p).drop n := by
  refine ext (fun m => ?_) rfl
  show (if p m then none else (t.drop n).row m) = _
  rw [row_drop, row_drop]
  show _ = if m = n then none else if p m then none else t.row m
  by_cases hm : m = n
  · rw [if_pos hm, if_pos hm, ite_self]
  · rw [if_neg hm, if_neg hm]

theorem row_hide (hn : ¬ p n) : (t.hide p).row n = t.row n := if_neg hn

end Table

namespace Snapshot

variable {ctx : Context} {σ τ τ' : Snapshot} {m : Message} {outcome outcome' : Outcome}
  {now : Timestamp} {fired due : List (TaskId × Task)}

/-! ### One change -/

/-- A message makes one change, and its outcome is determined.  So the two orders can be compared:
each gives a change of its own, and they have to be the same. -/
theorem Change.unique (h : Change ctx σ m outcome τ) (h' : Change ctx σ m outcome' τ') :
    outcome = outcome' ∧ τ = τ' := by
  -- A message has one constructor, except that an article has one without a deadline and one with
  -- it.
  cases h with
  | createUser username bio valid =>
    cases h'
    exact ⟨rfl, rfl⟩
  | createBlog title description owner valid signed =>
    cases h' with
    | createBlog _ _ _ _ signed' =>
      cases signed.symm.trans signed'
      exact ⟨rfl, rfl⟩
  | changeBlogOwner id newOwner owner blog valid named row signed =>
    cases h' with
    | changeBlogOwner _ _ _ _ _ named' row' _ =>
      cases named.symm.trans named'
      cases row.symm.trans row'
      exact ⟨rfl, rfl⟩
  | createArticle id title content blog valid row signed =>
    cases h' with
    | createArticle _ _ _ _ _ row' _ =>
      cases row.symm.trans row'
      exact ⟨rfl, rfl⟩
    | scheduleArticle _ _ _ _ _ _ _ _ set' _ => exact absurd rfl set'
  | scheduleArticle id title content deleteAt blog valid row signed set later =>
    cases h' with
    | createArticle => exact absurd rfl set
    | scheduleArticle _ _ _ _ _ _ row' _ _ _ =>
      cases row.symm.trans row'
      exact ⟨rfl, rfl⟩
  | deleteArticle id article valid row signed =>
    cases h' with
    | deleteArticle _ _ _ row' _ =>
      cases row.symm.trans row'
      exact ⟨rfl, rfl⟩
  | cancelDeletion id article task valid row signed waiting =>
    cases h' with
    | cancelDeletion _ _ _ _ row' _ waiting' =>
      cases row.symm.trans row'
      cases waiting.symm.trans waiting'
      exact ⟨rfl, rfl⟩

/-! ### A change after tasks were fired -/

/-- Tasks are fired that are scheduled and that delete other articles than the one a message names.
It is what remains of the condition on deadlines once the tasks are known. -/
structure Aside (σ : Snapshot) (m : Message) (fired : List (TaskId × Task)) : Prop where
  scheduled : ∀ x ∈ fired, σ.tasks.row x.1.number = some x.2
  others : ∀ x ∈ fired, ∀ id, m.article? = some id → x.2.message ≠ .deleteArticle id

namespace Aside

variable (h : σ.Aside m fired)

include h

/-- The article that a message names is not deleted. -/
theorem article (id : RecordId) (hid : m.article? = some id) :
    ¬ ∃ x ∈ fired, x.2.message = .deleteArticle ⟨id.number⟩ := by
  rintro ⟨x, hx, hmessage⟩
  exact h.others x hx id hid hmessage

/-- No article that is yet to come is deleted.  A task names an article that is there, and the next
number belongs to none. -/
theorem articles_next (hσ : σ.Sound) (hnext : σ.articles.HasNext) :
    ¬ ∃ x ∈ fired, x.2.message = .deleteArticle ⟨σ.articles.next⟩ := by
  rintro ⟨x, hx, hmessage⟩
  obtain ⟨id, article, hother, hrow, -⟩ := hσ.awaited _ _ (h.scheduled x hx)
  cases hmessage.symm.trans hother
  exact hσ.articles_numbered.ne_next hnext hrow rfl

/-- No task that is yet to come is fired. -/
theorem tasks_next (hσ : σ.Sound) (hnext : σ.tasks.HasNext) :
    ¬ ∃ x ∈ fired, x.1 = ⟨σ.tasks.next⟩ := by
  rintro ⟨⟨handle, task⟩, hx, rfl⟩
  exact hσ.tasks_numbered.ne_next hnext (h.scheduled _ hx) rfl

end Aside

theorem tasksWithout_afterFiring (σ : Snapshot) (now : Timestamp) (fired : List (TaskId × Task))
    (o : Option TaskId) :
    (σ.afterFiring now fired).tasksWithout o
      = (σ.tasksWithout o).hide fun n => ∃ x ∈ fired, x.1 = ⟨n⟩ := by
  cases o with
  | none => rfl
  | some task => exact (Table.hide_drop _ _).symm

/-- After other tasks were fired a message makes the same change.  The proof has one case for each
kind of message, and each moves the rows it puts past the ones that are hidden. -/
theorem Change.afterFiring (h : Change ctx σ m outcome τ) (hσ : σ.Sound) (hspare : σ.Spare m)
    (haside : σ.Aside m fired) (now : Timestamp) :
    Change ctx (σ.afterFiring now fired) m outcome (τ.afterFiring now fired) := by
  -- What the change reads is still there, and what it does can be exchanged with the firing, since
  -- it names none of the articles that went.
  cases h with
  | createUser username bio valid => exact .createUser username bio valid
  | createBlog title description owner valid signed =>
    exact .createBlog title description owner valid signed
  | changeBlogOwner id newOwner owner blog valid named row signed =>
    exact .changeBlogOwner id newOwner owner blog valid named row signed
  | createArticle id title content blog valid row signed =>
    have hnext := haside.articles_next hσ (hspare .articles trivial)
    have hsame : ∀ article, Snapshot.afterFiring { σ with articles := σ.articles.add article }
        now fired = { σ.afterFiring now fired with
          articles := (σ.afterFiring now fired).articles.add article } :=
      fun article => Snapshot.ext rfl rfl (Table.hide_add hnext article) rfl rfl
    rw [hsame]
    exact .createArticle id title content blog valid row signed
  | scheduleArticle id title content deleteAt blog valid row signed set later =>
    have hnext := haside.articles_next hσ (hspare .articles trivial)
    have hnext' := haside.tasks_next hσ (hspare .tasks set)
    have hsame : ∀ article task, Snapshot.afterFiring { σ with
          articles := σ.articles.add article
          tasks := σ.tasks.add task } now fired
        = { σ.afterFiring now fired with
          articles := (σ.afterFiring now fired).articles.add article
          tasks := (σ.afterFiring now fired).tasks.add task } :=
      fun article task =>
        Snapshot.ext rfl rfl (Table.hide_add hnext article) (Table.hide_add hnext' task) rfl
    rw [hsame]
    exact .scheduleArticle id title content deleteAt blog valid row signed set later
  | deleteArticle id article valid row signed =>
    have hrow : (σ.afterFiring now fired).articles.row id.number = some article :=
      (Table.row_hide (haside.article id rfl)).trans row
    have hsame : (σ.without id article.deletion).afterFiring now fired
        = (σ.afterFiring now fired).without id article.deletion :=
      Snapshot.ext rfl rfl (Table.hide_drop _ _) (tasksWithout_afterFiring σ now fired _).symm rfl
    rw [hsame]
    exact .deleteArticle id article valid hrow signed
  | cancelDeletion id article task valid row signed waiting =>
    have hnumber := haside.article id rfl
    have hrow : (σ.afterFiring now fired).articles.row id.number = some article :=
      (Table.row_hide hnumber).trans row
    have hsame : ∀ spared, Snapshot.afterFiring { σ with
          articles := σ.articles.put id.number spared
          tasks := σ.tasks.drop task.number } now fired
        = { σ.afterFiring now fired with
          articles := (σ.afterFiring now fired).articles.put id.number spared
          tasks := (σ.afterFiring now fired).tasks.drop task.number } :=
      fun spared =>
        Snapshot.ext rfl rfl (Table.hide_put hnumber spared) (Table.hide_drop _ _) rfl
    rw [hsame]
    exact .cancelDeletion id article task valid hrow signed waiting

/-! ### The tasks that are due after a change -/

/-- A message names no article whose deletion is due. -/
def Undue (σ : Snapshot) (m : Message) (now : Timestamp) : Prop :=
  ∀ id article handle task, m.article? = some id → σ.articles.row id.number = some article →
    article.deletion = some handle → σ.tasks.row handle.number = some task → ¬ task.runAt ≤ now

/-- The tasks that are due delete other articles than the one a message names. -/
theorem Undue.aside (h : σ.Undue m now) (hσ : σ.Sound)
    (hfired : ∀ x ∈ fired, σ.tasks.row x.1.number = some x.2 ∧ x.2.runAt ≤ now) :
    σ.Aside m fired where
  scheduled x hx := (hfired x hx).1
  others := by
    intro x hx id hid hmessage
    obtain ⟨hrow, hdue⟩ := hfired x hx
    obtain ⟨other, article, hother, harticle, hwaits⟩ := hσ.awaited _ _ hrow
    cases hmessage.symm.trans hother
    exact h id article x.1 x.2 hid harticle hwaits hrow hdue

/-- A change leaves the tasks that are due.  It may add a task, but one that is due later, and it
may cancel one, but not one that is due. -/
theorem Change.row_tasks_due (h : Change ctx σ m outcome τ) (hσ : σ.Sound) (hspare : σ.Spare m)
    (hundue : σ.Undue m ctx.time) {n : UInt64} {task : Task} (hdue : task.runAt ≤ ctx.time) :
    τ.tasks.row n = some task ↔ σ.tasks.row n = some task := by
  -- The task that an article names is not due, so it does not matter that it is gone.
  have hgone : ∀ id article (o : Option TaskId), m.article? = some id →
      σ.articles.row id.number = some article → article.deletion = o →
      ((σ.tasksWithout o).row n = some task ↔ σ.tasks.row n = some task) := by
    rintro id article o hid hrow rfl
    rw [row_tasksWithout]
    exact and_iff_left_of_imp fun htask hnamed =>
      hundue id article ⟨n⟩ task hid hrow hnamed htask hdue
  cases h with
  | createUser | createBlog | changeBlogOwner | createArticle => exact Iff.rfl
  | scheduleArticle id title content deleteAt blog valid row signed set later =>
    constructor
    · intro hrow
      rcases Table.row_add_eq_some hrow with ⟨-, rfl⟩ | hold
      · exact absurd later (Timestamp.not_lt.2 hdue)
      · exact hold
    · exact fun hrow => hσ.tasks_numbered.row_add_of_row (hspare .tasks set) hrow _
  | deleteArticle id article valid row signed => exact hgone id article _ rfl row rfl
  | cancelDeletion id article task valid row signed waiting =>
    exact hgone id article (some task) rfl row waiting

/-- A change leaves the list of the tasks that are due, in the same order, so the same ones are
within the limit of the tick. -/
theorem Change.lists_due (h : Change ctx σ m outcome τ) (hσ : σ.Sound) (hspare : σ.Spare m)
    (hundue : σ.Undue m ctx.time)
    (hdue : Schedule.Lists σ.tasks (fun task => task.runAt ≤ ctx.time) due) :
    Schedule.Lists τ.tasks (fun task => task.runAt ≤ ctx.time) due where
  ordered := hdue.ordered
  mem_iff := by
    intro id task
    rw [hdue.mem_iff, and_congr_left_iff]
    exact fun hpassed => (h.row_tasks_due hσ hspare hundue hpassed).symm

end Snapshot

/-- A check looks only at blogs and at the article that the message names.  Firing tasks leaves all
of these, and so the transaction is refused or accepted as before. -/
theorem Handler.check_congr {s t : KeySpace} (ctx : Context) (m : Message)
    (hblogs : ∀ id, Bucket.blogs.get id s = Bucket.blogs.get id t)
    (harticle : ∀ id, m.article? = some id →
      Bucket.articles.get id s = Bucket.articles.get id t) :
    (Handler.submitted m.kind).check ctx m s = (Handler.submitted m.kind).check ctx m t := by
  have hblog : ∀ id, Blogs.mustGet id s = Blogs.mustGet id t := by
    intro id
    unfold Blogs.mustGet Bucket.mustGet
    rw [hblogs]
  have hnamed : ∀ id, m.article? = some id → Articles.mustGet id s = Articles.mustGet id t := by
    intro id hid
    unfold Articles.mustGet Bucket.mustGet
    rw [harticle id hid]
  cases m with
  | createUser | createBlog => rfl
  | changeBlogOwner id newOwner =>
    simp only [Message.kind, check, handedBlog, hblog]
  | createArticle id title content deleteAt =>
    simp only [Message.kind, check, newArticle, hblog]
  | deleteArticle id =>
    simp only [Message.kind, check, doomedArticle, hnamed id rfl]
  | cancelDeletion id =>
    simp only [Message.kind, check, sparedArticle, hnamed id rfl]

namespace Ledger

/-- A message names no article whose deletion is due at a time. -/
def Undue (l : Ledger) (m : Message) (now : Timestamp) : Prop :=
  ∀ id article handle task, m.article? = some id →
    Articles.get id l.store = .ok (some article) → article.deletion = some handle →
    Schedule.task? handle l.store = .ok (some task) → ¬ task.runAt ≤ now

/-- The journal, where the only storage faults are, takes every record of a call.  A ledger without
a journal meets this at once. -/
def Untroubled (l : Ledger) : Call → Prop
  | .check _ => True
  | .deliver tx => ∀ fault, (l.deliver tx).result ≠ .error (.of (.storage fault))
  | .tick now limit => l.Faultless now limit

/-- A transaction and a tick at the time of the transaction give the same in either order.  The
number of tasks still pending is left out of the comparison of the reports, since a tick that comes
second counts a task that the transaction has added or cancelled. -/
structure Commute (l : Ledger) (tx : Transaction) (limit : Nat) : Prop where
  /-- The transaction is accepted with the same outcome or refused with the same failure. -/
  outcome_eq :
    (((l.limited limit).tick tx.time).ledger.deliver tx).result = (l.deliver tx).result
  /-- The tick fires the same tasks in the same order, or is refused with the same failure. -/
  fired_eq : (((l.deliver tx).ledger.limited limit).tick tx.time).result.map TickReport.fired
    = ((l.limited limit).tick tx.time).result.map TickReport.fired
  store_eq : (l.after [.deliver tx, .tick tx.time limit]).store
    = (l.after [.tick tx.time limit, .deliver tx]).store

variable {l : Ledger} {σ : Snapshot} {tx : Transaction} {limit : Nat}

/-- A transaction whose record the journal takes is refused as it is priced and changes nothing, or
it is accepted and makes its change.  It is the form in which a transaction is used twice below,
before and after the tick. -/
theorem Shows.deliver_untroubled (h : l.Shows σ) (hspare : σ.Spare tx.message)
    (hjournal : l.Untroubled (.deliver tx)) :
    (∃ f, l.price tx = .error f ∧ (l.deliver tx).result = .error f
        ∧ (l.deliver tx).ledger.store = l.store)
    ∨ ∃ cost outcome τ, l.price tx = .ok cost ∧ (l.deliver tx).result = .ok outcome
        ∧ Snapshot.Change tx.context σ tx.message outcome τ
        ∧ (l.deliver tx).ledger.Shows { τ with time := tx.time } := by
  cases hprice : l.price tx with
  | error f =>
    obtain ⟨hresult, hstore, -⟩ := deliver_of_prepare_error (prepare_error hprice)
    exact .inl ⟨f, rfl, hresult, hstore⟩
  | ok cost =>
    obtain ⟨-, outcome, -, s, -, hprepare, -, -⟩ := prepare_of_price h hspare hprice
    cases hcommit : (l.commit s.pending).result with
    | ok _ =>
      have hresult := deliver_of_prepare_ok hprepare hcommit
      obtain ⟨-, τ, hchange, hshows⟩ := h.deliver_ok hspare hresult
      exact .inr ⟨cost, outcome, τ, rfl, hresult, hchange, hshows⟩
    | error f =>
      obtain ⟨⟨fault, rfl⟩, -⟩ := commit_error hcommit
      exact absurd (deliver_of_commit_error hprepare hcommit) (hjournal fault)

/-- After other tasks were fired a transaction is priced as before. -/
theorem Shows.price_afterFiring {l' : Ledger} {fired : List (TaskId × Task)} (h : l.Shows σ)
    (h' : l'.Shows (σ.afterFiring tx.time fired)) (haside : σ.Aside tx.message fired)
    (hensure : l.ensureTime tx.time = .ok ()) : l'.price tx = l.price tx := by
  obtain ⟨husable, hle⟩ := h.ensureTime_iff.1 hensure
  have hensure' : l'.ensureTime tx.time = .ok () :=
    h'.ensureTime_iff.2 ⟨husable, Snapshot.time_afterFiring_le hle⟩
  rw [price_eq, price_eq, hensure, hensure']
  refine Handler.check_congr _ _ (fun id => ?_) (fun id hid => ?_)
  · rw [h.stored.blogs.get, h'.stored.blogs.get]
    rfl
  · have hrow : (σ.afterFiring tx.time fired).articles.row id.number = σ.articles.row id.number :=
      Table.row_hide (haside.article id hid)
    rw [h.stored.articles.get, h'.stored.articles.get, Table.row_map, Table.row_map, hrow]

/-- At a refused time a transaction and a tick are both refused, and nothing changes.  They share
the time, and so they share the refusal. -/
theorem commute_of_ensureTime_error {f : Failure} (hensure : l.ensureTime tx.time = .error f) :
    l.Commute tx limit := by
  have hrefused : ∀ {l' : Ledger}, l'.ensureTime tx.time = .error f →
      (l'.deliver tx).result = .error f ∧ (l'.deliver tx).ledger.store = l'.store := by
    intro l' hensure'
    have hprice : l'.price tx = .error f := by
      rw [price_eq, hensure']
      rfl
    obtain ⟨hresult, hstore, -⟩ := deliver_of_prepare_error (prepare_error hprice)
    exact ⟨hresult, hstore⟩
  have hlimited : (l.limited limit).ensureTime tx.time = .error f := hensure
  obtain ⟨hresult, hstore⟩ := hrefused hensure
  obtain ⟨hresult', hstore'⟩ := hrefused hlimited
  have hafter : ((l.deliver tx).ledger.limited limit).ensureTime tx.time = .error f :=
    (ensureTime_congr hstore _).trans hensure
  have htick := (tick_error hlimited).1
  have htick' := (tick_error hafter).1
  refine ⟨?_, ?_, ?_⟩
  · rw [htick, hresult, hresult']
  · rw [htick, htick']
  · show (((l.deliver tx).ledger.limited limit).tick tx.time).ledger.store
      = (((l.limited limit).tick tx.time).ledger.deliver tx).ledger.store
    rw [htick, htick']
    exact hstore.trans hstore'.symm

/-- A tick that the journal takes reports the first tasks that are due. -/
theorem Shows.fired_of_tick {due : List (TaskId × Task)} {now : Timestamp} (h : l.Shows σ)
    (hensure : l.ensureTime now = .ok ())
    (hdue : Schedule.Lists σ.tasks (fun task => task.runAt ≤ now) due)
    (hjournal : l.Untroubled (.tick now limit)) :
    ((l.limited limit).tick now).result.map TickReport.fired
        = .ok ((due.take limit).map Firing.success)
      ∧ ((l.limited limit).tick now).ledger.Shows (σ.afterFiring now (due.take limit)) := by
  obtain ⟨⟨report, hresult, hfired⟩, hshows⟩ := h.tick_take hensure hdue hjournal
  refine ⟨?_, hshows⟩
  rw [hresult, ← hfired]
  rfl

theorem last_afterFiring (σ : Snapshot) (now : Timestamp) (fired : List (TaskId × Task))
    (q : Sequence) : (σ.afterFiring now fired).last q = σ.last q := by
  cases q <;> rfl

/-- A transaction and a tick at its time commute, where the journal takes what they write.  It is
stated for a ledger that shows a snapshot, and the result on reachable ledgers is a case of it. -/
theorem Shows.commute (h : l.Shows σ) (hspare : σ.Spare tx.message)
    (hundue : σ.Undue tx.message tx.time) (hdeliver : l.Untroubled (.deliver tx))
    (hthen : (l.deliver tx).ledger.Untroubled (.tick tx.time limit))
    (htick : l.Untroubled (.tick tx.time limit))
    (hthen' : ((l.limited limit).tick tx.time).ledger.Untroubled (.deliver tx)) :
    l.Commute tx limit := by
  cases hensure : l.ensureTime tx.time with
  | error f => exact commute_of_ensureTime_error hensure
  | ok _ =>
    obtain ⟨husable, hle⟩ := h.ensureTime_iff.1 hensure
    obtain ⟨due, hdue, -⟩ := h.tick_due hensure
    obtain ⟨hfired, hticked⟩ := h.fired_of_tick hensure hdue htick
    have haside : σ.Aside tx.message (due.take limit) :=
      hundue.aside h.sound fun x hx => (hdue.mem_iff x.1 x.2).1 (List.mem_of_mem_take hx)
    have hprice := h.price_afterFiring hticked haside hensure
    have hspare' : (σ.afterFiring tx.time (due.take limit)).Spare tx.message := by
      intro q hq
      rw [last_afterFiring]
      exact hspare q hq
    rcases h.deliver_untroubled hspare hdeliver with
        ⟨f, hrefused, hresult, hstore⟩ | ⟨cost, outcome, τ, haccepted, hresult, hchange, hshows⟩
    · -- A refused transaction leaves the ledger, and is refused after the tick as well.
      obtain ⟨hresult', hstore', -⟩ :=
        deliver_of_prepare_error (prepare_error (hprice.trans hrefused))
      have hensure' := (ensureTime_congr hstore tx.time).trans hensure
      obtain ⟨hfired', hticked'⟩ := (h.of_store_eq hstore).fired_of_tick hensure' hdue hthen
      exact ⟨hresult'.trans hresult.symm, hfired'.trans hfired.symm,
        (hticked'.store_eq hticked).trans hstore'.symm⟩
    · -- An accepted one makes the same change after the tick, and leaves the tick what it fires.
      rcases hticked.deliver_untroubled hspare' hthen' with
          ⟨f, hrefused, -, -⟩ | ⟨-, outcome', τ', -, hresult', hchange', hshows'⟩
      · cases (hprice.trans haccepted).symm.trans hrefused
      · obtain ⟨rfl, rfl⟩ := hchange'.unique
          (hchange.afterFiring h.sound hspare haside tx.time)
        have hensure' : (l.deliver tx).ledger.ensureTime tx.time = .ok () :=
          hshows.ensureTime_iff.2 ⟨husable, Timestamp.le_refl _⟩
        obtain ⟨hfired', hticked'⟩ := hshows.fired_of_tick hensure'
          (hchange.lists_due h.sound hspare hundue hdue) hthen
        have hsame : Snapshot.afterFiring { τ with time := tx.time } tx.time (due.take limit)
            = { τ.afterFiring tx.time (due.take limit) with time := tx.time } :=
          Snapshot.ext rfl rfl rfl rfl (ite_self _)
        rw [hsame] at hticked'
        exact ⟨hresult'.trans hresult.symm, hfired'.trans hfired.symm,
          hticked'.store_eq hshows'⟩

/-- A transaction and a tick at its time commute, unless the transaction names an article whose
deletion is due. -/
theorem deliver_tick_commute (h : l.Reachable) (hnext : ∀ q, tx.message.Takes q → l.HasNext q)
    (hundue : l.Undue tx.message tx.time) (hdeliver : l.Untroubled (.deliver tx))
    (hthen : (l.deliver tx).ledger.Untroubled (.tick tx.time limit))
    (htick : l.Untroubled (.tick tx.time limit))
    (hthen' : ((l.limited limit).tick tx.time).ledger.Untroubled (.deliver tx)) :
    l.Commute tx limit := by
  refine h.shows.commute (fun q hq => (h.shows.hasNext_iff q).1 (hnext q hq)) ?_ hdeliver hthen
    htick hthen'
  intro id article handle task hid hrow hnamed htask
  exact hundue id article handle task hid (h.shows.get_article_iff.2 hrow) hnamed
    (h.shows.task?_iff.2 htask)

/-! ### A sample -/

theorem untroubled_of_isOk (h : (l.deliver tx).result.isOk = true) :
    l.Untroubled (.deliver tx) := by
  intro fault herror
  rw [herror] at h
  cases h

/-- An article with a deadline is posted when the deletion of another one is due. -/
def sampleArticle : Transaction :=
  ⟨⟨900⟩, some sampleOwner, .createArticle ⟨1⟩ "Spring" "It was warm." ⟨950⟩⟩

theorem deliver_tick_commute_sample :
    sample.Reachable ∧ (∀ q, sample.HasNext q) ∧ sample.Undue sampleArticle.message ⟨900⟩
      ∧ (((sample.limited 1).tick ⟨900⟩).result.toOption.map (·.fired.length)) = some 1
      ∧ sample.Commute sampleArticle 1 := by
  have hundue : sample.Undue sampleArticle.message ⟨900⟩ := nofun
  have hfired : ((sample.limited 1).tick ⟨900⟩).result.toOption.map (·.fired.length) = some 1 := by
    decide +kernel
  obtain ⟨hdeliver, hthen, htick, hthen'⟩ :
      (sample.deliver sampleArticle).result.isOk = true
        ∧ ((((sample.deliver sampleArticle).ledger.limited 1).tick ⟨900⟩).result.isOk = true)
        ∧ ((sample.limited 1).tick ⟨900⟩).result.isOk = true
        ∧ ((((sample.limited 1).tick ⟨900⟩).ledger.deliver sampleArticle).result.isOk = true) := by
    decide +kernel
  exact ⟨sample_reachable, sample_hasNext, hundue, hfired,
    deliver_tick_commute sample_reachable (fun q _ => sample_hasNext q) hundue
      (untroubled_of_isOk hdeliver) (faultless_of_isOk hthen) (faultless_of_isOk htick)
      (untroubled_of_isOk hthen')⟩

end Ledger

end BlogLedger
