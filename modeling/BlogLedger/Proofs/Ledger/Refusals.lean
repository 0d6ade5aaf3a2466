import BlogLedger.Proofs.Ledger.Deliver

/-!
# Refusals

A check looks at a transaction, at its time and at the records that it names.  Whatever it finds fault
with, the failure is not fatal, as long as the store holds a sound snapshot.

A fatal failure means that the data is damaged, not that somebody asked for the wrong thing.  That a
sound ledger never answers a check with one is what lets every refusal be read as a verdict on the
transaction.  It is shown by walking through the checks with `Mild`, which passes through every
combinator that they are written with.

## Main Definitions

* `Mild` — a result that is no fatal failure.

## Main Results

* `Handler.mild_check` — no message of an account fails its check fatally.
* `Ledger.Shows.mild_price` — nor does a transaction.
-/

namespace BlogLedger

/-- A result that is no fatal failure.  It is stated for results of all kinds, since a check is put
together from reads, validations and questions of authority. -/
def Mild {α : Type} (x : Except Failure α) : Prop := ∀ f, x = .error f → f.isFatal = false

/-! ### Results that are no fatal failures -/

namespace Mild

variable {α β : Type} {x : Except Failure α}

theorem of_ok {a : α} (h : x = .ok a) : Mild x := by
  intro f herror
  cases h.symm.trans herror

theorem of_fail {cause : Cause} (h : (Failure.of cause).isFatal = false) :
    Mild (fail cause : Except Failure α) := by
  intro f herror
  cases herror
  exact h

/-- Results in a row are mild when each one is.  Every check is such a row, so this is the lemma
that the rest of the module applies again and again. -/
theorem bind (hx : Mild x) {g : α → Except Failure β} (hg : ∀ a, Mild (g a)) : Mild (x >>= g) := by
  cases x with
  | error f =>
    intro f' herror
    cases herror
    exact hx f rfl
  | ok a => exact hg a

theorem map (hx : Mild x) (g : α → β) : Mild (x.map g) :=
  fun f herror => hx f (Except.map_eq_error.1 herror)

/-- The activity around a failure does not make it fatal: it is text that is added to the message,
while the cause stays the same. -/
theorem within (hx : Mild x) (activity : String) : Mild (within activity x) := by
  cases x with
  | error f =>
    intro f' herror
    cases herror
    exact hx f rfl
  | ok a => exact of_ok rfl

end Mild

/-! ### The parts of a check -/

theorem Message.mild_validate (m : Message) : Mild m.validate := by
  unfold validate
  cases m.flaws with
  | nil => exact .of_ok rfl
  | cons first rest => exact .of_fail rfl

theorem Message.mild_newOwner (text : String) : Mild (newOwner text) := by
  unfold newOwner Address.orFail
  cases Address.read text with
  | error fault => exact .of_fail rfl
  | ok address => exact .of_ok rfl

theorem Caller.mild_requireSigner (c : Caller) : Mild c.requireSigner := by
  unfold requireSigner
  cases c.signer? with
  | none => exact .of_fail rfl
  | some owner => exact .of_ok rfl

theorem Caller.mild_requireOwner (c : Caller) (owner : Address) (action : String) :
    Mild (c.requireOwner owner action) := by
  unfold requireOwner
  split
  · exact .of_ok rfl
  · exact .of_fail rfl

theorem Handler.mild_checkDeadline (now : Timestamp) (deadline : Option Timestamp) :
    Mild (checkDeadline now deadline) := by
  cases deadline with
  | none => exact .of_ok rfl
  | some deadline =>
    unfold checkDeadline
    dsimp only
    split
    · exact .of_fail rfl
    · exact .of_ok rfl

/-- A record that is looked up is found and of its kind, or it does not exist.  On a bucket that
holds a table it cannot be undecodable or of another kind, and these are the failures that would be
fatal. -/
theorem Bucket.Holds.mild_mustGet {α : Type} {b : Bucket} {t : Table α} {toRecord : α → Record}
    {s : KeySpace} (h : b.Holds (t.map toRecord) s) {ofRecord : Record → Except Failure α}
    (hread : ∀ a, ofRecord (toRecord a) = .ok a) (id : RecordId) :
    Mild (b.mustGet id s >>= ofRecord) := by
  cases hrow : t.row id.number with
  | none =>
    rw [h.mustGet_none (by rw [Table.row_map, hrow]; rfl)]
    exact .of_fail rfl
  | some a =>
    rw [h.mustGet_some (by rw [Table.row_map, hrow]; rfl)]
    exact .of_ok (hread a)

section Stored

variable {σ : Snapshot} {s : KeySpace} (hs : σ.Stored s)
include hs

theorem Snapshot.Stored.mild_blog (id : RecordId) : Mild (Blogs.mustGet id s) :=
  hs.blogs.mild_mustGet (fun _ => rfl) id

theorem Snapshot.Stored.mild_article (id : RecordId) : Mild (Articles.mustGet id s) :=
  hs.articles.mild_mustGet (fun _ => rfl) id

/-! ### Checks -/

/-- No message of an account fails its check fatally.  There is one case for each kind of message,
and each is a row of validations, reads and questions of authority. -/
theorem Handler.mild_check (ctx : Context) (m : Message) :
    Mild ((submitted m.kind).check ctx m s) := by
  have hvalid := m.mild_validate
  cases m with
  | createUser username bio => exact (hvalid.bind fun _ => .of_ok rfl).map _
  | createBlog title description =>
    refine .map (hvalid.bind fun _ => ?_) _
    exact ctx.caller.mild_requireSigner.bind fun _ => .of_ok rfl
  | changeBlogOwner id newOwner =>
    refine .map (hvalid.bind fun _ => (Message.mild_newOwner newOwner).bind fun owner => ?_) _
    refine ((hs.mild_blog id).within _).bind fun blog => ?_
    exact (ctx.caller.mild_requireOwner blog.owner _).bind fun _ => .of_ok rfl
  | createArticle id title content deleteAt =>
    refine .map (hvalid.bind fun _ => ((hs.mild_blog id).within _).bind fun blog => ?_) _
    refine (ctx.caller.mild_requireOwner blog.owner _).bind fun _ => ?_
    exact (mild_checkDeadline ctx.time _).bind fun _ => .of_ok rfl
  | deleteArticle id =>
    refine .map (hvalid.bind fun _ => ((hs.mild_article id).within _).bind fun article => ?_) _
    exact (ctx.caller.mild_requireOwner article.owner _).bind fun _ => .of_ok rfl
  | cancelDeletion id =>
    refine .map (hvalid.bind fun _ => ((hs.mild_article id).within _).bind fun article => ?_) _
    refine (ctx.caller.mild_requireOwner article.owner _).bind fun _ => ?_
    split
    · exact .of_ok rfl
    · exact .of_fail rfl

end Stored

namespace Ledger

variable {l : Ledger} {σ : Snapshot}

theorem Shows.mild_ensureTime (h : l.Shows σ) (time : Timestamp) : Mild (l.ensureTime time) := by
  unfold ensureTime
  split
  · exact .of_fail rfl
  · split
    · exact .of_fail rfl
    · refine .bind (.of_ok h.lastTime) fun last => ?_
      split
      · exact .of_fail rfl
      · exact .of_ok rfl

/-- No transaction fails its check fatally.  The stored time is read here as well; on a sound store
it has its eight bytes. -/
theorem Shows.mild_price (h : l.Shows σ) (tx : Transaction) : Mild (l.price tx) := by
  rw [price_eq]
  exact (h.mild_ensureTime tx.time).bind fun _ => Handler.mild_check h.stored tx.context tx.message

end Ledger

end BlogLedger
