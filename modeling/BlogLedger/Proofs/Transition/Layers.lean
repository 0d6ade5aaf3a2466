import BlogLedger.Proofs.Edit
import BlogLedger.Transition.Handler

/-!
# Transitions on a layer

Whatever a message asks for, its handler writes on the uppermost layer alone, in success and in
failure.

A ledger runs a message on a layer of its own and drops the layer when the message is refused.  For
this a handler must neither take the layer off nor change what lies below it.  Every handler is
followed line by line, and nothing is assumed of the store.

## Main Results

* `Bucket.stays_save`, `Bucket.stays_create`, `Bucket.stays_delete` — for records and indexes.
* `Schedule.stays_add`, `Schedule.stays_take` — for the schedule.
* `Handler.stays_deliver` — for every handler.
-/

namespace BlogLedger

open Edit (Stays)

namespace Bucket

variable (b : Bucket) (id : RecordId)

theorem stays_addRef (index : String) (value : Bytes) : (b.addRef id index value).Stays :=
  .bind (.look _) fun _ => .set _ _

theorem stays_removeRef (index : String) (value : Bytes) : (b.removeRef id index value).Stays := by
  refine .bind (.look _) fun ids => ?_
  cases IdList.remove? id ids with
  | none => exact .ofExcept _
  | some rest =>
    cases rest with
    | nil => exact .delete _
    | cons _ _ => exact .set _ _

theorem stays_applyChanges (changes : List Change) : (b.applyChanges id changes).Stays := by
  induction changes with
  | nil => exact .pure _
  | cons c rest ih =>
    have hadded : ∀ value, (b.addRef id c.index value >>= fun _ => b.applyChanges id rest).Stays :=
      fun value => .bind (b.stays_addRef id c.index value) fun _ => ih
    unfold applyChanges
    cases c.old with
    | none =>
      cases c.new with
      | none => exact ih
      | some value => exact hadded value
    | some value =>
      refine .bind (b.stays_removeRef id c.index value) fun _ => ?_
      cases c.new with
      | none => exact ih
      | some value => exact hadded value

theorem stays_save (r : Record) : (b.save id r).Stays := by
  refine .bind (.ofExcept _) fun _ => .bind (.ofExcept _) fun _ => .bind (.look _) fun old => ?_
  exact .bind (.ofExcept _) fun changes => .bind (.set _ _) fun _ => b.stays_applyChanges id changes

theorem stays_nextId : b.nextId.Stays :=
  .bind (.look _) fun _ => .bind (.set _ _) fun _ => .pure _

theorem stays_create (r : Record) : (b.create r).Stays := by
  refine .bind (.ofExcept _) fun _ => .bind (.ofExcept _) fun _ => .bind (.ofExcept _) fun _ => ?_
  exact .bind b.stays_nextId fun id => .bind (b.stays_save id r) fun _ => .pure _

theorem stays_delete : (b.delete id).Stays := by
  refine .bind (.look _) fun old => .bind (.ofExcept _) fun changes => ?_
  exact .bind (.delete _) fun _ => b.stays_applyChanges id changes

end Bucket

namespace Schedule

theorem stays_nextId : nextId.Stays :=
  .bind (.look _) fun _ => .bind (.set _ _) fun _ => .pure _

theorem stays_add (runAt : Timestamp) (message : Message) : (add runAt message).Stays := by
  refine .bind (.ofExcept _) fun _ => .bind stays_nextId fun id => ?_
  exact .bind (.set _ _) fun _ => .bind (.set _ _) fun _ => .pure _

theorem stays_take (id : TaskId) : (take id).Stays := by
  refine .bind (.look _) fun found => ?_
  cases found with
  | none => exact .pure _
  | some task =>
    refine .bind (.delete _) fun _ => .bind (.ofExcept _) fun _ => ?_
    exact .bind (.delete _) fun _ => .pure _

theorem stays_cancel (id : TaskId) : (cancel id).Stays := by
  refine .bind (stays_take id) fun taken => ?_
  cases taken with
  | none => exact .ofExcept _
  | some _ => exact .pure _

end Schedule

namespace Handler

variable (ctx : Context) (m : Message)

theorem stays_cancelTask (id : RecordId) (task : Option TaskId) : (cancelTask id task).Stays := by
  cases task with
  | none => exact .pure _
  | some task => exact .within _ (Schedule.stays_cancel task)

theorem stays_createArticle : (createArticle ctx m).Stays := by
  refine .bind (.look _) fun article => .bind (Bucket.stays_create _ _) fun id => ?_
  cases article.deleteAt with
  | none => exact .pure _
  | some deadline =>
    refine .bind (.within _ (Schedule.stays_add _ _)) fun task => ?_
    exact .bind (Bucket.stays_save _ _ _) fun _ => .pure _

theorem stays_fireDeletion : (fireDeletion ctx m).Stays := by
  refine .bind (.ofExcept _) fun asked => .bind (.look _) fun found => ?_
  cases found with
  | none => exact .pure _
  | some article =>
    dsimp only
    split
    · exact .pure _
    · exact .bind (Bucket.stays_delete _ _) fun _ => .pure _

/-- A handler writes on the uppermost layer alone.  Committing the layer or dropping it is left to
the ledger. -/
theorem stays_deliver (h : Handler) : (h.deliver ctx m).Stays := by
  cases h with
  | submitted kind =>
    cases kind with
    | createUser => exact .bind (.ofExcept _) fun _ => .bind (Bucket.stays_create _ _) fun _ => .pure _
    | createBlog => exact .bind (.ofExcept _) fun _ => .bind (Bucket.stays_create _ _) fun _ => .pure _
    | changeBlogOwner => exact .bind (.look _) fun _ => .bind (Bucket.stays_save _ _ _) fun _ => .pure _
    | createArticle => exact stays_createArticle ctx m
    | deleteArticle =>
      refine .bind (.look _) fun _ => .bind (stays_cancelTask _ _) fun _ => ?_
      exact .bind (Bucket.stays_delete _ _) fun _ => .pure _
    | cancelDeletion =>
      refine .bind (.look _) fun _ => .bind (stays_cancelTask _ _) fun _ => ?_
      exact .bind (Bucket.stays_save _ _ _) fun _ => .pure _
  | firedDeletion => exact stays_fireDeletion ctx m

end Handler

end BlogLedger
