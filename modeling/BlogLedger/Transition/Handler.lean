import BlogLedger.Collections
import BlogLedger.Schedule
import BlogLedger.Transition.Transaction

/-!
# Handlers

How each message is answered.  A check says whether a message would be accepted and what it costs; a
delivery makes the change.  Both begin with the same validation, which only looks.

## Main Definitions

* `Handler` — the handler of a message of an account, or of a deletion fired by the scheduler.
* `Handler.check` — the cost of a message.
* `Handler.deliver` — the change that a message makes.

## Design Notes

A check looks at what a delivery looks at and stops there, so both refuse in the same words.  On a
store that is in order, what a delivery does afterwards goes through.
-/

namespace BlogLedger

/-- Who answers a message. -/
inductive Handler where
  /-- Answers a message that an account submits. -/
  | submitted (kind : Message.Kind)
  /-- Answers the deletion of an article that the scheduler fires. -/
  | firedDeletion
  deriving DecidableEq, Repr

namespace Handler

/-- Refuse a message of another kind than the one expected. -/
def refuse {α : Type} (expected : Message.Kind) (got : Message) : Except Failure α :=
  fail (.wrongMessage expected.path got.path)

/-! ### Users -/

/-- The user that a message registers. -/
def newUser (ctx : Context) (m : Message) : Except Failure User :=
  match m with
  | .createUser username bio => do
    m.validate
    return ⟨username, Message.givenBio bio, ctx.time⟩
  | _ => refuse .createUser m

/-! ### Blogs -/

/-- The blog that a message creates; the signer owns it. -/
def newBlog (ctx : Context) (m : Message) : Except Failure Blog :=
  match m with
  | .createBlog title description => do
    m.validate
    let owner ← ctx.caller.requireSigner
    return ⟨owner, title, description, ctx.time⟩
  | _ => refuse .createBlog m

/-- The blog that a message hands over, under its new owner; only the owner may do so. -/
def handedBlog (ctx : Context) (m : Message) (s : KeySpace) : Except Failure (RecordId × Blog) :=
  match m with
  | .changeBlogOwner id newOwner => do
    m.validate
    let owner ← Message.newOwner newOwner
    let blog ← within "cannot change blog owner" (Blogs.mustGet id s)
    ctx.caller.requireOwner blog.owner "change the blog owner"
    return (id, blog.withOwner owner)
  | _ => refuse .changeBlogOwner m

/-! ### Articles -/

/-- Refuse a deadline that is not after the time of the transition. -/
def checkDeadline (now : Timestamp) : Option Timestamp → Except Failure Unit
  | some deadline => if deadline ≤ now then fail (.deadlinePassed deadline now) else .ok ()
  | none => .ok ()

/-- The article that a message posts under a blog; only the owner of the blog may do so. -/
def newArticle (ctx : Context) (m : Message) (s : KeySpace) : Except Failure Article :=
  match m with
  | .createArticle id title content deleteAt => do
    m.validate
    let blog ← within "cannot post article" (Blogs.mustGet id s)
    ctx.caller.requireOwner blog.owner "post an article under this blog"
    checkDeadline ctx.time (Message.deadline deleteAt)
    return ⟨id, blog.owner, title, content, ctx.time, Message.deadline deleteAt, none⟩
  | _ => refuse .createArticle m

/-- The article that a message deletes; only its owner may do so.  The owner of its blog may be
someone else by now. -/
def doomedArticle (ctx : Context) (m : Message) (s : KeySpace) :
    Except Failure (RecordId × Article) :=
  match m with
  | .deleteArticle id => do
    m.validate
    let article ← within "cannot delete article" (Articles.mustGet id s)
    ctx.caller.requireOwner article.owner "delete this article"
    return (id, article)
  | _ => refuse .deleteArticle m

/-- The article whose scheduled deletion a message cancels; only its owner may do so. -/
def sparedArticle (ctx : Context) (m : Message) (s : KeySpace) :
    Except Failure (RecordId × Article) :=
  match m with
  | .cancelDeletion id => do
    m.validate
    let article ← within "cannot cancel deletion" (Articles.mustGet id s)
    ctx.caller.requireOwner article.owner
      ("cancel this article" ++ Quoted.apostrophe.toString ++ "s deletion")
    if article.hasScheduledDeletion then return (id, article) else fail (.noDeletion id)
  | _ => refuse .cancelDeletion m

/-- The article and the task of a deletion that the scheduler fires. -/
def firedArticle (ctx : Context) (m : Message) : Except Failure (RecordId × TaskId) :=
  match m with
  | .deleteArticle id =>
    match ctx.caller.firingTask? with
    | none => fail .notScheduler
    | some task => do
      m.validate
      return (id, task)
  | _ => refuse .deleteArticle m

/-! ### Checking -/

/-- How many bytes of content cost one unit.  It is bytes that are counted and not characters. -/
def costUnit : Nat := 1000

/-- What posting an article costs. -/
def articleCost (a : Article) : Nat := a.content.utf8ByteSize / costUnit

/-- What a message costs, if it would be accepted. -/
def check (h : Handler) (ctx : Context) (m : Message) (s : KeySpace) : Except Failure Nat :=
  match h with
  | .submitted .createUser => (newUser ctx m).map fun _ => 1
  | .submitted .createBlog => (newBlog ctx m).map fun _ => 10
  | .submitted .changeBlogOwner => (handedBlog ctx m s).map fun _ => 5
  | .submitted .createArticle => (newArticle ctx m s).map articleCost
  | .submitted .deleteArticle => (doomedArticle ctx m s).map fun _ => 0
  | .submitted .cancelDeletion => (sparedArticle ctx m s).map fun _ => 0
  | .firedDeletion => (firedArticle ctx m).map fun _ => 0

/-! ### Delivering -/

/-- Register a user. -/
def createUser (ctx : Context) (m : Message) : Edit Outcome := do
  let user ← .ofExcept (newUser ctx m)
  return .on .created (← Bucket.users.create (.user user))

/-- Create a blog. -/
def createBlog (ctx : Context) (m : Message) : Edit Outcome := do
  let blog ← .ofExcept (newBlog ctx m)
  return .on .created (← Bucket.blogs.create (.blog blog))

/-- Hand a blog to a new owner; its articles keep theirs. -/
def changeBlogOwner (ctx : Context) (m : Message) : Edit Outcome := do
  let (id, blog) ← .look (handedBlog ctx m)
  Bucket.blogs.save id (.blog blog)
  return .on .updated id

/-- Post an article and schedule its deletion, if it has a deadline.  The task names the article and
the article names the task, so the article is written a second time when the task has its number. -/
def createArticle (ctx : Context) (m : Message) : Edit Outcome := do
  let article ← .look (newArticle ctx m)
  let id ← Bucket.articles.create (.article article)
  match article.deleteAt with
  | none => return .on .created id
  | some deadline =>
    let task ← Edit.within ("cannot schedule deletion of article " ++ id.display)
      (Schedule.add deadline (.deleteArticle id))
    Bucket.articles.save id (.article { article with deletion := some task })
    return { Outcome.on .created id with scheduled := some task }

/-- Cancel the scheduled deletion of an article, if there is one. -/
def cancelTask (id : RecordId) : Option TaskId → Edit Unit
  | some task =>
    Edit.within ("cannot cancel deletion task of article " ++ id.display) (Schedule.cancel task)
  | none => return

/-- Delete an article and cancel its scheduled deletion. -/
def deleteArticle (ctx : Context) (m : Message) : Edit Outcome := do
  let (id, article) ← .look (doomedArticle ctx m)
  cancelTask id article.deletion
  Bucket.articles.delete id
  return { Outcome.on .deleted id with cancelled := article.deletion }

/-- Cancel the scheduled deletion of an article and keep the article. -/
def cancelDeletion (ctx : Context) (m : Message) : Edit Outcome := do
  let (id, article) ← .look (sparedArticle ctx m)
  cancelTask id article.deletion
  Bucket.articles.save id (.article { article with deletion := none })
  return { Outcome.on .updated id with cancelled := article.deletion }

/-- Delete an article that still waits for the task being fired; otherwise do nothing.  The article
may be gone or have been spared, and then the task is out of date and this is no failure. -/
def fireDeletion (ctx : Context) (m : Message) : Edit Outcome := do
  let (id, task) ← .ofExcept (firedArticle ctx m)
  match ← .look (Articles.get id) with
  | none => return .unchanged
  | some article =>
    if article.deletion ≠ some task then return .unchanged
    Bucket.articles.delete id
    return .on .deleted id

/-- Make the change that a message asks for. -/
def deliver (h : Handler) (ctx : Context) (m : Message) : Edit Outcome :=
  match h with
  | .submitted .createUser => createUser ctx m
  | .submitted .createBlog => createBlog ctx m
  | .submitted .changeBlogOwner => changeBlogOwner ctx m
  | .submitted .createArticle => createArticle ctx m
  | .submitted .deleteArticle => deleteArticle ctx m
  | .submitted .cancelDeletion => cancelDeletion ctx m
  | .firedDeletion => fireDeletion ctx m

end Handler

end BlogLedger
