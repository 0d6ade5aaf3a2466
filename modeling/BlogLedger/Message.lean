import BlogLedger.Record

/-!
# Messages

What an account or the scheduler asks the ledger to do.

A message can be refused for its fields before the ledger is looked at.  Every flaw is found and not
only the first, so that a caller can mend them together.

## Main Definitions

* `Message` — the six requests.
* `Message.Kind`, `Message.path` — which request it is, and the path under which it is handled.
* `Message.validate` — what can be refused without looking at the ledger.
-/

namespace BlogLedger

/-- A request to the ledger. -/
inductive Message where
  | createUser (username : String) (bio : Option String)
  | createBlog (title description : String)
  | changeBlogOwner (blog : RecordId) (newOwner : String)
  /-- A `deleteAt` of zero asks for no deletion. -/
  | createArticle (blog : RecordId) (title content : String) (deleteAt : Timestamp)
  | deleteArticle (article : RecordId)
  | cancelDeletion (article : RecordId)
  deriving DecidableEq

namespace Message

/-- Which request a message is. -/
inductive Kind where
  | createUser
  | createBlog
  | changeBlogOwner
  | createArticle
  | deleteArticle
  | cancelDeletion
  deriving DecidableEq, Repr

namespace Kind

/-- The name of a request. -/
def name : Kind → String
  | .createUser => "create_user"
  | .createBlog => "create_blog"
  | .changeBlogOwner => "change_blog_owner"
  | .createArticle => "create_article"
  | .deleteArticle => "delete_article"
  | .cancelDeletion => "cancel_delete_article_task"

/-- The path under which a request is handled. -/
def path (k : Kind) : String := "blog/" ++ k.name

/-- All requests. -/
def all : List Kind :=
  [.createUser, .createBlog, .changeBlogOwner, .createArticle, .deleteArticle, .cancelDeletion]

/-- The request of a name. -/
def ofName? (name : String) : Option Kind := all.find? fun k => k.name = name

end Kind

/-- Which request a message is. -/
def kind : Message → Kind
  | .createUser .. => .createUser
  | .createBlog .. => .createBlog
  | .changeBlogOwner .. => .changeBlogOwner
  | .createArticle .. => .createArticle
  | .deleteArticle _ => .deleteArticle
  | .cancelDeletion _ => .cancelDeletion

/-- The path under which a message is handled. -/
def path (m : Message) : String := m.kind.path

/-- A biography as it will be stored: an empty one is left out.  So there is one way to have none. -/
def givenBio (bio : Option String) : Option String :=
  bio.filter (· ≠ "")

/-- The deadline that a time sets; zero sets none.  In a message the time is always there, and zero
stands for none. -/
def deadline (deleteAt : Timestamp) : Option Timestamp :=
  if deleteAt = .unset then none else some deleteAt

/-- What is wrong with the text of a new owner. -/
def ownerFlaws (newOwner : String) : Flaws :=
  match Address.read newOwner with
  | .ok _ => []
  | .error fault => [⟨"new_owner", .address fault⟩]

/-- What is wrong with the fields of a message. -/
def flaws : Message → Flaws
  | .createUser username bio =>
    Flaws.check (Format.username.accepts username) "username" (.malformed "username")
      ++ Flaws.check ((givenBio bio).all Format.bio.accepts) "bio" (.malformed "bio")
  | .createBlog title description =>
    Flaws.check (Format.title.accepts title) "title" (.malformed "title")
      ++ Flaws.check (Format.body.accepts description) "description" (.malformed "description")
  | .changeBlogOwner blog newOwner =>
    Flaws.check blog.isAssigned "blog_id" (.unassigned "a blog") ++ ownerFlaws newOwner
  | .createArticle blog title content deleteAt =>
    Flaws.check blog.isAssigned "blog_id" (.unassigned "a blog")
      ++ Flaws.check (Format.title.accepts title) "title" (.malformed "title")
      ++ Flaws.check (Format.body.accepts content) "content" (.malformed "content")
      ++ (if deleteAt = .unset then [] else Flaws.ofRange "delete_at" deleteAt)
  | .deleteArticle article | .cancelDeletion article =>
    Flaws.check article.isAssigned "article_id" (.unassigned "an article")

/-- Refuse a message whose fields are wrong. -/
def validate (m : Message) : Except Failure Unit :=
  Flaws.conclude m.flaws

/-- The new owner that a valid text gives. -/
def newOwner (text : String) : Except Failure Address := Address.orFail (Address.read text)

end Message

end BlogLedger
