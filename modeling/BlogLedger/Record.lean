import BlogLedger.Validation

/-!
# Records

What the ledger stores: users, blogs and articles.

A record is checked each time it is saved, also when nothing about it is new.  So whatever a bucket
has written has passed its check.

## Main Definitions

* `User`, `Blog`, `Article` — the three kinds of record.
* `Record` — a record of any kind.
* `Record.flaws`, `Record.validate` — what is wrong with the fields of a record.
-/

namespace BlogLedger

/-- A registered account. -/
structure User where
  username : String
  bio : Option String
  registeredAt : Timestamp
  deriving DecidableEq

/-- A blog and the account that owns it. -/
structure Blog where
  owner : Address
  title : String
  description : String
  createdAt : Timestamp
  deriving DecidableEq

/-- An article under a blog.  The owner is the owner that the blog had when the article was created,
and it stays when the blog is handed over.  `deletion` is the task that will delete the article,
while it is scheduled. -/
structure Article where
  blog : RecordId
  owner : Address
  title : String
  content : String
  createdAt : Timestamp
  deleteAt : Option Timestamp
  deletion : Option TaskId
  deriving DecidableEq

/-- A stored record. -/
inductive Record where
  | user (user : User)
  | blog (blog : Blog)
  | article (article : Article)
  deriving DecidableEq

/-- What is wrong with the fields of a user. -/
def User.flaws (u : User) : Flaws :=
  Flaws.check (Format.username.accepts u.username) "username" (.malformed "username")
    ++ Flaws.check (u.bio.all Format.bio.accepts) "bio" (.malformed "bio")
    ++ Flaws.ofTime "registered_at" u.registeredAt

/-- Whether a user was registered later than a time. -/
def User.isRegisteredAfter (u : User) (time : Timestamp) : Bool :=
  time < u.registeredAt

/-- What is wrong with the fields of a blog. -/
def Blog.flaws (b : Blog) : Flaws :=
  Flaws.check (Format.title.accepts b.title) "title" (.malformed "title")
    ++ Flaws.check (Format.body.accepts b.description) "description" (.malformed "description")
    ++ Flaws.ofTime "created_at" b.createdAt

/-- The same blog under another owner. -/
def Blog.withOwner (b : Blog) (owner : Address) : Blog :=
  { b with owner }

/-- What is wrong with a deadline, if there is one. -/
def Article.deadlineFlaws : Option Timestamp → Flaws
  | none => []
  | some deadline =>
    Flaws.ofRange "delete_at" deadline
      ++ Flaws.check (deadline ≠ .unset) "delete_at" .zeroDeadline

/-- What is wrong with the fields of an article. -/
def Article.flaws (a : Article) : Flaws :=
  Flaws.check a.blog.isAssigned "blog_id" (.unassigned "a blog")
    ++ Flaws.check (Format.title.accepts a.title) "title" (.malformed "title")
    ++ Flaws.check (Format.body.accepts a.content) "content" (.malformed "content")
    ++ Flaws.ofTime "created_at" a.createdAt
    ++ deadlineFlaws a.deleteAt

/-- Whether a task will delete an article. -/
def Article.hasScheduledDeletion (a : Article) : Bool :=
  a.deletion.isSome

namespace Record

/-- What a record is. -/
def kind : Record → RecordKind
  | .user _ => .user
  | .blog _ => .blog
  | .article _ => .article

/-- What is wrong with the fields of a record. -/
def flaws : Record → Flaws
  | .user u => u.flaws
  | .blog b => b.flaws
  | .article a => a.flaws

/-- Refuse a record whose fields are wrong, with all of its flaws. -/
def validate (r : Record) : Except Failure Unit :=
  Flaws.conclude r.flaws

/-- The user that a record is. -/
def toUser : Record → Except Failure User
  | .user u => .ok u
  | r => fail (.wrongKind .user r.kind)

/-- The blog that a record is. -/
def toBlog : Record → Except Failure Blog
  | .blog b => .ok b
  | r => fail (.wrongKind .blog r.kind)

/-- The article that a record is. -/
def toArticle : Record → Except Failure Article
  | .article a => .ok a
  | r => fail (.wrongKind .article r.kind)

end Record

end BlogLedger
