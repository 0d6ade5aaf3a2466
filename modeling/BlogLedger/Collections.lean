import BlogLedger.Bucket

/-!
# The collections

The three buckets of the ledger, with records of their own type.

A bucket knows records of any kind.  Here each bucket gives records of its own type, and a record of
another kind is a failure where it is read.

## Main Definitions

* `Bucket.users`, `Bucket.blogs`, `Bucket.articles` — the buckets.
* `Users`, `Blogs`, `Articles` — reads that give a user, a blog or an article.
* `Articles.between` — the articles of a blog from a span of time.
-/

namespace BlogLedger

/-- Users, without an index. -/
def Bucket.users : Bucket := ⟨"user", .user, []⟩

/-- Blogs, by owner. -/
def Bucket.blogs : Bucket := ⟨"blog", .blog, [.owner]⟩

/-- Articles, by blog, and by blog and time of creation.  The second index lists the articles of a
blog in the order of their times. -/
def Bucket.articles : Bucket := ⟨"article", .article, [.blog, .timedBlog]⟩

/-- Convert a record that may be absent. -/
def Record.convert {α : Type} (read : Record → Except Failure α) :
    Option Record → Except Failure (Option α)
  | some r => (read r).map some
  | none => .ok none

namespace Users

/-- The user of a number, if there is one. -/
def get (id : RecordId) (s : KeySpace) : Except Failure (Option User) := do
  Record.convert Record.toUser (← Bucket.users.get id s)

/-- The user of a number. -/
def mustGet (id : RecordId) (s : KeySpace) : Except Failure User := do
  (← Bucket.users.mustGet id s).toUser

end Users

namespace Blogs

/-- The blog of a number, if there is one. -/
def get (id : RecordId) (s : KeySpace) : Except Failure (Option Blog) := do
  Record.convert Record.toBlog (← Bucket.blogs.get id s)

/-- The blog of a number. -/
def mustGet (id : RecordId) (s : KeySpace) : Except Failure Blog := do
  (← Bucket.blogs.mustGet id s).toBlog

/-- The blogs of an owner, ascending. -/
def ownedBy (owner : Address) (s : KeySpace) : Except Failure (List RecordId) :=
  Bucket.blogs.byIndex Index.owner.name owner.bytes s

end Blogs

namespace Articles

/-- The article of a number, if there is one. -/
def get (id : RecordId) (s : KeySpace) : Except Failure (Option Article) := do
  Record.convert Record.toArticle (← Bucket.articles.get id s)

/-- The article of a number. -/
def mustGet (id : RecordId) (s : KeySpace) : Except Failure Article := do
  (← Bucket.articles.mustGet id s).toArticle

/-- The articles of a blog, ascending. -/
def ofBlog (blog : RecordId) (s : KeySpace) : Except Failure (List RecordId) :=
  Bucket.articles.byIndex Index.blog.name blog.key s

/-- The articles of a blog, the oldest first. -/
def byTime (blog : RecordId) (s : KeySpace) : Except Failure (List RecordId) :=
  Bucket.articles.byIndexStart Index.timedBlog.name blog.key s

/-- The bound of a span of time in the timed index; earlier than 1970 is no different from 1970. -/
def bound (blog : RecordId) (time : Timestamp) : Bytes :=
  timedValue blog (if time < .unset then .unset else time)

/-- The articles of a blog created at `start` or later and before `stop`, the oldest first.  An
empty span is answered with nothing. -/
def between (blog : RecordId) (start stop : Timestamp) (s : KeySpace) :
    Except Failure (List RecordId) :=
  if stop ≤ start ∨ stop ≤ .unset then .ok []
  else
    Bucket.articles.byIndexRange Index.timedBlog.name (bound blog start) (some (bound blog stop)) s

end Articles

end BlogLedger
