import BlogLedger.Record

/-!
# Index values

Each index derives a byte string from a record, and lists the records that share it.

## Main Definitions

* `Index` — the name of an index and how it derives its value.
* `Index.owner`, `Index.blog`, `Index.timedBlog` — blogs by owner, articles by blog, and articles by
  blog and time of creation.

## Design Notes

A timed value is the blog followed by the time, eight big-endian bytes each, so that the order of
values is the order by blog and then by time.  A time before 1970 would sort last and is refused.
-/

namespace BlogLedger

/-- How an index derives its value from a record; a record may have none.  It can also fail, when
the record is of another type or has a time that cannot be sorted. -/
abbrev Indexer := Record → Except IndexFault (Option Bytes)

/-- An index: its name and how it derives its values. -/
structure Index where
  name : String
  value : Indexer

/-- The value for a record that may be absent; an absent one has none.  So creation and deletion are
changes from and to a record that is absent. -/
def Indexer.ofOption (indexer : Indexer) : Option Record → Except IndexFault (Option Bytes)
  | some r => indexer r
  | none => .ok none

/-- The value of a blog: its owner. -/
def Blog.ownerValue (b : Blog) : Bytes := b.owner.bytes

/-- The value of an article: its blog. -/
def Article.blogValue (a : Article) : Bytes := a.blog.key

/-- The value of a blog and a time that is not before 1970. -/
def timedValue (blog : RecordId) (time : Timestamp) : Bytes := blog.key ++ time.key

/-- The value of an article: its blog and its time of creation. -/
def Article.timedValue (a : Article) : Except IndexFault Bytes :=
  if a.createdAt < .unset then .error (.negativeTime a.createdAt)
  else .ok (BlogLedger.timedValue a.blog a.createdAt)

namespace Indexer

/-- Blogs by owner. -/
def owner : Indexer
  | .blog b => .ok (some b.ownerValue)
  | r => .error (.typeMismatch RecordKind.blog.name r.kind.name)

/-- Articles by blog. -/
def blog : Indexer
  | .article a => .ok (some a.blogValue)
  | r => .error (.typeMismatch RecordKind.article.name r.kind.name)

/-- Articles by blog and time of creation. -/
def timedBlog : Indexer
  | .article a => a.timedValue.map some
  | r => .error (.typeMismatch RecordKind.article.name r.kind.name)

end Indexer

namespace Index

/-- Blogs by owner. -/
def owner : Index := ⟨"owner", .owner⟩

/-- Articles by blog. -/
def blog : Index := ⟨"blog", .blog⟩

/-- Articles by blog and time of creation. -/
def timedBlog : Index := ⟨"timed_blog", .timedBlog⟩

end Index

end BlogLedger
