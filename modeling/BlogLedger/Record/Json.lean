import BlogLedger.Json.Fields
import BlogLedger.Json.Parser
import BlogLedger.Json.Printer
import BlogLedger.Record

/-!
# Records as JSON

The stored form of a record: its fields by name, the kind first.  Fields that are unset are left out.

## Main Definitions

* `Record.toJson`, `Record.ofJson?` — the JSON form of a record and its reading.
* `Record.encode`, `Record.decode` — its stored bytes and their reading.
-/

namespace BlogLedger

/-- A member that is left out when there is no value. -/
def Json.optionalMember {α : Type} (name : String) (write : α → Json) :
    Option α → List (String × Json)
  | some a => [(name, write a)]
  | none => []

/-- A time as JSON. -/
def Timestamp.toJson (t : Timestamp) : Json := .ofInt t.toInt

/-- The time that a JSON number writes. -/
def Timestamp.ofJson? (j : Json) : Option Timestamp := j.int64?.map Timestamp.mk

/-- A record number as JSON. -/
def RecordId.toJson (id : RecordId) : Json := .ofNat id.number.toNat

/-- The record number that a JSON number writes. -/
def RecordId.ofJson? (j : Json) : Option RecordId := j.uint64?.map RecordId.mk

/-- A task number as JSON. -/
def TaskId.toJson (id : TaskId) : Json := .ofNat id.number.toNat

/-- The task number that a JSON number writes. -/
def TaskId.ofJson? (j : Json) : Option TaskId := j.uint64?.map TaskId.mk

/-- An address as JSON. -/
def Address.toJson (a : Address) : Json := .ofText a.display

/-- The address that a JSON string writes. -/
def Address.ofJson? (j : Json) : Option Address := j.text?.bind fun t => (Address.read t).toOption

namespace User

/-- The members of a user. -/
def members (u : User) : List (String × Json) :=
  ("username", .ofText u.username) :: Json.optionalMember "bio" .ofText u.bio
    ++ [("registered_at", u.registeredAt.toJson)]

/-- The user that a JSON value writes, without its kind. -/
def ofJson? (j : Json) : Option User := do
  let fields ← j.fields? ["username", "bio", "registered_at"]
  return {
    username := ← fields.required "username" Json.text?
    bio := ← fields.optional "bio" Json.text?
    registeredAt := ← fields.required "registered_at" Timestamp.ofJson? }

end User

namespace Blog

/-- The members of a blog. -/
def members (b : Blog) : List (String × Json) :=
  [("owner", b.owner.toJson), ("title", .ofText b.title), ("description", .ofText b.description),
    ("created_at", b.createdAt.toJson)]

/-- The blog that a JSON value writes, without its kind. -/
def ofJson? (j : Json) : Option Blog := do
  let fields ← j.fields? ["owner", "title", "description", "created_at"]
  return {
    owner := ← fields.required "owner" Address.ofJson?
    title := ← fields.required "title" Json.text?
    description := ← fields.required "description" Json.text?
    createdAt := ← fields.required "created_at" Timestamp.ofJson? }

end Blog

namespace Article

/-- The members of an article. -/
def members (a : Article) : List (String × Json) :=
  [("blog_id", a.blog.toJson), ("owner", a.owner.toJson), ("title", .ofText a.title),
    ("content", .ofText a.content), ("created_at", a.createdAt.toJson)]
    ++ Json.optionalMember "delete_at" Timestamp.toJson a.deleteAt
    ++ Json.optionalMember "delete_task_id" TaskId.toJson a.deletion

/-- The article that a JSON value writes, without its kind. -/
def ofJson? (j : Json) : Option Article := do
  let fields ← j.fields?
    ["blog_id", "owner", "title", "content", "created_at", "delete_at", "delete_task_id"]
  return {
    blog := ← fields.required "blog_id" RecordId.ofJson?
    owner := ← fields.required "owner" Address.ofJson?
    title := ← fields.required "title" Json.text?
    content := ← fields.required "content" Json.text?
    createdAt := ← fields.required "created_at" Timestamp.ofJson?
    deleteAt := ← fields.optional "delete_at" Timestamp.ofJson?
    deletion := ← fields.optional "delete_task_id" TaskId.ofJson? }

end Article

namespace Record

/-- The members of a record, without its kind. -/
def members : Record → List (String × Json)
  | .user u => u.members
  | .blog b => b.members
  | .article a => a.members

/-- A record as JSON, its kind first. -/
def toJson (r : Record) : Json :=
  .ofMembers (("type", .ofText r.kind.name) :: r.members)

/-- The record that a JSON value writes. -/
def ofJson? (j : Json) : Option Record := do
  let (kind, content) ← j.tagged? "type" 0
  if kind = RecordKind.user.name then (User.ofJson? content).map .user
  else if kind = RecordKind.blog.name then (Blog.ofJson? content).map .blog
  else if kind = RecordKind.article.name then (Article.ofJson? content).map .article
  else none

/-- The stored form of a record. -/
def encode (r : Record) : Bytes := r.toJson.print

/-- The record in its stored form. -/
def decode (bytes : Bytes) : Except Failure Record :=
  match (Json.parse? bytes).bind ofJson? with
  | some r => .ok r
  | none => fail .undecodable

end Record

end BlogLedger
