import BlogLedger.Message
import BlogLedger.Record.Json

/-!
# Messages as JSON

A message is written with its name first and then its fields.

## Main Definitions

* `Message.toJson`, `Message.ofJson?` — the JSON form of a message and its reading.
-/

namespace BlogLedger.Message

/-- The members of a message, without its name. -/
def members : Message → List (String × Json)
  | .createUser username bio =>
    ("username", .ofText username) :: Json.optionalMember "bio" .ofText bio
  | .createBlog title description =>
    [("title", .ofText title), ("description", .ofText description)]
  | .changeBlogOwner blog newOwner =>
    [("blog_id", blog.toJson), ("new_owner", .ofText newOwner)]
  | .createArticle blog title content deleteAt =>
    [("blog_id", blog.toJson), ("title", .ofText title), ("content", .ofText content)]
      ++ Json.optionalMember "delete_at" Timestamp.toJson (deadline deleteAt)
  | .deleteArticle article | .cancelDeletion article => [("article_id", article.toJson)]

/-- A message as JSON, its name first. -/
def toJson (m : Message) : Json :=
  .ofMembers (("type", .ofText m.kind.name) :: m.members)

/-- The message of a kind that a JSON value writes. -/
def ofContent? (kind : Kind) (j : Json) : Option Message :=
  match kind with
  | .createUser => do
    let fields ← j.fields? ["username", "bio"]
    return .createUser (← fields.required "username" Json.text?)
      (← fields.optional "bio" Json.text?)
  | .createBlog => do
    let fields ← j.fields? ["title", "description"]
    return .createBlog (← fields.required "title" Json.text?)
      (← fields.required "description" Json.text?)
  | .changeBlogOwner => do
    let fields ← j.fields? ["blog_id", "new_owner"]
    return .changeBlogOwner (← fields.required "blog_id" RecordId.ofJson?)
      (← fields.required "new_owner" Json.text?)
  | .createArticle => do
    let fields ← j.fields? ["blog_id", "title", "content", "delete_at"]
    return .createArticle (← fields.required "blog_id" RecordId.ofJson?)
      (← fields.required "title" Json.text?) (← fields.required "content" Json.text?)
      (← fields.orDefault "delete_at" .unset Timestamp.ofJson?)
  | .deleteArticle => do
    let fields ← j.fields? ["article_id"]
    return .deleteArticle (← fields.required "article_id" RecordId.ofJson?)
  | .cancelDeletion => do
    let fields ← j.fields? ["article_id"]
    return .cancelDeletion (← fields.required "article_id" RecordId.ofJson?)

/-- The message that a JSON value inside `around` arrays and objects writes. -/
def ofJson? (around : Nat) (j : Json) : Option Message := do
  let (name, content) ← j.tagged? "type" around
  ofContent? (← Kind.ofName? name) content

end BlogLedger.Message
