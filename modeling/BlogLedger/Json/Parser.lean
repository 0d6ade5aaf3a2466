import BlogLedger.Json.Token

/-!
# Reading JSON

A text is one value with nothing after it.

## Main Definitions

* `Json.parse?` — the value that a byte string writes.
* `Json.Build`, `Json.Build.feed` — the reader of tokens.

## Design Notes

The arrays and objects that are still open stand in a list of frames, the innermost first, so reading
is one left fold over the tokens and nesting is bounded by nothing.
-/

namespace BlogLedger.Json

/-- An array or object that is still open; what it holds so far stands in reverse order. -/
inductive Frame where
  | array (items : List Json)
  | object (members : List (Bytes × Json)) (name : Bytes)

/-- What may come next. -/
inductive Expect where
  /-- A value. -/
  | value
  /-- The first item of an array, or its end. -/
  | firstItem
  /-- The first name of an object, or its end. -/
  | firstName
  /-- A further name. -/
  | name (members : List (Bytes × Json))
  /-- The colon after a name. -/
  | colon (members : List (Bytes × Json)) (name : Bytes)
  /-- What follows a finished value. -/
  | after (value : Json)

/-- A reader of tokens: what may come next, and the open frames with the innermost first. -/
structure Build where
  expect : Expect
  frames : List Frame

namespace Build

/-- The reader before the first token. -/
def start : Build := ⟨.value, []⟩

/-- Read a token where a value may stand. -/
def value (frames : List Frame) : Token → Option Build
  | .openArray => some ⟨.firstItem, frames⟩
  | .openObject => some ⟨.firstName, frames⟩
  | .string lexeme => some ⟨.after (.string lexeme), frames⟩
  | .scalar v => some ⟨.after v, frames⟩
  | _ => none

/-- Read a token after a finished value. -/
def follow (v : Json) : List Frame → Token → Option Build
  | .array items :: frames, .comma => some ⟨.value, .array (v :: items) :: frames⟩
  | .array items :: frames, .closeArray =>
    some ⟨.after (.array (v :: items).reverse), frames⟩
  | .object members name :: frames, .comma => some ⟨.name ((name, v) :: members), frames⟩
  | .object members name :: frames, .closeObject =>
    some ⟨.after (.object ((name, v) :: members).reverse), frames⟩
  | _, _ => none

/-- Read one token. -/
def feed (b : Build) (token : Token) : Option Build :=
  match b.expect, token with
  | .value, token => value b.frames token
  | .firstItem, .closeArray => some ⟨.after (.array []), b.frames⟩
  | .firstItem, token => value (.array [] :: b.frames) token
  | .firstName, .closeObject => some ⟨.after (.object []), b.frames⟩
  | .firstName, .string name => some ⟨.colon [] name, b.frames⟩
  | .name members, .string name => some ⟨.colon members name, b.frames⟩
  | .colon members name, .colon => some ⟨.value, .object members name :: b.frames⟩
  | .after v, token => follow v b.frames token
  | _, _ => none

/-- The value read when the tokens end here. -/
def finish : Build → Option Json
  | ⟨.after v, []⟩ => some v
  | _ => none

end Build

/-- The value that a byte string writes. -/
def parse? (bytes : Bytes) : Option Json := do
  let tokens ← tokens? bytes
  (← tokens.foldlM Build.feed Build.start).finish

end BlogLedger.Json
