import BlogLedger.Bytes.Hex
import BlogLedger.Bytes.Utf8
import BlogLedger.Json.Fields
import BlogLedger.Json.Parser
import BlogLedger.Json.Printer
import BlogLedger.KeySpace

/-!
# Batches as JSON

The journal keeps a batch as JSON, with keys and values in hexadecimal.

## Main Definitions

* `Op.display` — a write in words.
* `Batch.toJson`, `Batch.ofJson?` — the JSON form of a batch and its reading.
* `Batch.encode`, `Batch.decode?` — its bytes and their reading.
-/

namespace BlogLedger

namespace Op

/-- A write in words: its key as text and the size of its value. -/
def display : Op → String
  | .set key value =>
    "Set(" ++ Utf8.lossy key ++ ", " ++ toString value.length ++ " bytes)"
  | .delete key => "Delete(" ++ Utf8.lossy key ++ ")"

/-- Bytes as a JSON string of hexadecimal digits. -/
def hexJson (bytes : Bytes) : Json := .ofText (Hex.lower bytes)

/-- The bytes that a JSON string of hexadecimal digits of either case writes. -/
def ofHexJson? (j : Json) : Option Bytes := j.text?.bind fun t => (Hex.read t).toOption

/-- A write as JSON. -/
def toJson : Op → Json
  | .set key value =>
    .ofMembers [("op", .ofText "set"), ("key", hexJson key), ("value", hexJson value)]
  | .delete key => .ofMembers [("op", .ofText "delete"), ("key", hexJson key)]

/-- The write that a JSON value inside `around` arrays and objects writes. -/
def ofJson? (around : Nat) (j : Json) : Option Op := do
  let (name, content) ← j.tagged? "op" around
  if name = "set" then
    let fields ← content.fields? ["key", "value"]
    return .set (← fields.required "key" ofHexJson?) (← fields.required "value" ofHexJson?)
  else if name = "delete" then
    let fields ← content.fields? ["key"]
    return .delete (← fields.required "key" ofHexJson?)
  else none

end Op

namespace Batch

/-- A batch as JSON. -/
def toJson (batch : Batch) : Json :=
  .ofMembers [("ops", .array (batch.map Op.toJson))]

/-- The batch that a JSON value writes. -/
def ofJson? (j : Json) : Option Batch := do
  let fields ← j.fields? ["ops"]
  fields.required "ops" fun ops => ops.items?.bind fun items => items.mapM (Op.ofJson? 2)

/-- The bytes of a batch. -/
def encode (batch : Batch) : Bytes := (toJson batch).print

/-- The batch that bytes write. -/
def decode? (bytes : Bytes) : Option Batch :=
  (Json.parse? bytes).bind ofJson?

end Batch

end BlogLedger
