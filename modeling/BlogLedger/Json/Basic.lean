import BlogLedger.Bytes.Decimal
import BlogLedger.Json.Number
import BlogLedger.Json.Text

/-!
# JSON values

A JSON text as a tree that keeps what was written: numbers and strings are lexemes, members keep
their order, and a name may occur more than once.

## Main Definitions

* `Json` — the tree.
* `Json.ofText`, `Json.ofNat`, `Json.ofInt` — the one way in which a value is written.
* `Json.text?`, `Json.uint64?`, `Json.int64?` — the value that was written.
* `Json.height`, `Json.readable` — how deep a tree is and whether every part of it has a value.
-/

namespace BlogLedger

/-- A JSON value as it is written. -/
inductive Json where
  | null
  | bool (value : Bool)
  | number (lexeme : Bytes)
  /-- A string, by the bytes between its quotes. -/
  | string (lexeme : Bytes)
  | array (items : List Json)
  /-- An object, by its members in order; a name is the bytes between its quotes. -/
  | object (members : List (Bytes × Json))
  deriving Inhabited, Repr

namespace Json

/-- A text as a JSON string. -/
def ofText (text : String) : Json :=
  .string (Text.escape (Bytes.ofText text))

/-- A natural number as a JSON number. -/
def ofNat (n : Nat) : Json :=
  .number (Decimal.ofNat n)

/-- An integer as a JSON number. -/
def ofInt (i : Int) : Json :=
  .number (Decimal.ofInt i)

/-- Members in the given order, each name written as a string. -/
def ofMembers (members : List (String × Json)) : Json :=
  .object (members.map fun m => (Text.escape (Bytes.ofText m.1), m.2))

/-- The text that the bytes between quotes stand for. -/
def lexemeText? (lexeme : Bytes) : Option String :=
  (Text.unescape lexeme).bind Bytes.toText?

/-- The text of a string. -/
def text? : Json → Option String
  | .string lexeme => lexemeText? lexeme
  | _ => none

/-- The unsigned 64-bit integer of a number. -/
def uint64? : Json → Option UInt64
  | .number lexeme => Number.uint64? lexeme
  | _ => none

/-- The signed 64-bit integer of a number. -/
def int64? : Json → Option Int64
  | .number lexeme => Number.int64? lexeme
  | _ => none

/-- The truth value of a Boolean. -/
def bool? : Json → Option Bool
  | .bool b => some b
  | _ => none

/-- The items of an array. -/
def items? : Json → Option (List Json)
  | .array items => some items
  | _ => none

mutual

/-- How many arrays and objects are nested in a value, itself included. -/
def height : Json → Nat
  | .array items => heightItems items + 1
  | .object members => heightMembers members + 1
  | _ => 0

/-- The greatest height among items. -/
def heightItems : List Json → Nat
  | [] => 0
  | item :: rest => max item.height (heightItems rest)

/-- The greatest height among members. -/
def heightMembers : List (Bytes × Json) → Nat
  | [] => 0
  | (_, value) :: rest => max value.height (heightMembers rest)

end

mutual

/-- Whether every string, name and number in a value can be read. -/
def readable : Json → Bool
  | .number lexeme => Number.fitsDouble lexeme
  | .string lexeme => (lexemeText? lexeme).isSome
  | .array items => readableItems items
  | .object members => readableMembers members
  | _ => true

/-- Whether all items can be read. -/
def readableItems : List Json → Bool
  | [] => true
  | item :: rest => item.readable && readableItems rest

/-- Whether all members can be read. -/
def readableMembers : List (Bytes × Json) → Bool
  | [] => true
  | (name, value) :: rest =>
    (lexemeText? name).isSome && value.readable && readableMembers rest

end

end Json

end BlogLedger
