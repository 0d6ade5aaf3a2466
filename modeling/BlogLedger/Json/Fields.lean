import BlogLedger.Json.Basic

/-!
# Reading structures from JSON

A structure is written as an object with its fields by name, or as an array with its fields in
order.  One of several alternatives is told apart by a tag, a field of the same object or the first
item of the same array.

## Main Definitions

* `Fields`, `Json.fields?` — the fields that are present.
* `Fields.required`, `Fields.optional`, `Fields.orDefault` — the value of one field.
* `Json.tagged?` — the tag of an alternative and what is left for its fields.

## Design Notes

Members of other names are passed over.  A plain structure asks nothing of them, while the members
of a tagged one are all read before the tag decides: there each must be readable and nothing may be
nested more than `maxHeight` deep.
-/

namespace BlogLedger

/-- The fields of a structure that are present, each at most once. -/
abbrev Fields := List (String × Json)

namespace Fields

/-- The value of a field that must be present. -/
def required {α : Type} (fields : Fields) (name : String) (read : Json → Option α) : Option α :=
  (fields.lookup name).bind read

/-- The value of a field that may be absent or null. -/
def optional {α : Type} (fields : Fields) (name : String) (read : Json → Option α) :
    Option (Option α) :=
  match fields.lookup name with
  | none | some .null => some none
  | some j => (read j).map some

/-- The value of a field that stands for `default` when absent. -/
def orDefault {α : Type} (fields : Fields) (name : String) (default : α) (read : Json → Option α) :
    Option α :=
  match fields.lookup name with
  | none => some default
  | some j => read j

end Fields

namespace Json

/-- How deep arrays and objects may be nested around and inside a tagged structure. -/
def maxHeight : Nat := 127

/-- The members of an object with their names read. -/
def namedMembers? (members : List (Bytes × Json)) : Option (List (String × Json)) :=
  members.mapM fun m => (lexemeText? m.1).map fun name => (name, m.2)

/-- Whether no name of `names` occurs twice among the members. -/
def unrepeated (names : List String) (members : List (String × Json)) : Bool :=
  names.all fun name => (members.filter fun m => m.1 = name).length ≤ 1

/-- The fields of a structure whose fields have the given names in this order. -/
def fields? (names : List String) : Json → Option Fields
  | .object members => do
    let members ← namedMembers? members
    if unrepeated names members then some members else none
  | .array items => if items.length ≤ names.length then some (names.zip items) else none
  | _ => none

/-- The tag of an alternative that stands inside `around` arrays and objects, and the value without
the tag. -/
def tagged? (tag : String) (around : Nat) (j : Json) : Option (String × Json) :=
  if maxHeight < j.height + around || !j.readable then none
  else
    match j with
    | .object members => do
      let named ← namedMembers? members
      let isTag := fun m : Bytes × Json => lexemeText? m.1 = some tag
      match named.filter fun m => m.1 = tag with
      | [(_, value)] => return (← value.text?, .object (members.filter fun m => !isTag m))
      | _ => none
    | .array (first :: rest) => do return (← first.text?, .array rest)
    | _ => none

end Json

end BlogLedger
