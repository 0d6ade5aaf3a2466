import BlogLedger.Json.Basic

/-!
# Writing JSON

The compact form of a value: no blanks, members in their order.

## Main Definitions

* `Json.print` — the bytes of a value.
* `Json.sortNames` — a value with the members of every object in order of their names.
-/

namespace BlogLedger.Json

/-- Bytes between quotes. -/
def quote (lexeme : Bytes) : Bytes :=
  34 :: (lexeme ++ [34])

mutual

/-- The compact form of a value. -/
def print : Json → Bytes
  | .null => [110, 117, 108, 108]
  | .bool true => [116, 114, 117, 101]
  | .bool false => [102, 97, 108, 115, 101]
  | .number lexeme => lexeme
  | .string lexeme => quote lexeme
  | .array items => 91 :: (printItems items ++ [93])
  | .object members => 123 :: (printMembers members ++ [125])

/-- Items with commas between them. -/
def printItems : List Json → Bytes
  | [] => []
  | [item] => item.print
  | item :: rest => item.print ++ 44 :: printItems rest

/-- Members with commas between them. -/
def printMembers : List (Bytes × Json) → Bytes
  | [] => []
  | [(name, value)] => quote name ++ 58 :: value.print
  | (name, value) :: rest => quote name ++ 58 :: value.print ++ 44 :: printMembers rest

end

/-- The compact form of a value as a text. -/
def printText (j : Json) : String :=
  (Bytes.toText? j.print).getD ""

/-- Put a member before the first one whose name is not smaller. -/
def insertMember (member : Bytes × Json) : List (Bytes × Json) → List (Bytes × Json)
  | [] => [member]
  | m :: rest => if m.1 < member.1 then m :: insertMember member rest else member :: m :: rest

mutual

/-- A value with the members of every object in order of their names. -/
def sortNames : Json → Json
  | .array items => .array (sortNamesItems items)
  | .object members => .object (sortNamesMembers members)
  | j => j

/-- Items with the members of every object in order. -/
def sortNamesItems : List Json → List Json
  | [] => []
  | item :: rest => item.sortNames :: sortNamesItems rest

/-- Members in order of their names. -/
def sortNamesMembers : List (Bytes × Json) → List (Bytes × Json)
  | [] => []
  | (name, value) :: rest => insertMember (name, value.sortNames) (sortNamesMembers rest)

end

end BlogLedger.Json
