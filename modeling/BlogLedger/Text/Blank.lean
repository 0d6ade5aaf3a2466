/-!
# Blank characters

The white space that is ignored around a time, an address or a line.

## Main Definitions

* `Blank.isBlank` — the Unicode property White_Space.
* `Blank.trim` — a text without the blanks at both ends.
-/

namespace BlogLedger.Blank

/-- Whether a character is white space. -/
def isBlank (c : Char) : Bool :=
  (9 ≤ c.toNat && c.toNat ≤ 13) || (0x2000 ≤ c.toNat && c.toNat ≤ 0x200a)
    || [0x20, 0x85, 0xa0, 0x1680, 0x2028, 0x2029, 0x202f, 0x205f, 0x3000].contains c.toNat

/-- A list of characters without the blanks at its end. -/
def dropEnd : List Char → List Char
  | [] => []
  | c :: rest =>
    match dropEnd rest with
    | [] => if isBlank c then [] else [c]
    | kept => c :: kept

/-- A text without the blanks at both ends. -/
def trim (text : String) : String :=
  String.ofList (dropEnd (text.toList.dropWhile isBlank))

/-- Whether a text holds blanks only. -/
def isAllBlank (text : String) : Bool :=
  text.toList.all isBlank

end BlogLedger.Blank
