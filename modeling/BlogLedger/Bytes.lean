/-!
# Byte strings

Keys, values and journal frames are byte strings in lexicographic order.

The order matters everywhere: keys are made so that reading them in order is reading records, times
or values in order.

## Main Definitions

* `Bytes` — a byte string.
* `Bytes.ofText`, `Bytes.toText?` — the UTF-8 form of a text and its reading.
* `Bytes.prefixEnd` — the least byte string above every string with a given prefix.

## Design Notes

`prefixEnd` recurses from the front: the end of the tail wins when the tail has one, and otherwise
the head byte is raised.  Trailing `0xff` bytes therefore drop out without a separate pass.
-/

namespace BlogLedger

/-- A byte string, ordered lexicographically. -/
abbrev Bytes := List UInt8

namespace Bytes

/-- The UTF-8 form of a text. -/
def ofText (text : String) : Bytes :=
  text.toByteArray.data.toList

/-- The text whose UTF-8 form is `bytes`, if there is one.  What was stored as a text may come back
as anything, so this can fail. -/
def toText? (bytes : Bytes) : Option String :=
  String.fromUTF8? ⟨bytes.toArray⟩

/-- Reading a text back from its UTF-8 form gives the text. -/
@[simp] theorem toText?_ofText (text : String) : toText? (ofText text) = some text := by
  have h : (⟨(ofText text).toArray⟩ : ByteArray) = text.toByteArray := by
    simp [ofText]
  simp only [toText?, h, String.fromUTF8?]
  split
  · rfl
  · next hv => exact absurd text.isValidUTF8 (by simpa using hv)

/-- The least byte string above every string that starts with `start`; there is none when `start`
is empty or holds `0xff` bytes only. -/
def prefixEnd : Bytes → Option Bytes
  | [] => none
  | b :: rest =>
    match prefixEnd rest with
    | some e => some (b :: e)
    | none => if b = 0xff then none else some [b + 1]

end Bytes

end BlogLedger
