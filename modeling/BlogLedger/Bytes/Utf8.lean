import BlogLedger.Bytes

/-!
# Showing arbitrary bytes as text

Bytes that are not UTF-8 are shown with a replacement character for every longest run of bytes
that starts a character and cannot be finished.

## Main Definitions

* `Utf8.lossy` — the text shown for a byte string.

## Design Notes

The reader keeps the unfinished character as its state.  A byte that cannot continue it ends it with
a replacement character and is then looked at afresh.
-/

namespace BlogLedger.Utf8

/-- A character whose first bytes have been read: how many are due, which bytes may come next, and
the value so far. -/
structure Unfinished where
  due : Nat
  low : UInt8
  high : UInt8
  value : Nat
  deriving DecidableEq, Repr

/-- The character shown in place of bytes that form none. -/
def replacement : Char := Char.ofNat 0xfffd

/-- Read a byte at the start of a character: the characters to show and the character begun.  The
second byte is narrowed where the full range would allow a longer form, a surrogate or a value
above the last code point. -/
def first (b : UInt8) : List Char × Option Unfinished :=
  if b < 0x80 then ([Char.ofNat b.toNat], none)
  else if b < 0xc2 then ([replacement], none)
  else if b < 0xe0 then ([], some ⟨1, 0x80, 0xbf, b.toNat - 0xc0⟩)
  else if b = 0xe0 then ([], some ⟨2, 0xa0, 0xbf, 0⟩)
  else if b = 0xed then ([], some ⟨2, 0x80, 0x9f, 0xd⟩)
  else if b < 0xf0 then ([], some ⟨2, 0x80, 0xbf, b.toNat - 0xe0⟩)
  else if b = 0xf0 then ([], some ⟨3, 0x90, 0xbf, 0⟩)
  else if b = 0xf4 then ([], some ⟨3, 0x80, 0x8f, 4⟩)
  else if b < 0xf4 then ([], some ⟨3, 0x80, 0xbf, b.toNat - 0xf0⟩)
  else ([replacement], none)

/-- Read a byte inside or at the start of a character. -/
def next (begun : Option Unfinished) (b : UInt8) : List Char × Option Unfinished :=
  match begun with
  | none => first b
  | some u =>
    if u.low ≤ b && b ≤ u.high then
      let value := u.value * 64 + (b.toNat - 0x80)
      if u.due ≤ 1 then ([Char.ofNat value], none) else ([], some ⟨u.due - 1, 0x80, 0xbf, value⟩)
    else
      let (shown, begun) := first b
      (replacement :: shown, begun)

/-- The characters shown for `bytes` after the given unfinished character. -/
def lossyFrom (begun : Option Unfinished) : Bytes → List Char
  | [] => if begun.isSome then [replacement] else []
  | b :: rest =>
    let (shown, begun) := next begun b
    shown ++ lossyFrom begun rest

/-- The text shown for `bytes`. -/
def lossy (bytes : Bytes) : String :=
  String.ofList (lossyFrom none bytes)

end BlogLedger.Utf8
