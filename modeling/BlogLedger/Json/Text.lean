import BlogLedger.Bytes

/-!
# Strings inside JSON

A JSON string stands between quotes as its UTF-8 bytes, with the quote, the backslash and the
control characters below `0x20` written as escapes.

## Main Definitions

* `Text.escape` — the bytes between the quotes for a byte string.
* `Text.unescape` — the byte string that such bytes stand for.

## Design Notes

Both work on bytes.  Escapes are ASCII and every other byte stands for itself, so UTF-8 takes no part
in either direction; whether the result is a text is asked afterwards, by `Bytes.toText?`.
-/

namespace BlogLedger.Json.Text

/-- A lower-case hexadecimal digit. -/
def hexDigit (n : Nat) : UInt8 :=
  if n < 10 then UInt8.ofNat (48 + n) else UInt8.ofNat (87 + n)

/-- The bytes that stand for `b` between quotes. -/
def escapeByte (b : UInt8) : Bytes :=
  if b = 34 then [92, 34]
  else if b = 92 then [92, 92]
  else if b = 8 then [92, 98]
  else if b = 12 then [92, 102]
  else if b = 10 then [92, 110]
  else if b = 13 then [92, 114]
  else if b = 9 then [92, 116]
  else if b < 32 then [92, 117, 48, 48, hexDigit (b.toNat / 16), hexDigit (b.toNat % 16)]
  else [b]

/-- The bytes between the quotes for a byte string. -/
def escape (bytes : Bytes) : Bytes :=
  bytes.flatMap escapeByte

/-- Where a reader stands between the quotes. -/
inductive Place where
  /-- Outside any escape. -/
  | plain
  /-- After a backslash. -/
  | escape
  /-- Inside a numeric escape with `due` digits to come and the value so far. -/
  | unit (due value : Nat)
  /-- After the first half of a surrogate pair. -/
  | paired (high : Nat)
  /-- After the backslash that must begin the second half. -/
  | pairedEscape (high : Nat)
  /-- Inside the second half. -/
  | pairedUnit (high due value : Nat)
  deriving DecidableEq, Repr

/-- The byte that a one-letter escape stands for. -/
def shortEscape? (b : UInt8) : Option UInt8 :=
  if b = 34 then some 34
  else if b = 92 then some 92
  else if b = 47 then some 47
  else if b = 98 then some 8
  else if b = 102 then some 12
  else if b = 110 then some 10
  else if b = 114 then some 13
  else if b = 116 then some 9
  else none

/-- The value of a hexadecimal digit of either case. -/
def hexValue? (b : UInt8) : Option Nat :=
  if 48 ≤ b && b ≤ 57 then some (b.toNat - 48)
  else if 97 ≤ b && b ≤ 102 then some (b.toNat - 87)
  else if 65 ≤ b && b ≤ 70 then some (b.toNat - 55)
  else none

/-- The UTF-8 form of a code point. -/
def codePoint (n : Nat) : Bytes :=
  Bytes.ofText (Char.ofNat n).toString

/-- Finish a numeric escape: a first half of a pair waits for the second, a second half alone stands
for nothing. -/
def finishUnit (value : Nat) : Option (Place × Bytes) :=
  if 0xdc00 ≤ value && value ≤ 0xdfff then none
  else if 0xd800 ≤ value && value ≤ 0xdbff then some (.paired value, [])
  else some (.plain, codePoint value)

/-- Finish the second half of a surrogate pair. -/
def finishPair (high low : Nat) : Option (Place × Bytes) :=
  if 0xdc00 ≤ low && low ≤ 0xdfff then
    some (.plain, codePoint (0x10000 + (high - 0xd800) * 0x400 + (low - 0xdc00)))
  else none

/-- Read one byte: the next place and the bytes it stands for. -/
def next : Place → UInt8 → Option (Place × Bytes)
  | .plain, b =>
    if b = 92 then some (.escape, [])
    else if b = 34 || b < 32 then none
    else some (.plain, [b])
  | .escape, b =>
    if b = 117 then some (.unit 4 0, []) else (shortEscape? b).map fun c => (.plain, [c])
  | .unit due value, b => do
    let value := value * 16 + (← hexValue? b)
    if due ≤ 1 then finishUnit value else some (.unit (due - 1) value, [])
  | .paired high, b => if b = 92 then some (.pairedEscape high, []) else none
  | .pairedEscape high, b => if b = 117 then some (.pairedUnit high 4 0, []) else none
  | .pairedUnit high due value, b => do
    let value := value * 16 + (← hexValue? b)
    if due ≤ 1 then finishPair high value else some (.pairedUnit high (due - 1) value, [])

/-- What the rest of the bytes between the quotes stands for. -/
def unescapeFrom : Place → Bytes → Option Bytes
  | .plain, [] => some []
  | _, [] => none
  | place, b :: rest => do
    let (place, read) ← next place b
    let tail ← unescapeFrom place rest
    return read ++ tail

/-- The byte string that the bytes between the quotes stand for; raw control characters, unknown
escapes and halves of surrogate pairs stand for nothing. -/
def unescape (lexeme : Bytes) : Option Bytes :=
  unescapeFrom .plain lexeme

end BlogLedger.Json.Text
