import BlogLedger.Bytes
import BlogLedger.Text.Quoted

/-!
# Hexadecimal text

Two digits a byte, most significant first.  Reading takes either case; writing has one form of each.

## Main Definitions

* `Hex.lower`, `Hex.upper` — the text of a byte string.
* `Hex.read` — the byte string of a text, or the first thing wrong with it (`HexFault`).
-/

namespace BlogLedger

/-- Why a text is not hexadecimal. -/
inductive HexFault where
  /-- The text has an odd number of bytes. -/
  | oddLength
  /-- The byte at `position` is no digit. -/
  | badDigit (byte : UInt8) (position : Nat)
  deriving DecidableEq, Repr

/-- The wording of a fault.  The offending byte is shown as the character of the same number. -/
def HexFault.message : HexFault → String
  | .oddLength => "Odd number of digits"
  | .badDigit byte position =>
    "Invalid character " ++ Quoted.char (Char.ofNat byte.toNat) ++ " at position "
      ++ toString position

namespace Hex

/-- The digit of a number below sixteen; the letters start at `a`. -/
def digit (a : Char) (n : Nat) : Char :=
  if n < 10 then Char.ofNat (48 + n) else Char.ofNat (a.toNat + (n - 10))

/-- The two digits of a byte. -/
def byte (a : Char) (b : UInt8) : List Char :=
  [digit a (b.toNat / 16), digit a (b.toNat % 16)]

/-- The lower-case text of a byte string. -/
def lower (bytes : Bytes) : String :=
  String.ofList (bytes.flatMap (byte 'a'))

/-- The upper-case text of a byte string. -/
def upper (bytes : Bytes) : String :=
  String.ofList (bytes.flatMap (byte 'A'))

/-- The number that a digit byte stands for. -/
def value? (b : UInt8) : Option Nat :=
  if 48 ≤ b && b ≤ 57 then some (b.toNat - 48)
  else if 97 ≤ b && b ≤ 102 then some (b.toNat - 87)
  else if 65 ≤ b && b ≤ 70 then some (b.toNat - 55)
  else none

/-- The value of the digit byte at `position`. -/
def digitAt (b : UInt8) (position : Nat) : Except HexFault Nat :=
  match value? b with
  | some v => .ok v
  | none => .error (.badDigit b position)

/-- Read digit pairs from `position` on. -/
def readFrom (position : Nat) : Bytes → Except HexFault Bytes
  | high :: low :: rest => do
    let h ← digitAt high position
    let l ← digitAt low (position + 1)
    let tail ← readFrom (position + 2) rest
    return UInt8.ofNat (16 * h + l) :: tail
  | _ => .ok []

/-- The byte string that `text` writes.  An odd length is reported before any bad digit. -/
def read (text : String) : Except HexFault Bytes :=
  let bytes := Bytes.ofText text
  if bytes.length % 2 = 1 then .error .oddLength else readFrom 0 bytes

end Hex

end BlogLedger
