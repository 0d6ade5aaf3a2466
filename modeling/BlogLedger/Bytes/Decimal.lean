import BlogLedger.Bytes

/-!
# Decimal numerals

Integers as decimal digits, in byte strings.

## Main Definitions

* `Decimal.ofNat`, `Decimal.ofInt` — the numeral of a number.
* `Decimal.nat?`, `Decimal.int?` — the number of a numeral; a sign is optional for `int?`.
-/

namespace BlogLedger.Decimal

/-- The digits of a natural number. -/
def ofNat (n : Nat) : Bytes :=
  (Nat.toDigits 10 n).map fun c => UInt8.ofNat c.toNat

/-- The numeral of an integer. -/
def ofInt : Int → Bytes
  | .ofNat n => ofNat n
  | .negSucc n => 45 :: ofNat (n + 1)

/-- Whether a byte is a digit. -/
def isDigit (b : UInt8) : Bool :=
  48 ≤ b && b ≤ 57

/-- The number that a string of digits writes when `acc` stands before it. -/
def value (acc : Nat) (digits : Bytes) : Nat :=
  digits.foldl (fun n b => 10 * n + (b.toNat - 48)) acc

/-- The number written by one or more digits. -/
def nat? (digits : Bytes) : Option Nat :=
  if digits.isEmpty || !digits.all isDigit then none else some (value 0 digits)

/-- The integer written by an optional sign and one or more digits. -/
def int? : Bytes → Option Int
  | 45 :: digits => (nat? digits).map fun n => -(n : Int)
  | 43 :: digits => (nat? digits).map Int.ofNat
  | digits => (nat? digits).map Int.ofNat

end BlogLedger.Decimal
