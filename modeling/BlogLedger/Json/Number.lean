import BlogLedger.Bytes.Decimal
import BlogLedger.Bytes.Word

/-!
# Numbers inside JSON

A number is kept as it is written.  Only whole numbers have a value here; every other literal is
merely well formed, and may or may not fit a double.

## Main Definitions

* `Number.Literal`, `Number.literal?` — the parts of a written number.
* `Number.uint64?`, `Number.int64?` — the value of a literal without fraction and exponent.
* `Number.fitsDouble` — whether a literal reads as a finite double.

## Design Notes

A double is read from the leading digits that fit in 64 bits and a power of ten, each rounded to 53
bits on its own.  `fitsDouble` is exact arithmetic on that rule.
-/

namespace BlogLedger.Json.Number

/-- The parts of a written number. -/
structure Literal where
  negative : Bool
  whole : Bytes
  fraction : Option Bytes
  /-- Whether the exponent is negative, and its digits. -/
  exponent : Option (Bool × Bytes)
  deriving DecidableEq, Repr

/-- Split leading digits off. -/
def digits (lexeme : Bytes) : Bytes × Bytes :=
  (lexeme.takeWhile Decimal.isDigit, lexeme.dropWhile Decimal.isDigit)

/-- Read the exponent that ends a number: nothing, or a letter, an optional sign and digits. -/
def exponent? : Bytes → Option (Option (Bool × Bytes))
  | [] => some none
  | letter :: rest =>
    let (negative, rest) := match rest with
      | 45 :: rest => (true, rest)
      | 43 :: rest => (false, rest)
      | rest => (false, rest)
    if (letter = 101 || letter = 69) && !rest.isEmpty && rest.all Decimal.isDigit then
      some (some (negative, rest))
    else none

/-- Read what follows the whole part: an optional fraction and an optional exponent. -/
def tail? (negative : Bool) (whole : Bytes) : Bytes → Option Literal
  | 46 :: rest => do
    let (fraction, rest) := digits rest
    if fraction.isEmpty then none
    return { negative, whole, fraction := some fraction, exponent := ← exponent? rest }
  | rest => do
    return { negative, whole, fraction := none, exponent := ← exponent? rest }

/-- Read the whole part, which has no leading zero, and what follows. -/
def unsigned? (negative : Bool) (lexeme : Bytes) : Option Literal :=
  let (whole, rest) := digits lexeme
  if whole.isEmpty || (whole.head? = some 48 && 1 < whole.length) then none
  else tail? negative whole rest

/-- The parts of a written number, if it is one. -/
def literal? : Bytes → Option Literal
  | 45 :: rest => unsigned? true rest
  | lexeme => unsigned? false lexeme

/-- The integer that a literal without fraction and exponent writes; `-0` writes none. -/
def integer? (lexeme : Bytes) : Option Int :=
  match literal? lexeme with
  | some ⟨negative, whole, none, none⟩ =>
    let n := Decimal.value 0 whole
    if negative then (if n = 0 then none else some (-(n : Int))) else some (n : Int)
  | _ => none

/-- The unsigned 64-bit integer that a literal writes. -/
def uint64? (lexeme : Bytes) : Option UInt64 :=
  match integer? lexeme with
  | some (.ofNat n) => Word.ofNat? n
  | _ => none

/-- The signed 64-bit integer that a literal writes. -/
def int64? (lexeme : Bytes) : Option Int64 :=
  (integer? lexeme).bind Word.ofInt?

/-! ### Size -/

/-- Leading digits as a 64-bit significand, and the power of ten that belongs to it. -/
structure Scaled where
  significand : Nat
  power : Int

/-- Take up the digits that still fit; `dropped` is what each further digit adds to the power. -/
def Scaled.absorb (taken dropped : Int) : Scaled → Bytes → Scaled
  | s, [] => s
  | s, d :: rest =>
    let significand := 10 * s.significand + (d.toNat - 48)
    if significand < UInt64.size then absorb taken dropped ⟨significand, s.power + taken⟩ rest
    else ⟨s.significand, s.power + dropped * (rest.length + 1)⟩

/-- The significand and power of ten of a literal. -/
def Literal.scaled (l : Literal) : Scaled :=
  let whole := Scaled.absorb 0 1 ⟨0, 0⟩ l.whole
  let all := Scaled.absorb (-1) 0 whole (l.fraction.getD [])
  match l.exponent with
  | none => all
  | some (negative, digits) =>
    let e : Int := Decimal.value 0 digits
    ⟨all.significand, all.power + if negative then -e else e⟩

/-- Round a number to its leading 53 bits, ties to even. -/
def round53 (n : Nat) : Nat :=
  if n.log2 < 53 then n
  else
    let drop := n.log2 - 52
    let q := n >>> drop
    let r := n - q <<< drop
    let half := 1 <<< (drop - 1)
    (if half < r || (r = half && q % 2 = 1) then q + 1 else q) <<< drop

/-- The least product that rounds to infinity. -/
def infinite : Nat := (1 <<< 1024) - (1 <<< 970)

/-- Whether a significand and power of ten give a finite double. -/
def Scaled.isFinite (s : Scaled) : Bool :=
  if s.significand = 0 || s.power < 0 then true
  else if 308 < s.power then false
  else round53 s.significand * round53 (Nat.pow 10 s.power.toNat) < infinite

/-- Whether a literal reads as a finite double. -/
def fitsDouble (lexeme : Bytes) : Bool :=
  match literal? lexeme with
  | some l => l.scaled.isFinite
  | none => false

end BlogLedger.Json.Number
