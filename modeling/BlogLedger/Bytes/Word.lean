import BlogLedger.Bytes

/-!
# Fixed-width words in byte strings

Identifiers and times are stored as eight big-endian bytes, so that byte order is numeric order.
Journal lengths and checksums are stored as four little-endian bytes.

## Main Definitions

* `Bytes.big64`, `Bytes.ofBig64?` — a 64-bit word, most significant byte first, and its reading.
* `Bytes.little32`, `Bytes.ofLittle32` — a 32-bit word, least significant byte first, and its reading.
* `Word.ofNat?`, `Word.ofInt?` — the 64-bit word of a number, without and with a sign.
-/

namespace BlogLedger

namespace Word

/-- The 64-bit word of a number that fits. -/
def ofNat? (n : Nat) : Option UInt64 :=
  if n < UInt64.size then some (UInt64.ofNat n) else none

/-- The 64-bit word with a sign of an integer that fits. -/
def ofInt? (i : Int) : Option Int64 :=
  if Int64.minValue.toInt ≤ i ∧ i ≤ Int64.maxValue.toInt then some (Int64.ofInt i) else none

@[simp] theorem ofNat?_toNat (word : UInt64) : ofNat? word.toNat = some word := by
  simp [ofNat?, word.toNat_lt_size]

@[simp] theorem ofInt?_toInt (word : Int64) : ofInt? word.toInt = some word := by
  have low := word.minValue_le_toInt
  have high := word.toInt_le
  simp only [ofInt?, low, high, and_self, if_true, Int64.ofInt_toInt]

end Word

namespace Bytes

/-- The last `count` base-256 digits of `n`, most significant first. -/
def bigDigits : Nat → Nat → Bytes
  | 0, _ => []
  | count + 1, n => bigDigits count (n / 256) ++ [UInt8.ofNat n]

/-- The number whose base-256 digits, most significant first, are `bytes`. -/
def ofBigDigits (bytes : Bytes) : Nat :=
  bytes.foldl (fun n b => n * 256 + b.toNat) 0

/-- A 64-bit word as eight bytes, most significant first. -/
def big64 (word : UInt64) : Bytes :=
  bigDigits 8 word.toNat

/-- The 64-bit word written as exactly eight bytes, most significant first. -/
def ofBig64? (bytes : Bytes) : Option UInt64 :=
  if bytes.length = 8 then some (UInt64.ofNat (ofBigDigits bytes)) else none

/-- A 32-bit word as four bytes, least significant first. -/
def little32 (word : UInt32) : Bytes :=
  (bigDigits 4 word.toNat).reverse

/-- The 32-bit word whose four bytes, least significant first, are `bytes`. -/
def ofLittle32 (bytes : Bytes) : UInt32 :=
  UInt32.ofNat (ofBigDigits bytes.reverse)

@[simp] theorem length_bigDigits (count n : Nat) : (bigDigits count n).length = count := by
  induction count generalizing n with
  | zero => rfl
  | succ count ih => simp [bigDigits, ih]

theorem ofBigDigits_append (front : Bytes) (last : UInt8) :
    ofBigDigits (front ++ [last]) = ofBigDigits front * 256 + last.toNat := by
  simp [ofBigDigits]

/-- Reading the last `count` digits of `n` gives `n` modulo that power of 256. -/
theorem ofBigDigits_bigDigits (count n : Nat) :
    ofBigDigits (bigDigits count n) = n % Nat.pow 256 count := by
  rw [Nat.pow_eq]
  induction count generalizing n with
  | zero => simp [bigDigits, ofBigDigits, Nat.mod_one]
  | succ count ih =>
    rw [bigDigits, ofBigDigits_append, ih, Nat.pow_succ', Nat.mod_mul, UInt8.toNat_ofNat']
    omega

@[simp] theorem length_big64 (word : UInt64) : (big64 word).length = 8 :=
  length_bigDigits 8 _

/-- A word reads back from its eight bytes. -/
@[simp] theorem ofBig64?_big64 (word : UInt64) : ofBig64? (big64 word) = some word := by
  simp [ofBig64?, big64, ofBigDigits_bigDigits]

@[simp] theorem length_little32 (word : UInt32) : (little32 word).length = 4 := by
  simp [little32]

/-- A word reads back from its four bytes. -/
@[simp] theorem ofLittle32_little32 (word : UInt32) : ofLittle32 (little32 word) = word := by
  simp [ofLittle32, little32, ofBigDigits_bigDigits]

end Bytes

end BlogLedger
