import BlogLedger.Json.Basic
import BlogLedger.Json.Token
import Mathlib.Data.List.TakeWhile

/-!
# Numerals that are read back

The ledger writes whole numbers only.  Such a numeral is one literal of JSON, it reads as the number
that was written, and a number of 64 bits always fits a double.

A numeral is read three times: it has to be a literal of JSON, to have a value in range, and to fit
a double, which is asked of every number whether or not it is used as one.  The third is where size
matters.  A number of 64 bits is far from the largest double, so a crude bound on the rounding is
enough.

## Main Results

* `Decimal.value_ofNat` — a numeral has the value of its number.
* `Json.Number.literal?_ofInt` — the numeral of an integer is a literal without a fraction.
* `Json.Number.uint64?_ofNat`, `Json.Number.int64?_ofInt` — 64-bit numbers read back.
* `Json.Number.fitsDouble_ofInt` — numbers of 64 bits fit a double.
-/

namespace BlogLedger

namespace Decimal

/-- The byte of a digit character.  Numerals are made of characters by the library, and forms of
bytes. -/
def digitByte (c : Char) : UInt8 := UInt8.ofNat c.toNat

theorem ofNat_eq_map (n : Nat) : ofNat n = (Nat.toDigits 10 n).map digitByte := rfl

theorem toNat_digitByte {c : Char} (h : c.isDigit = true) :
    (digitByte c).toNat = c.toNat ∧ 48 ≤ c.toNat ∧ c.toNat ≤ 57 := by
  have hc : 48 ≤ c.toNat ∧ c.toNat ≤ 57 := by
    simpa [Char.isDigit, UInt32.le_iff_toNat_le] using h
  refine ⟨?_, hc⟩
  rw [digitByte, UInt8.toNat_ofNat']
  omega

theorem isDigit_digitByte {c : Char} (h : c.isDigit = true) : isDigit (digitByte c) = true := by
  obtain ⟨hval, hlow, hhigh⟩ := toNat_digitByte h
  simp only [isDigit, Bool.and_eq_true, decide_eq_true_eq, UInt8.le_iff_toNat_le, hval]
  exact ⟨hlow, hhigh⟩

theorem isDigit_of_mem_toDigits {c : Char} {n : Nat} (h : c ∈ Nat.toDigits 10 n) :
    c.isDigit = true :=
  Nat.isDigit_of_mem_toDigits (by decide) (by decide) h

/-- A numeral consists of digits.  There is no sign and no mark in it. -/
theorem isDigit_of_mem_ofNat {b : UInt8} {n : Nat} (h : b ∈ ofNat n) : isDigit b = true := by
  rw [ofNat_eq_map, List.mem_map] at h
  obtain ⟨c, hc, rfl⟩ := h
  exact isDigit_digitByte (isDigit_of_mem_toDigits hc)

@[simp] theorem ofNat_ne_nil (n : Nat) : ofNat n ≠ [] := by
  simp [ofNat_eq_map]

theorem value_map_digitByte {l : List Char} (h : ∀ c ∈ l, c.isDigit = true) (acc : Nat) :
    value acc (l.map digitByte) = Nat.ofDigitChars 10 l acc := by
  induction l generalizing acc with
  | nil => rfl
  | cons c rest ih =>
    have hc := (toNat_digitByte (h c List.mem_cons_self)).1
    rw [Nat.ofDigitChars_cons, ← ih fun d hd => h d (List.mem_cons_of_mem _ hd)]
    simp [value, hc]

/-- A numeral has the value of its number.  Writing is done by the library, and this is the inverse
that is used for reading. -/
@[simp] theorem value_ofNat (n : Nat) : value 0 (ofNat n) = n := by
  rw [ofNat_eq_map, value_map_digitByte fun c hc => isDigit_of_mem_toDigits hc]
  exact Nat.ofDigitChars_ten_toDigits

/-- Only the numeral of zero begins with a zero.  JSON allows no other leading zeros. -/
theorem head?_ofNat {n : Nat} (h : 0 < n) : (ofNat n).head? ≠ some 48 := by
  induction n using Nat.strongRecOn with
  | ind n ih =>
    by_cases hn : n < 10
    · rw [ofNat_eq_map, Nat.toDigits_of_lt_base hn]
      have hdigit := Nat.toNat_digitChar_of_lt_ten hn
      simp only [List.map_cons, List.head?_cons, ne_eq, Option.some.injEq, digitByte, hdigit,
        ← UInt8.toNat_inj, UInt8.toNat_ofNat']
      simp
      omega
    · have hfront := ih (n / 10) (by omega) (by omega)
      rw [ofNat_eq_map, Nat.toDigits_of_base_le (by decide) (by omega), List.map_append,
        ← ofNat_eq_map, List.head?_append]
      cases hq : (ofNat (n / 10)).head? with
      | none => exact absurd (List.head?_eq_none_iff.1 hq) (ofNat_ne_nil _)
      | some b => simpa [hq] using hfront

/-- Digits in front only make a value greater.  So if the whole value fits in 64 bits, every value
on the way to it does. -/
theorem le_value (acc : Nat) (digits : Bytes) : acc ≤ value acc digits := by
  induction digits generalizing acc with
  | nil => exact Nat.le_refl _
  | cons d rest ih =>
    have hrest := ih (10 * acc + (d.toNat - 48))
    simp only [value, List.foldl_cons] at hrest ⊢
    omega

end Decimal

namespace Json.Number

/-- A numeral without a leading zero.  It is what a literal asks of its whole part. -/
structure Plain (whole : Bytes) : Prop where
  ne_nil : whole ≠ []
  digits : ∀ b ∈ whole, Decimal.isDigit b = true
  head : ¬ (whole.head? = some 48 ∧ 1 < whole.length)

theorem plain_ofNat (n : Nat) : Plain (Decimal.ofNat n) := by
  refine ⟨Decimal.ofNat_ne_nil n, fun b hb => Decimal.isDigit_of_mem_ofNat hb, ?_⟩
  rcases Nat.eq_zero_or_pos n with rfl | hn
  · simp [Decimal.ofNat_eq_map]
  · exact fun h => Decimal.head?_ofNat hn h.1

theorem unsigned?_of_plain {whole : Bytes} (h : Plain whole) (negative : Bool) :
    unsigned? negative whole = some ⟨negative, whole, none, none⟩ := by
  have htake : whole.takeWhile Decimal.isDigit = whole := List.takeWhile_eq_self_iff.2 h.digits
  have hdrop : whole.dropWhile Decimal.isDigit = [] := List.dropWhile_eq_nil_iff.2 h.digits
  have hhead : (whole.head? = some 48 ∧ 1 < whole.length) = False := eq_false h.head
  simp [unsigned?, Number.digits, htake, hdrop, h.ne_nil, hhead, tail?, exponent?]

theorem literal?_of_plain {whole : Bytes} (h : Plain whole) :
    literal? whole = some ⟨false, whole, none, none⟩ := by
  cases whole with
  | nil => exact absurd rfl h.ne_nil
  | cons b rest =>
    have hb : b ≠ 45 := by
      rintro rfl
      exact absurd (h.digits 45 List.mem_cons_self) (by decide)
    rw [literal?, unsigned?_of_plain h]
    intro rest' hrest
    exact hb (List.cons.inj hrest).1

/-- The numeral of an integer is a literal without fraction and exponent.  The sign is that of the
integer, and a zero is written without one. -/
theorem literal?_ofInt (i : Int) :
    literal? (Decimal.ofInt i) = some ⟨decide (i < 0), Decimal.ofNat i.natAbs, none, none⟩ := by
  cases i with
  | ofNat n =>
    have hneg : ¬ (Int.ofNat n < 0) := Int.not_lt.2 (Int.natCast_nonneg n)
    simp only [hneg, decide_false]
    exact literal?_of_plain (plain_ofNat n)
  | negSucc n =>
    have h := unsigned?_of_plain (plain_ofNat (n + 1)) true
    simpa [Decimal.ofInt, literal?, Int.negSucc_lt_zero] using h

theorem ofNat_eq_ofInt (n : Nat) : Decimal.ofNat n = Decimal.ofInt n := rfl

/-- The numeral of an integer writes that integer.  The sign and the digits are put together again. -/
theorem integer?_ofInt (i : Int) : integer? (Decimal.ofInt i) = some i := by
  rw [integer?, literal?_ofInt]
  simp only [Decimal.value_ofNat]
  split
  · next h =>
    have hneg : i < 0 := by simpa using h
    have hne : i.natAbs ≠ 0 := by omega
    rw [if_neg hne]
    congr 1
    omega
  · next h =>
    have hneg : ¬ i < 0 := by simpa using h
    congr 1
    omega

/-- An unsigned 64-bit number reads back, up to the greatest one. -/
@[simp] theorem uint64?_ofNat (word : UInt64) :
    uint64? (Decimal.ofNat word.toNat) = some word := by
  rw [uint64?, ofNat_eq_ofInt, integer?_ofInt]
  exact Word.ofNat?_toNat word

/-- A signed 64-bit number reads back, down to the least one. -/
@[simp] theorem int64?_ofInt (word : Int64) : int64? (Decimal.ofInt word.toInt) = some word := by
  rw [int64?, integer?_ofInt]
  exact Word.ofInt?_toInt word

/-! ### Size -/

/-- Digits whose value fits in 64 bits are all taken up.  A longer row of digits would be cut off
and counted as an exponent. -/
theorem absorb_of_fits (m : Nat) (digits : Bytes) (h : Decimal.value m digits < UInt64.size) :
    Scaled.absorb 0 1 ⟨m, 0⟩ digits = ⟨Decimal.value m digits, 0⟩ := by
  induction digits generalizing m with
  | nil => rfl
  | cons d rest ih =>
    have hstep : 10 * m + (d.toNat - 48) < UInt64.size :=
      Nat.lt_of_le_of_lt (Decimal.le_value _ rest) h
    rw [Scaled.absorb]
    simp only [if_pos hstep, Int.add_zero]
    exact ih _ h

/-- Rounding to 53 bits at most doubles a number.  It is far from the best bound, and nothing better
is needed. -/
theorem round53_le (n : Nat) : round53 n ≤ 2 * n := by
  unfold round53
  split
  · omega
  · next hlog =>
    have hpow : 2 ^ (n.log2 - 52) ≤ n := by
      refine Nat.le_trans (Nat.pow_le_pow_right (by decide) (Nat.sub_le _ _)) ?_
      exact Nat.log2_self_le (by rintro rfl; simp at hlog)
    have hq : n / 2 ^ (n.log2 - 52) * 2 ^ (n.log2 - 52) ≤ n := Nat.div_mul_le_self _ _
    simp only [Nat.shiftLeft_eq, Nat.shiftRight_eq_div_pow]
    split
    · rw [Nat.add_mul]
      omega
    · omega

/-- The numeral of a number of 64 bits fits a double.  Twice the greatest one is still small against
what is too large for a double. -/
theorem fitsDouble_ofInt {i : Int} (h : i.natAbs < UInt64.size) :
    fitsDouble (Decimal.ofInt i) = true := by
  have hvalue := Decimal.value_ofNat i.natAbs
  have habsorb := absorb_of_fits 0 (Decimal.ofNat i.natAbs) (by rw [hvalue]; exact h)
  have hround : round53 i.natAbs < infinite := by
    have hinfinite : 2 * UInt64.size < infinite := by decide
    refine Nat.lt_of_le_of_lt (round53_le _) (Nat.lt_trans ?_ hinfinite)
    omega
  have hone : round53 1 = 1 := by decide
  simp [fitsDouble, literal?_ofInt, Literal.scaled, habsorb, hvalue, Scaled.absorb,
    Scaled.isFinite, hround, hone]

end Json.Number

end BlogLedger
