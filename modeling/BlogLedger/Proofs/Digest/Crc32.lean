import BlogLedger.Digest.Crc32
import Mathlib.Data.Nat.Bitwise

/-!
# Checksums and damage

The register of the checksum is shifted by a linear map that loses nothing.  So what was absorbed
after a difference never hides it, and a difference of up to four bytes is as wide as the register
and cannot be hidden by itself either.

A checksum of 32 bits cannot be different for all byte strings, and so the question is for which
changes it must be.  Here this is shown from the algorithm and not by looking at cases.  Two
registers that differ go on to differ, whatever is absorbed, since shifting is injective.  So it is
enough to look at the moment after the last of the changed bytes.  Going back from there one byte at
a time, what two registers may differ in grows by eight bits with each byte, and four bytes just
fill the register.

## Main Results

* `Crc32.shift_xor`, `Crc32.shift_injective` — shifting is linear and loses nothing.
* `Crc32.xor_lt_of_absorbAll_eq` — registers that few bytes bring together differ in few bits.
* `Crc32.absorbAll_injective` — up to four bytes are determined by what they do to the register.
* `Crc32.checksum_patch_inj` — byte strings that differ in up to four neighbouring bytes have
  different checksums.
-/

namespace BlogLedger.Crc32

variable {r r' : UInt32}

/-! ### One bit -/

theorem low_bit_iff (r : UInt32) : r &&& 1 = 1 ↔ r.toNat % 2 = 1 := by
  rw [← UInt32.toNat_inj, UInt32.toNat_and]
  exact (Nat.and_one_is_mod r.toNat).congr_left

theorem toNat_shiftRight_one (r : UInt32) : (r >>> 1).toNat = r.toNat / 2 := by
  rw [UInt32.toNat_shiftRight]
  exact Nat.shiftRight_one _

/-- Shifting is linear over exclusive or.  A shift looks at one bit only to decide whether to add
the polynomial, and adding is exclusive or. -/
theorem shift_xor (r r' : UInt32) : shift (r ^^^ r') = shift r ^^^ shift r' := by
  have hparity : (r ^^^ r').toNat % 2 = (r.toNat + r'.toNat) % 2 := by
    rw [UInt32.toNat_xor, Nat.xor_mod_two_eq]
  have hswap : ∀ a b c : UInt32, a ^^^ b ^^^ c = a ^^^ c ^^^ b := fun a b c => by
    rw [UInt32.xor_assoc, UInt32.xor_comm b c, UInt32.xor_assoc]
  simp only [shift, low_bit_iff, hparity, UInt32.shiftRight_xor]
  rcases Nat.mod_two_eq_zero_or_one r.toNat with hr | hr <;>
    rcases Nat.mod_two_eq_zero_or_one r'.toNat with hr' | hr'
  · simp [Nat.add_mod, hr, hr']
  · simp [Nat.add_mod, hr, hr', UInt32.xor_assoc]
  · simp [Nat.add_mod, hr, hr', hswap]
  · -- The polynomial is added twice, which takes it out again.
    have htwice : ∀ a b p : UInt32, a ^^^ p ^^^ (b ^^^ p) = a ^^^ b := fun a b p => by
      rw [← UInt32.xor_assoc, hswap a p b, UInt32.xor_assoc (a ^^^ b), UInt32.xor_self,
        UInt32.xor_zero]
    simp [Nat.add_mod, hr, hr', htwice]

/-- Only the empty register is shifted to the empty register, since the polynomial sets the bit that
every shift leaves free.  It is the kernel of a linear map. -/
theorem eq_zero_of_shift (h : shift r = 0) : r = 0 := by
  have hhalf := toNat_shiftRight_one r
  unfold shift at h
  split at h
  · have hpolynomial : (r >>> 1).toNat = 0xedb88320 :=
      congrArg UInt32.toNat (UInt32.xor_eq_zero_iff.1 h)
    have hlt := r.toNat_lt
    omega
  · next hbit =>
    rw [low_bit_iff] at hbit
    have hzero : (r >>> 1).toNat = 0 := congrArg UInt32.toNat h
    refine UInt32.toNat_inj.1 ?_
    show r.toNat = 0
    omega

/-- Shifting loses nothing.  For a linear map this follows from the kernel. -/
theorem shift_injective (h : shift r = shift r') : r = r' := by
  refine UInt32.xor_eq_zero_iff.1 (eq_zero_of_shift ?_)
  rw [shift_xor, h, UInt32.xor_self]

/-- A register whose last bit is free is only moved down.  The polynomial is not added then. -/
theorem toNat_shift_of_double {n : Nat} (h : r.toNat = 2 * n) : (shift r).toNat = n := by
  have hbit : ¬ r &&& 1 = 1 := by
    rw [low_bit_iff]
    omega
  rw [shift, if_neg hbit, toNat_shiftRight_one]
  omega

/-! ### One byte -/

theorem shiftByte_xor (r r' : UInt32) : shiftByte (r ^^^ r') = shiftByte r ^^^ shiftByte r' := by
  simp only [shiftByte, shift_xor]

theorem shiftByte_injective (h : shiftByte r = shiftByte r') : r = r' := by
  unfold shiftByte at h
  iterate 8 replace h := shift_injective h
  exact h

theorem toNat_shiftLeft_eight {d : UInt32} (h : d.toNat < 256 ^ 3) :
    (d <<< 8).toNat = d.toNat * 256 := by
  rw [UInt32.toNat_shiftLeft]
  show d.toNat <<< 8 % 2 ^ 32 = d.toNat * 256
  rw [Nat.shiftLeft_eq]
  exact Nat.mod_eq_of_lt (by omega)

/-- A register whose last eight bits are free is only moved down, by eight places.  It is the
statement on one bit, eight times. -/
theorem shiftByte_shiftLeft {d : UInt32} (h : d.toNat < 256 ^ 3) : shiftByte (d <<< 8) = d := by
  have hup := toNat_shiftLeft_eight h
  refine UInt32.toNat_inj.1 ?_
  unfold shiftByte
  iterate 8 refine toNat_shift_of_double ?_
  omega

/-- Absorbing a byte loses nothing of the register.  The byte is known, so it can be taken out
again. -/
theorem absorb_injective {b : UInt8} (h : absorb r b = absorb r' b) : r = r' :=
  (UInt32.xor_left_inj _).1 (shiftByte_injective h)

/-- The difference that two bytes make together with that of two registers.  From here on only
differences are looked at. -/
theorem absorb_xor (r r' : UInt32) (b b' : UInt8) :
    absorb r b ^^^ absorb r' b' = shiftByte (r ^^^ r' ^^^ (b ^^^ b').toUInt32) := by
  unfold absorb
  rw [← shiftByte_xor, UInt8.toUInt32_xor]
  ac_rfl

/-- Where two registers differ in the low bits alone, they differed in the bits above before the
last byte, apart from what the bytes differ in.  It goes back by one byte: as long as the upper bits
agree, absorbing can be undone by moving up. -/
theorem xor_eq_of_absorb {b b' : UInt8} (h : (absorb r b ^^^ absorb r' b').toNat < 256 ^ 3) :
    r ^^^ r' = (absorb r b ^^^ absorb r' b') <<< 8 ^^^ (b ^^^ b').toUInt32 := by
  have hback := shiftByte_shiftLeft h
  rw [absorb_xor] at hback
  have hinto := shiftByte_injective hback
  rw [absorb_xor, hinto, UInt32.xor_assoc, UInt32.xor_self, UInt32.xor_zero]

/-! ### Bytes in a row -/

variable {bytes bytes' : Bytes}

theorem absorbAll_append (r : UInt32) (front back : Bytes) :
    absorbAll r (front ++ back) = absorbAll (absorbAll r front) back :=
  List.foldl_append

/-- Bytes that are absorbed later do not hide a difference.  The induction is on those bytes, and
each one loses nothing. -/
theorem eq_of_absorbAll_eq (h : absorbAll r bytes = absorbAll r' bytes) : r = r' := by
  induction bytes generalizing r r' with
  | nil => exact h
  | cons b rest ih => exact absorb_injective (ih h)

/-- Registers that a few bytes bring together differ in no more bits than those bytes have.  The
induction goes back from the last byte, and each step adds eight bits.  Four bytes fill the
register, and for five the statement would say nothing. -/
theorem xor_lt_of_absorbAll_eq (hlength : bytes.length = bytes'.length)
    (hshort : bytes.length ≤ 4) (h : absorbAll r bytes = absorbAll r' bytes') :
    (r ^^^ r').toNat < 256 ^ bytes.length := by
  induction bytes generalizing bytes' r r' with
  | nil =>
    obtain rfl : bytes' = [] := List.eq_nil_of_length_eq_zero hlength.symm
    obtain rfl : r = r' := h
    rw [UInt32.xor_self]
    exact Nat.one_pos
  | cons b rest ih =>
    cases bytes' with
    | nil => cases hlength
    | cons b' rest' =>
      rw [List.length_cons] at hshort
      have hrest := ih (Nat.succ.inj hlength) (by omega) h
      have hthree : (absorb r b ^^^ absorb r' b').toNat < 256 ^ 3 :=
        Nat.lt_of_lt_of_le hrest (Nat.pow_le_pow_right (by decide) (by omega))
      have hpow : ∀ n, 256 ^ n = 2 ^ (8 * n) := fun n => Nat.pow_mul 2 8 n ▸ rfl
      have hbyte := (b ^^^ b').toNat_lt
      rw [xor_eq_of_absorb hthree, UInt32.toNat_xor, toNat_shiftLeft_eight hthree,
        UInt8.toNat_toUInt32, hpow, List.length_cons]
      refine Nat.xor_lt_two_pow ?_ ?_
      · rw [← hpow, Nat.pow_succ]
        omega
      · exact Nat.lt_of_lt_of_le hbyte (Nat.pow_le_pow_right (by decide) (by omega))

/-- Up to four bytes are determined by what they make of a register.  If the registers start alike
their difference is zero, and going back shows it for every byte. -/
theorem absorbAll_injective (hlength : bytes.length = bytes'.length) (hshort : bytes.length ≤ 4)
    (h : absorbAll r bytes = absorbAll r bytes') : bytes = bytes' := by
  induction bytes generalizing bytes' r with
  | nil => exact (List.eq_nil_of_length_eq_zero hlength.symm).symm
  | cons b rest ih =>
    cases bytes' with
    | nil => cases hlength
    | cons b' rest' =>
      rw [List.length_cons] at hshort
      have hrest := Nat.succ.inj hlength
      have hlow := xor_lt_of_absorbAll_eq hrest (by omega) h
      have hthree : (absorb r b ^^^ absorb r b').toNat < 256 ^ 3 :=
        Nat.lt_of_lt_of_le hlow (Nat.pow_le_pow_right (by decide) (by omega))
      -- What the first bytes differ in has eight bits, and is moved up by eight bits.
      have hback := xor_eq_of_absorb hthree
      rw [UInt32.xor_self] at hback
      have hsame := congrArg UInt32.toNat (UInt32.xor_eq_zero_iff.1 hback.symm)
      rw [toNat_shiftLeft_eight hthree, UInt8.toNat_toUInt32] at hsame
      have hbyte := (b ^^^ b').toNat_lt
      have hzero : (b ^^^ b').toNat = 0 := by omega
      obtain rfl : b = b' := UInt8.xor_eq_zero_iff.1 (UInt8.toNat_inj.1 hzero)
      rw [ih hrest (by omega) h]

/-- Byte strings that differ in up to four neighbouring bytes have different checksums.  What comes
before the change gives both the same register, and what comes after it does not hide the
difference. -/
theorem checksum_patch_inj {front old new back : Bytes} (hlength : new.length = old.length)
    (hshort : new.length ≤ 4)
    (h : checksum (front ++ new ++ back) = checksum (front ++ old ++ back)) : new = old := by
  unfold checksum at h
  have hregister := (UInt32.xor_left_inj _).1 h
  simp only [absorbAll_append] at hregister
  exact absorbAll_injective hlength hshort (eq_of_absorbAll_eq hregister)

/-- The check value of CRC-32/IEEE. -/
example : checksum [0x31, 0x32, 0x33, 0x34, 0x35, 0x36, 0x37, 0x38, 0x39] = 0xcbf43926 := by
  decide +kernel

end BlogLedger.Crc32
