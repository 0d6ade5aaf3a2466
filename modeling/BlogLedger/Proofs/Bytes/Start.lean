import BlogLedger.Bytes.Map

/-!
# Ranges of keys with a common start

A scan for a start is made as a range of keys, from the start itself to the least byte string after
all that start with it.  That the two are the same set of keys is needed for every scan.

## Main Results

* `ByteMap.inRange_prefixEnd` — the range that ends at the end of a byte string holds exactly the
  keys that start with it.
* `Bytes.starts_of_le_of_lt` — so does a range that ends at a longer byte string.
-/

namespace BlogLedger

theorem Bytes.lt_succ_iff {b c : UInt8} (h : b ≠ 0xff) : c < b + 1 ↔ c ≤ b := by
  have hb := b.toNat_lt
  have hne : b.toNat ≠ 255 := fun he => h (UInt8.toNat_inj.1 he)
  have hsucc : (b + 1).toNat = b.toNat + 1 := by
    rw [UInt8.toNat_add]
    exact Nat.mod_eq_of_lt (by simp; omega)
  rw [UInt8.lt_iff_toNat_lt, UInt8.le_iff_toNat_le, hsucc]
  omega

theorem Bytes.not_ff_lt (c : UInt8) : ¬ (0xff : UInt8) < c := by
  rw [UInt8.lt_iff_toNat_lt]
  have hc := c.toNat_lt
  have hff : (0xff : UInt8).toNat = 255 := rfl
  omega

/-- The range from a byte string to its end holds exactly the keys that start with it.  If all of
its bytes are the last one there is no end, and the range goes on to the last key. -/
theorem ByteMap.inRange_prefixEnd (start key : Bytes) :
    inRange start (Bytes.prefixEnd start) key = true ↔ start <+: key := by
  induction start generalizing key with
  | nil => simp [inRange, Bytes.prefixEnd]
  | cons b rest ih =>
    cases key with
    | nil => simp [inRange]
    | cons c key =>
      have hrest := ih key
      unfold inRange at hrest ⊢
      unfold Bytes.prefixEnd
      rw [List.cons_prefix_cons, ← hrest]
      -- The end moves up the last byte that can be moved up, so what it does to the first byte
      -- depends on whether the rest has an end.
      cases hend : Bytes.prefixEnd rest with
      | some e =>
        simp only [Option.all_some, Bool.and_eq_true, decide_eq_true_eq, List.cons_lt_cons_iff,
          List.cons_le_cons_iff]
        constructor
        · rintro ⟨hlow | ⟨rfl, hlow⟩, hhigh | ⟨hbc, hhigh⟩⟩
          · exact absurd (UInt8.lt_trans hlow hhigh) (UInt8.lt_irrefl _)
          · exact absurd (hbc ▸ hlow) (UInt8.lt_irrefl _)
          · exact absurd hhigh (UInt8.lt_irrefl _)
          · exact ⟨rfl, hlow, hhigh⟩
        · rintro ⟨rfl, hlow, hhigh⟩
          exact ⟨.inr ⟨rfl, hlow⟩, .inr ⟨rfl, hhigh⟩⟩
      | none =>
        by_cases hb : b = 0xff
        · -- There is no end, and no key lies above a start of highest bytes.
          subst hb
          simp only [if_true, Option.all_none, Bool.and_true, decide_eq_true_eq,
            List.cons_le_cons_iff]
          constructor
          · rintro (hlow | h)
            · exact absurd hlow (Bytes.not_ff_lt c)
            · exact h
          · exact .inr
        · simp only [if_neg hb, Option.all_some, Option.all_none, Bool.and_true, Bool.and_eq_true,
            decide_eq_true_eq, List.cons_lt_cons_iff, List.cons_le_cons_iff,
            Bytes.lt_succ_iff hb, List.not_lt_nil, and_false, or_false]
          constructor
          · rintro ⟨hlow | h, hhigh⟩
            · exact absurd hlow (UInt8.not_lt.2 hhigh)
            · exact h
          · rintro ⟨rfl, hlow⟩
            exact ⟨.inr ⟨rfl, hlow⟩, UInt8.le_refl _⟩

/-- What lies between a byte string and a longer one that starts with it starts with it too.  So a
range that begins and ends within one index does not leave it. -/
theorem Bytes.starts_of_le_of_lt {start rest key : Bytes} (hlow : start ≤ key)
    (hhigh : key < start ++ rest) : start <+: key := by
  induction start generalizing key with
  | nil => exact List.nil_prefix
  | cons b start ih =>
    cases key with
    | nil => exact absurd (List.nil_lt_cons b start) (List.not_lt.2 hlow)
    | cons c key =>
      rw [List.cons_le_cons_iff] at hlow
      rw [List.cons_append, List.cons_lt_cons_iff] at hhigh
      rcases hlow with hlow | ⟨rfl, hlow⟩
      · rcases hhigh with hhigh | ⟨rfl, hhigh⟩
        · exact absurd (UInt8.lt_trans hlow hhigh) (UInt8.lt_irrefl _)
        · exact absurd hlow (UInt8.lt_irrefl _)
      · rcases hhigh with hhigh | ⟨-, hhigh⟩
        · exact absurd hhigh (UInt8.lt_irrefl _)
        · exact List.cons_prefix_cons.2 ⟨rfl, ih hlow hhigh⟩

end BlogLedger
