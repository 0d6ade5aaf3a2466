import BlogLedger.Proofs.Bytes.Order
import BlogLedger.Timestamp

/-!
# The order of times

Times compare as their seconds, and the bytes of times that are not before 1970 compare as the
times.

Queues and indexes are read in the order of their keys, and what a caller wants is the order of
times.  Both agree on times since 1970 only, as the highest bit of a time before it is set.  The
ranges that are read end with the next second, which does not exist for the last time of all, and
this exception is carried through every result about ranges.

## Main Definitions

* `Timestamp.Usable` — a time at which a transition can happen.
* `Timestamp.last` — the last time of the 64-bit range.

## Main Results

* `Timestamp.key_lt_iff`, `Timestamp.keepsOrder_key` — bytes of times compare as the times.
* `Timestamp.lt_addSeconds_one_iff` — what comes before the next second.
* `Timestamp.key_lt_addSeconds_one` — the same for the bytes of times.
-/

namespace BlogLedger.Timestamp

theorem lt_iff {s t : Timestamp} : s < t ↔ s.toInt < t.toInt := Int64.lt_iff_toInt_lt

theorem le_iff {s t : Timestamp} : s ≤ t ↔ s.toInt ≤ t.toInt := Int64.le_iff_toInt_le

theorem not_lt {s t : Timestamp} : ¬ s < t ↔ t ≤ s := by
  rw [lt_iff, le_iff]
  exact Int.not_lt

theorem le_refl (t : Timestamp) : t ≤ t := le_iff.2 (Int.le_refl _)

theorem le_trans {s t u : Timestamp} (hst : s ≤ t) (htu : t ≤ u) : s ≤ u :=
  le_iff.2 (Int.le_trans (le_iff.1 hst) (le_iff.1 htu))

@[simp] theorem toInt_unset : unset.toInt = 0 := rfl

/-- A time at which a transition can happen: it is positive, and the calendar can show it.  Every
other time is refused before a message is looked at. -/
structure Usable (t : Timestamp) : Prop where
  positive : unset < t
  shown : t.IsRepresentable

theorem Usable.ne_unset {t : Timestamp} (h : t.Usable) : t ≠ unset := by
  rintro rfl
  exact absurd h.positive (by decide)

theorem not_lt_unset_of_lt {s t : Timestamp} (hs : ¬ s < unset) (h : s < t) : ¬ t < unset := by
  rw [lt_iff, toInt_unset] at *
  omega

theorem Usable.not_lt_unset {t : Timestamp} (h : t.Usable) : ¬ t < unset :=
  not_lt_unset_of_lt (by decide) h.positive

/-- Different times have different bytes.  This also holds before 1970. -/
theorem key_inj {s t : Timestamp} : s.key = t.key ↔ s = t := by
  refine ⟨fun h => ?_, fun h => by rw [h]⟩
  have hword : s.seconds.toUInt64 = t.seconds.toUInt64 := Bytes.big64_inj.1 h
  cases s
  cases t
  exact congrArg (fun w : UInt64 => Timestamp.mk w.toInt64) hword

@[simp] theorem length_key (t : Timestamp) : t.key.length = 8 := Bytes.length_big64 _

/-- The bytes of a time read back.  With the highest bit taken as the sign they do so for every
time. -/
@[simp] theorem ofKey?_key (t : Timestamp) : ofKey? t.key = some t := by
  unfold ofKey? key
  rw [Bytes.ofBig64?_big64]
  rfl

/-- The word of a time that is not before 1970 is its number of seconds.  A word has no sign, and
the time has none to lose. -/
theorem toNat_toUInt64 {t : Timestamp} (h : ¬ t < unset) :
    (t.seconds.toUInt64.toNat : Int) = t.toInt := by
  have hnonneg : 0 ≤ t.seconds.toInt := by
    rw [lt_iff, toInt_unset] at h
    exact Int.not_lt.1 h
  have hlt := t.seconds.toInt_lt
  have hword : t.seconds.toUInt64.toNat = t.seconds.toBitVec.toNat := rfl
  have hint : t.seconds.toInt = t.seconds.toBitVec.toInt := rfl
  rw [hword, toInt, hint]
  rw [hint] at hnonneg hlt
  rw [BitVec.toInt_eq_toNat_cond] at *
  have hbound := t.seconds.toBitVec.isLt
  split at * <;> omega

/-- Bytes of times that are not before 1970 compare as the times.  Each side needs its own
hypothesis, for a time before 1970 would sort after all others. -/
theorem key_lt_iff {s t : Timestamp} (hs : ¬ s < unset) (ht : ¬ t < unset) :
    s.key < t.key ↔ s < t := by
  have hs' := toNat_toUInt64 hs
  have ht' := toNat_toUInt64 ht
  unfold key
  rw [Bytes.big64_lt_iff, UInt64.lt_iff_toNat_lt, lt_iff]
  omega

/-- The last time of the 64-bit range; no second comes after it. -/
def last : Timestamp := ⟨Int64.maxValue⟩

theorem toInt_last : last.toInt = 9223372036854775807 := by decide

theorem le_last (t : Timestamp) : t ≤ last := by
  have hlt := t.seconds.toInt_lt
  rw [le_iff, toInt_last]
  unfold toInt
  omega

/-- Different times are different numbers of seconds.  Arithmetic is done on the numbers. -/
theorem toInt_inj {s t : Timestamp} : s.toInt = t.toInt ↔ s = t := by
  refine ⟨fun h => ?_, fun h => by rw [h]⟩
  cases s
  cases t
  exact congrArg Timestamp.mk (Int64.toInt_inj.1 h)

/-- Bytes of times that are not before 1970 compare as the seconds.  In this form it can be combined
with other parts of a key. -/
theorem keepsOrder_key : Bytes.KeepsOrder (fun t => ¬ t < unset) key toInt where
  lt_iff hs ht := (key_lt_iff hs ht).trans lt_iff
  eq_iff := key_inj.trans toInt_inj.symm

/-- The next second, or the last time itself.  A time is held at the end of the range, so adding a
second does nothing there. -/
theorem toInt_addSeconds_one (t : Timestamp) :
    (t.addSeconds 1).toInt = if t = last then t.toInt else t.toInt + 1 := by
  have hlow := t.seconds.le_toInt
  have hmin : Int64.minValue.toInt = -9223372036854775808 := by decide
  have hmax : Int64.maxValue.toInt = 9223372036854775807 := by decide
  have hone : (1 : Int64).toInt = 1 := by decide
  by_cases hlast : t = last
  · subst hlast
    decide
  · have hle := le_iff.1 (le_last t)
    have hne : t.toInt ≠ last.toInt := fun h => hlast (toInt_inj.1 h)
    rw [toInt_last] at hle hne
    unfold toInt at hle hne
    have hclamp : clamp (t.toInt + 1) = Int64.ofInt (t.toInt + 1) := by
      unfold clamp toInt
      rw [hmin, hmax, if_neg (by omega), if_neg (by omega)]
    rw [if_neg hlast]
    unfold addSeconds
    rw [hone, hclamp]
    exact Int64.toInt_ofInt_of_le (by unfold toInt; omega) (by unfold toInt; omega)

/-- Before the next second comes what is not later, except for the last time: nothing comes after
it. -/
theorem lt_addSeconds_one_iff {s t : Timestamp} : s < t.addSeconds 1 ↔ s ≤ t ∧ s ≠ last := by
  have hs := le_iff.1 (le_last s)
  have ht := le_iff.1 (le_last t)
  have hne : s ≠ last ↔ s.toInt ≠ last.toInt := not_congr toInt_inj.symm
  rw [lt_iff, toInt_addSeconds_one, le_iff, hne]
  by_cases hlast : t = last
  · rw [if_pos hlast, hlast]
    omega
  · have hbefore : t.toInt ≠ last.toInt := fun h => hlast (toInt_inj.1 h)
    rw [if_neg hlast]
    omega

theorem not_lt_unset_addSeconds_one {t : Timestamp} (h : ¬ t < unset) : ¬ t.addSeconds 1 < unset := by
  rw [lt_iff, toInt_unset] at *
  rw [toInt_addSeconds_one]
  split <;> omega

/-- The bytes of a time lie before those of the next second of another one exactly when the time
does.  The next second must not be before 1970 either. -/
theorem key_lt_addSeconds_one {s t : Timestamp} (hs : ¬ s < unset)
    (hnext : ¬ t.addSeconds 1 < unset) : s.key < (t.addSeconds 1).key ↔ s ≤ t ∧ s ≠ last := by
  rw [key_lt_iff hs hnext, lt_addSeconds_one_iff]

/-- The calendar does not reach the last time.  So the exception is none at the times at which
transitions happen. -/
theorem IsRepresentable.ne_last {s t : Timestamp} (h : t.IsRepresentable) (hst : s ≤ t) :
    s ≠ last := by
  rintro rfl
  have hlatest := h.2
  rw [le_iff, toInt_last] at hst
  unfold latest at hlatest
  omega

end BlogLedger.Timestamp
