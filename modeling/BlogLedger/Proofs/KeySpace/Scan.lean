import BlogLedger.Proofs.Bytes.Start
import BlogLedger.Proofs.KeySpace.Layers
import Mathlib.Data.List.Induction

/-!
# Scans are exact

A scan is a range of keys.  Its end is computed from its start by raising the last byte that can be
raised, and no key could serve better: the range holds the keys that start with the given bytes and
no other ones, and no smaller end lies above them all.

The end of a scan is computed without looking at the store, so it must be right for all keys that
could be there.  That it lies above every key with the given start is not enough: a larger end would
let other keys in.  The results say both, and also when there is no end, which is when nothing lies
above those keys at all.

## Main Definitions

* `Bytes.Above` — a key lies above every key that starts with given bytes.
* `Bytes.EndsTightly` — the end of given bytes is as tight as it can be.
* `KeySpace.ScanExact` — a scan shows exactly the keys that start with given bytes.

## Main Results

* `Bytes.prefixEnd_concat` — the end, read off from behind.
* `Bytes.endsTightly` — every end is tight.
* `KeySpace.scan_exact` — every scan is exact, on any layers.
-/

namespace BlogLedger

namespace Bytes

/-- The key lies above every key that starts with `start`.  Such keys are what a scan must leave
out. -/
def Above (start key : Bytes) : Prop := ∀ k, start <+: k → k < key

/-- The end of `start` separates the keys that start with it from all others above them, and it is
the least key that does.  Its form is given as well. -/
structure EndsTightly (start : Bytes) : Prop where
  starts_iff : ∀ key, start <+: key ↔ start ≤ key ∧ ∀ stop ∈ start.prefixEnd, key < stop
  above : ∀ stop ∈ start.prefixEnd, start.Above stop
  least : ∀ stop ∈ start.prefixEnd, ∀ key, start.Above key → stop ≤ key
  /-- Bytes without an end are those above which there is nothing. -/
  none_iff : start.prefixEnd = none ↔ ∀ key, ¬ start.Above key
  /-- The end drops the highest bytes behind and raises the last one before them. -/
  some_iff : ∀ stop, start.prefixEnd = some stop ↔ ∃ front b count,
    start = front ++ b :: List.replicate count 0xff ∧ b ≠ 0xff ∧ stop = front ++ [b + 1]

variable {start stop key : Bytes}

/-- The last byte is raised, and dropped if it is the highest one.  Bytes are taken from behind,
while the order looks at them from the front. -/
theorem prefixEnd_concat (front : Bytes) (b : UInt8) :
    prefixEnd (front ++ [b]) = if b = 0xff then prefixEnd front else some (front ++ [b + 1]) := by
  induction front with
  | nil => rfl
  | cons c front ih =>
    rw [List.cons_append, prefixEnd, ih]
    by_cases hb : b = 0xff
    · rw [if_pos hb, if_pos hb]
      rfl
    · rw [if_neg hb, if_neg hb]
      rfl

/-- The end drops the highest bytes behind and raises the last one before them.  The induction goes
from behind, as the definition does. -/
theorem prefixEnd_eq_some_iff : prefixEnd start = some stop ↔ ∃ front b count,
    start = front ++ b :: List.replicate count 0xff ∧ b ≠ 0xff ∧ stop = front ++ [b + 1] := by
  induction start using List.reverseRecOn with
  | nil => simp [prefixEnd]
  | append_singleton front b ih =>
    rw [prefixEnd_concat]
    by_cases hb : b = 0xff
    · rw [if_pos hb, ih, hb]
      constructor
      · rintro ⟨first, c, count, rfl, hc, hstop⟩
        refine ⟨first, c, count + 1, ?_, hc, hstop⟩
        rw [List.append_assoc, List.cons_append, ← List.replicate_succ']
      · rintro ⟨first, c, count, heq, hc, hstop⟩
        cases count with
        | zero => exact absurd (List.append_inj' heq rfl).2 (by simpa using Ne.symm hc)
        | succ count =>
          rw [List.replicate_succ', ← List.cons_append, ← List.append_assoc] at heq
          exact ⟨first, c, count, (List.append_inj' heq rfl).1, hc, hstop⟩
    · rw [if_neg hb, Option.some.injEq]
      constructor
      · exact fun hstop => ⟨front, b, 0, rfl, hb, hstop.symm⟩
      · rintro ⟨first, c, count, heq, hc, hstop⟩
        cases count with
        | zero =>
          obtain ⟨rfl, hlast⟩ := List.append_inj' heq rfl
          rw [hstop, (List.cons.inj hlast).1]
        | succ count =>
          rw [List.replicate_succ', ← List.cons_append, ← List.append_assoc] at heq
          exact absurd (List.singleton_inj.1 (List.append_inj' heq rfl).2) hb

/-- The keys that start with `start` are those from it up to its end.  Without an end there is no
bound above. -/
theorem starts_iff : start <+: key ↔ start ≤ key ∧ ∀ stop ∈ start.prefixEnd, key < stop := by
  rw [← ByteMap.inRange_prefixEnd, ByteMap.inRange]
  cases start.prefixEnd <;> simp

/-- A key above all that start with `start` is greater than `start` and does not start with it.  It
would be one of them otherwise, or lie below them all. -/
theorem Above.not_starts (h : start.Above key) : start < key ∧ ¬ start <+: key :=
  ⟨h start List.prefix_rfl, fun hkey => List.lt_irrefl key (h key hkey)⟩

/-- Every end is tight.  The end is itself above all keys that start with `start`, and no key above
them is smaller than the end. -/
theorem endsTightly (start : Bytes) : start.EndsTightly where
  starts_iff _ := starts_iff
  above stop hstop _ hkey := (starts_iff.1 hkey).2 stop hstop
  least stop hstop key habove := by
    obtain ⟨hlt, hnot⟩ := habove.not_starts
    refine List.not_lt.1 fun hkey => hnot (starts_iff.2 ⟨Std.le_of_lt hlt, ?_⟩)
    intro other hother
    rwa [Option.mem_unique hother hstop]
  none_iff := by
    constructor
    · intro hnone key habove
      obtain ⟨hlt, hnot⟩ := habove.not_starts
      refine hnot (starts_iff.2 ⟨Std.le_of_lt hlt, ?_⟩)
      rw [hnone]
      exact nofun
    · intro hnever
      refine Option.eq_none_iff_forall_not_mem.2 fun stop hstop => hnever stop fun key hkey => ?_
      exact (starts_iff.1 hkey).2 stop hstop
  some_iff _ := prefixEnd_eq_some_iff

end Bytes

namespace KeySpace

/-- A scan shows the entries whose key starts with `start`, in the order of keys and each once.  It
says what is shown, and that nothing else is. -/
structure ScanExact (s : KeySpace) (start : Bytes) : Prop where
  mem_iff : ∀ key value, (key, value) ∈ (s.scan start).entries
    ↔ start <+: key ∧ s.get key = some value
  ascending : ((s.scan start).entries.map Prod.fst).Pairwise (· < ·)
  /-- They are picked out of all entries that the key space shows.  So the scan misses nothing and
  changes no order. -/
  entries_eq : (s.scan start).entries = s.entries.filter fun e => start.isPrefixOf e.1

variable {s : KeySpace} {start key value : Bytes}

theorem mem_scan_entries_iff :
    (key, value) ∈ (s.scan start).entries ↔ start <+: key ∧ s.get key = some value := by
  rw [scan, mem_range_iff, ByteMap.inRange_prefixEnd]

theorem mem_entries_iff : (key, value) ∈ s.entries ↔ s.get key = some value := by
  rw [entries, mem_range_iff]
  simp [ByteMap.inRange]

/-- Every scan is exact, whatever layers of writes it goes through, and the end that it computes
could not be tighter.  There is no hypothesis on the start, which may be empty or consist of highest
bytes. -/
theorem scan_exact (s : KeySpace) (start : Bytes) : start.EndsTightly ∧ s.ScanExact start := by
  refine ⟨start.endsTightly, fun _ _ => mem_scan_entries_iff, ?_, ?_⟩
  · exact List.pairwise_map.2 (s.scan start).ascending
  · -- Both lists are in the order of keys, so it is enough that they have the same members.
    refine ByteMap.eq_of_mem_iff (s.scan start).ascending
      ((s.range [] none).ascending.filter _) ?_
    rintro ⟨key, value⟩
    rw [mem_scan_entries_iff, List.mem_filter, List.isPrefixOf_iff_prefix, and_comm]
    exact and_congr_left fun _ => mem_entries_iff.symm

end KeySpace

end BlogLedger
