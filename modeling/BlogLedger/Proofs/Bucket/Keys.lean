import BlogLedger.Proofs.Bucket.Holds

/-!
# Keys of a bucket

A table determines every key of a bucket and its value.

A bucket that holds a table says what is under keys that are asked for.  Here it is turned around:
given any key of the bucket with its bytes, it is found in the table where they come from.  Both
together make the contents of the store a function of the snapshot.

## Main Definitions

* `Bucket.Entry` — the keys and values that a table stands for.

## Main Results

* `Bucket.Holds.has_indexKey` — an index has a key for every value that is there, and no other.
* `Bucket.Holds.get_of_entry`, `Bucket.Holds.entry_of_get` — a bucket that holds a table has exactly
  its entries.
-/

namespace BlogLedger

/-- The keys and values that a table stands for in a bucket.  There is one case for each group of
keys, and each case gives the bytes. -/
inductive Bucket.Entry (b : Bucket) (t : Table Record) : Bytes → Bytes → Prop where
  | record (id : RecordId) (r : Record) (row : t.row id.number = some r) :
    Entry b t (b.recordKey id) r.encode
  /-- The last number, if one was given out.  A fresh bucket has no key for it, which is not the
  same as a stored zero. -/
  | sequence (given : t.last ≠ 0) : Entry b t b.sequenceKey (RecordId.key ⟨t.last⟩)
  /-- The records with an index value, if there are any.  An empty list is not stored. -/
  | index (index : Index) (value : Bytes) (ids : IdList) (mem : index ∈ b.indexes)
      (some_id : ids ≠ [])
      (lists : ids.Lists fun id =>
        ∃ r, t.row id.number = some r ∧ index.value r = .ok (some value)) :
    Entry b t (b.indexKey index.name value) ids.encode

namespace Bucket

variable {b : Bucket} {t : Table Record} {s : KeySpace} {key value : Bytes}

theorem valueIn_eq_some_iff {index : Index} {r : Record} :
    valueIn index r = some value ↔ index.value r = .ok (some value) := by
  unfold valueIn
  cases index.value r with
  | error fault => simp [Except.toOption]
  | ok o => simp [Except.toOption]

theorem heldIn_eq_some_iff {index : Index} {id : RecordId} :
    heldIn t index id = some value
      ↔ ∃ r, t.row id.number = some r ∧ index.value r = .ok (some value) := by
  unfold heldIn
  simp only [Option.bind_eq_some_iff, valueIn_eq_some_iff]

/-- Every entry of the table is stored.  Each case is a field of what it means to hold the table. -/
theorem Holds.get_of_entry (h : b.Holds t s) (hentry : b.Entry t key value) :
    s.get key = some value := by
  cases hentry with
  | record id r row =>
    exact (h.records.get id.number).trans (Table.rowBytes_eq_some_iff.2 ⟨r, row, rfl⟩)
  | sequence given =>
    rw [h.sequence.get]
    exact if_neg given
  | index index value ids mem some_id lists =>
    obtain ⟨stored, hstored, hget⟩ := h.entries index mem value
    have hids : stored = ids :=
      (hstored.congr fun id => heldIn_eq_some_iff).unique lists
    rw [hget, hids, IdList.stored?_of_ne_nil some_id]

/-- An index has a key for exactly the values that some record has.  Striking the last record from a
value removes the key, or this would fail. -/
theorem Holds.has_indexKey (h : b.Holds t s) {index : Index} (hindex : index ∈ b.indexes) :
    s.has (b.indexKey index.name value)
      ↔ ∃ id r, t.row id = some r ∧ index.value r = .ok (some value) := by
  obtain ⟨ids, hids, hget⟩ := h.entries index hindex value
  have hlists := hids.congr fun id => heldIn_eq_some_iff
  unfold KeySpace.has
  rw [hget]
  by_cases hempty : ids = []
  · rw [hempty, IdList.stored?_nil]
    refine iff_of_false Bool.false_ne_true ?_
    rintro ⟨id, hheld⟩
    exact hlists.eq_nil_iff.1 hempty ⟨id⟩ hheld
  · rw [IdList.stored?_of_ne_nil hempty]
    obtain ⟨id, hid⟩ := List.exists_mem_of_ne_nil ids hempty
    exact iff_of_true rfl ⟨id.number, (hlists.mem_iff id).1 hid⟩

/-- Every key of the bucket is an entry of the table.  The key starts like one of the three groups,
and the group says how to go on. -/
theorem Holds.entry_of_get (h : b.Holds t s) (hkey : Bytes.Under b.starts key)
    (hget : s.get key = some value) : b.Entry t key value := by
  obtain ⟨start, hmem, hstart⟩ := hkey
  rcases List.mem_cons.1 hmem with rfl | hmem
  · obtain ⟨n, rfl, hbytes⟩ := h.records.of_get hstart hget
    obtain ⟨r, hrow, rfl⟩ := Table.rowBytes_eq_some_iff.1 hbytes
    exact .record ⟨n⟩ r hrow
  rcases List.mem_cons.1 hmem with rfl | hmem
  · obtain ⟨rfl, hbytes⟩ := h.sequence.of_get hstart hget
    obtain ⟨hgiven, rfl⟩ := Table.lastBytes_eq_some_iff.1 hbytes
    exact .sequence hgiven
  · obtain ⟨index, hindex, rfl⟩ := List.mem_map.1 hmem
    obtain ⟨rest, rfl⟩ := hstart
    obtain ⟨ids, hids, hstored⟩ := h.entries index hindex rest
    change s.get (b.indexKey index.name rest) = some value at hget
    rw [hget] at hstored
    by_cases hempty : ids = []
    · rw [hempty, IdList.stored?_nil] at hstored
      cases hstored
    · rw [IdList.stored?_of_ne_nil hempty] at hstored
      cases hstored
      exact .index index rest ids hindex hempty (hids.congr fun id => heldIn_eq_some_iff)

end Bucket

end BlogLedger
