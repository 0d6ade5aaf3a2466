import BlogLedger.Bytes

/-!
# Ordered maps keyed by byte strings

A finite map from byte strings, kept as the list of its entries in strictly ascending key order.
The order is part of the type, so two maps with the same entries are the same value.

## Main Definitions

* `ByteMap β` — the map.
* `ByteMap.find?`, `ByteMap.insert`, `ByteMap.erase` — point access.
* `ByteMap.between` — the entries of a half-open key range.

## Design Notes

Insertion walks the list and a range filters it, so each operation can be followed by induction on
the entries.
-/

namespace BlogLedger

variable {β : Type}

/-- Entries in strictly ascending key order. -/
abbrev Ascending (entries : List (Bytes × β)) : Prop :=
  entries.Pairwise (fun a b => a.1 < b.1)

/-- A finite map from byte strings to `β`, as its entries in ascending key order.  Because of the
order a key has one entry at most. -/
structure ByteMap (β : Type) where
  entries : List (Bytes × β)
  ascending : Ascending entries

namespace ByteMap

@[ext] theorem ext {m n : ByteMap β} (h : m.entries = n.entries) : m = n := by
  cases m; cases n; cases h; rfl

instance [DecidableEq β] : DecidableEq (ByteMap β) := fun m n =>
  if h : m.entries = n.entries then isTrue (ext h) else isFalse fun e => h (e ▸ rfl)

/-- The map without entries. -/
def empty : ByteMap β := ⟨[], List.Pairwise.nil⟩

instance : Inhabited (ByteMap β) := ⟨empty⟩

/-- How many keys the map holds. -/
def size (m : ByteMap β) : Nat := m.entries.length

/-- Whether the map holds no key. -/
def isEmpty (m : ByteMap β) : Bool := m.entries.isEmpty

/-- The value under `key` in a list of entries.  It does not use the order, so it can be used before
the list is known to ascend. -/
def lookup (key : Bytes) : List (Bytes × β) → Option β
  | [] => none
  | (k, v) :: rest => if k = key then some v else lookup key rest

/-- The value under `key`. -/
def find? (m : ByteMap β) (key : Bytes) : Option β :=
  lookup key m.entries

/-- Whether the map holds `key`. -/
def contains (m : ByteMap β) (key : Bytes) : Bool :=
  (m.find? key).isSome

/-- Put `value` under `key`, keeping the entries in key order. -/
def insertEntry (key : Bytes) (value : β) : List (Bytes × β) → List (Bytes × β)
  | [] => [(key, value)]
  | (k, v) :: rest =>
    if key < k then (key, value) :: (k, v) :: rest
    else if key = k then (key, value) :: rest
    else (k, v) :: insertEntry key value rest

theorem mem_insertEntry {key : Bytes} {value : β} {e : Bytes × β} {entries : List (Bytes × β)} :
    e ∈ insertEntry key value entries → e = (key, value) ∨ e ∈ entries := by
  induction entries with
  | nil => simp [insertEntry]
  | cons head rest ih =>
    intro h
    rw [insertEntry] at h
    split at h
    · simpa using h
    · split at h
      · exact (List.mem_cons.1 h).imp id (List.mem_cons_of_mem _)
      · rcases List.mem_cons.1 h with rfl | h
        · exact .inr List.mem_cons_self
        · exact (ih h).imp id (List.mem_cons_of_mem _)

theorem ascending_insertEntry (key : Bytes) (value : β) {entries : List (Bytes × β)}
    (h : Ascending entries) : Ascending (insertEntry key value entries) := by
  induction entries with
  | nil => exact List.pairwise_singleton _ _
  | cons head rest ih =>
    obtain ⟨hhead, hrest⟩ := List.pairwise_cons.1 h
    rw [insertEntry]
    split
    · next hlt =>
      refine List.pairwise_cons.2 ⟨fun e he => ?_, h⟩
      rcases List.mem_cons.1 he with rfl | he
      · exact hlt
      · exact List.lt_trans hlt (hhead e he)
    · next hnot =>
      split
      · next heq => exact List.pairwise_cons.2 ⟨fun e he => heq ▸ hhead e he, hrest⟩
      · next hne =>
        refine List.pairwise_cons.2 ⟨fun e he => ?_, ih hrest⟩
        rcases mem_insertEntry he with rfl | he
        · exact Std.lt_of_le_of_ne (List.not_lt.1 hnot) (Ne.symm hne)
        · exact hhead e he

/-- The map with `value` under `key`. -/
def insert (m : ByteMap β) (key : Bytes) (value : β) : ByteMap β :=
  ⟨insertEntry key value m.entries, ascending_insertEntry key value m.ascending⟩

/-- The map without `key`. -/
def erase (m : ByteMap β) (key : Bytes) : ByteMap β :=
  ⟨m.entries.filter (fun e => e.1 ≠ key), m.ascending.filter _⟩

/-- Whether `key` lies in `[start, stop)`; without a `stop` the range is unbounded above. -/
def inRange (start : Bytes) (stop : Option Bytes) (key : Bytes) : Bool :=
  start ≤ key && stop.all (key < ·)

/-- The entries whose key lies in `[start, stop)`. -/
def between (m : ByteMap β) (start : Bytes) (stop : Option Bytes) : ByteMap β :=
  ⟨m.entries.filter (fun e => inRange start stop e.1), m.ascending.filter _⟩

/-! ### Point access after a write -/

theorem lookup_insertEntry (key other : Bytes) (value : β) (entries : List (Bytes × β)) :
    lookup other (insertEntry key value entries) =
      if key = other then some value else lookup other entries := by
  induction entries with
  | nil => simp [insertEntry, lookup]
  | cons head rest ih =>
    rw [insertEntry]
    split
    · simp [lookup]
    · split
      · next h => subst h; simp only [lookup]; split <;> rfl
      · next h =>
        simp only [lookup, ih]
        split
        · next hk => rw [if_neg (hk ▸ h)]
        · rfl

theorem lookup_filter_key (p : Bytes → Bool) (key : Bytes) (entries : List (Bytes × β)) :
    lookup key (entries.filter (fun e => p e.1)) = if p key then lookup key entries else none := by
  induction entries with
  | nil => simp [lookup]
  | cons head rest ih =>
    obtain ⟨k, v⟩ := head
    by_cases hk : k = key
    · subst hk
      by_cases hp : p k <;> simp [lookup, hp, ih]
    · by_cases hp : p k <;> simp [lookup, hp, hk, ih]

/-- After a write the written key holds the written value and no other key changes. -/
@[simp] theorem find?_insert (m : ByteMap β) (key other : Bytes) (value : β) :
    (m.insert key value).find? other = if key = other then some value else m.find? other :=
  lookup_insertEntry key other value m.entries

/-- After a removal the removed key is free and no other key changes. -/
@[simp] theorem find?_erase (m : ByteMap β) (key other : Bytes) :
    (m.erase key).find? other = if key = other then none else m.find? other := by
  have h := lookup_filter_key (fun k => decide (k ≠ key)) other m.entries
  simp only [decide_eq_true_eq] at h
  simp only [find?, erase, h]
  by_cases hk : key = other
  · simp [hk]
  · simp [hk, Ne.symm hk]

/-- A range shows exactly the keys that lie in it. -/
@[simp] theorem find?_between (m : ByteMap β) (start : Bytes) (stop : Option Bytes) (key : Bytes) :
    (m.between start stop).find? key = if inRange start stop key then m.find? key else none :=
  lookup_filter_key (inRange start stop) key m.entries

end ByteMap

end BlogLedger
