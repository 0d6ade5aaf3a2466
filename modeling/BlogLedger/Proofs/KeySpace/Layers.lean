import BlogLedger.KeySpace
import BlogLedger.Proofs.Bytes.Map

/-!
# What a key space shows

A key space shows one value a key, whatever layers it is made of: its ranges are determined by its
point reads, and the pending writes of a layer, made on what lies below, give what the layer showed.

The reads of a range go through the layers and merge them, which is the most involved part of a key
space.  Here it is shown once that the result is what single reads would give.  After that ranges
are never unfolded again, and two key spaces are compared key by key.

## Main Results

* `KeySpace.find?_range`, `KeySpace.range_congr` — a range shows exactly the keys that lie in it.
* `KeySpace.get_apply_pending` — a committed layer shows what it showed before.
* `KeySpace.eq_of_get_eq` — key spaces without layers that answer every read alike are equal.
-/

namespace BlogLedger.KeySpace

/-! ### Writes in a row -/

/-- After writes to different keys, made one after the other on anything that answers reads, a key
holds what was written to it and otherwise what it held before.  It is stated for any reads and
writes of this kind, since it is used for maps as well as for key spaces. -/
theorem read_foldl {σ : Type} (read : σ → Bytes → Option Bytes)
    (write : σ → Bytes × Option Bytes → σ)
    (hwrite : ∀ s e key, read (write s e) key = if e.1 = key then e.2 else read s key)
    {writes : List (Bytes × Option Bytes)} (h : Ascending writes) (s : σ) (key : Bytes) :
    read (writes.foldl write s) key = (ByteMap.lookup key writes).getD (read s key) := by
  induction writes generalizing s with
  | nil => rfl
  | cons head rest ih =>
    obtain ⟨hhead, hrest⟩ := List.pairwise_cons.1 h
    rw [List.foldl_cons, ih hrest, hwrite]
    by_cases hk : head.1 = key
    · have hnone : ByteMap.lookup key rest = none :=
        ByteMap.lookup_eq_none_of_forall_lt fun e he => hk ▸ hhead e he
      simp [ByteMap.lookup, hk, hnone]
    · simp [ByteMap.lookup, hk]

theorem find?_settle (m : ByteMap Bytes) (e : Bytes × Option Bytes) (key : Bytes) :
    (settle m e).find? key = if e.1 = key then e.2 else m.find? key := by
  obtain ⟨k, _ | v⟩ := e <;> simp [settle]

theorem get_apply_op (s : KeySpace) (e : Bytes × Option Bytes) (key : Bytes) :
    (Op.apply s (op e)).get key = if e.1 = key then e.2 else s.get key := by
  obtain ⟨k, _ | v⟩ := e <;> simp [op, Op.apply]

/-! ### Ranges -/

/-- A range shows exactly the keys that lie in it.  The induction is over the layers, and on each
one a removal hides what lies below. -/
@[simp] theorem find?_range (s : KeySpace) (start : Bytes) (stop : Option Bytes) (key : Bytes) :
    (s.range start stop).find? key =
      if ByteMap.inRange start stop key then s.get key else none := by
  induction s with
  | base entries => simp [range, get]
  | layer parent pending ih =>
    have hread := read_foldl ByteMap.find? settle find?_settle
      (pending.between start stop).ascending (parent.range start stop) key
    have hlookup : ByteMap.lookup key (pending.between start stop).entries =
        if ByteMap.inRange start stop key then pending.find? key else none :=
      pending.find?_between start stop key
    rw [range, hread, hlookup, ih]
    by_cases hk : ByteMap.inRange start stop key
    · cases hp : pending.find? key <;> simp [hk, get, hp]
    · simp [hk]

/-- The entries of a range are the pairs that are visible in it.  Scans and lookups by range are
described with it. -/
theorem mem_range_iff {s : KeySpace} {start : Bytes} {stop : Option Bytes} {key value : Bytes} :
    (key, value) ∈ (s.range start stop).entries ↔
      ByteMap.inRange start stop key = true ∧ s.get key = some value := by
  rw [ByteMap.mem_entries_iff, find?_range]
  by_cases hk : ByteMap.inRange start stop key <;> simp [hk]

/-- Key spaces that answer every read in a range alike have the same entries there.  Outside of the
range they may differ. -/
theorem range_congr {s t : KeySpace} {start : Bytes} {stop : Option Bytes}
    (h : ∀ key, ByteMap.inRange start stop key = true → s.get key = t.get key) :
    s.range start stop = t.range start stop := by
  refine ByteMap.ext_find? fun key => ?_
  rw [find?_range, find?_range]
  split
  · next hkey => exact h key hkey
  · rfl

/-! ### Layers -/

/-- Writes leave the layer in its place.  They go to the uppermost layer and never through it. -/
@[simp] theorem parent?_apply (batch : Batch) (s : KeySpace) :
    (batch.apply s).parent? = s.parent? := by
  induction batch generalizing s with
  | nil => rfl
  | cons first rest ih =>
    have hfirst : (Op.apply s first).parent? = s.parent? := by
      cases first <;> simp [Op.apply]
    rw [Batch.apply, List.foldl_cons, ← Batch.apply, ih, hfirst]

/-- The writes of a layer, made on what lies below, give what the layer showed.  A key that the
layer does not write shows through it. -/
theorem get_apply_pending {s t : KeySpace} (h : t.parent? = some s) (key : Bytes) :
    (t.pending.apply s).get key = t.get key := by
  cases t with
  | base entries => simp [parent?] at h
  | layer parent writes =>
    obtain rfl : parent = s := by simpa [parent?] using h
    have hread := read_foldl (fun s key => s.get key) (fun s e => Op.apply s (op e)) get_apply_op
      writes.ascending parent key
    rw [pending, Batch.apply, List.foldl_map, hread, get, ByteMap.find?]
    cases ByteMap.lookup key writes.entries <;> rfl

/-- Key spaces without layers that answer every read alike are equal.  With layers this fails, since
a layer may write what is there already. -/
theorem eq_of_get_eq {s t : KeySpace} (hs : s.parent? = none) (ht : t.parent? = none)
    (h : ∀ key, s.get key = t.get key) : s = t := by
  cases s with
  | layer => simp [parent?] at hs
  | base m =>
    cases t with
    | layer => simp [parent?] at ht
    | base n => exact congrArg base (ByteMap.ext_find? h)

@[simp] theorem get_empty (key : Bytes) : empty.get key = none := rfl

end BlogLedger.KeySpace
