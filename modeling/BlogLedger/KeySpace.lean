import BlogLedger.Bytes.Map

/-!
# Key spaces

The store is an ordered map of byte strings, on which layers of pending writes may lie.

## Main Definitions

* `KeySpace` — a map, or a layer of pending writes on another key space.
* `KeySpace.get`, `KeySpace.range`, `KeySpace.scan` — what is visible.
* `KeySpace.set`, `KeySpace.delete` — writes, which touch the uppermost layer alone.
* `KeySpace.cover`, `KeySpace.discard` — lay an empty layer on, and forget the writes of a layer.
* `KeySpace.difference` — the writes that turn one key space into another.
* `Batch`, `Batch.apply`, `KeySpace.pending` — the writes of a layer, to be made elsewhere.

## Design Notes

A layer never changes what lies below it, so giving a transition up means forgetting its layer.  A
layer keeps one pending write a key, which is why its batch touches each key once.
-/

namespace BlogLedger

/-- An ordered map of byte strings, possibly under layers of pending writes.  A pending `none` is a
removal, which hides what lies below. -/
inductive KeySpace where
  | base (entries : ByteMap Bytes)
  | layer (parent : KeySpace) (pending : ByteMap (Option Bytes))

/-- One write. -/
inductive Op where
  | set (key value : Bytes)
  | delete (key : Bytes)
  deriving DecidableEq, Repr

/-- Writes that are made together, in order. -/
abbrev Batch := List Op

namespace KeySpace

/-- The key space without keys. -/
def empty : KeySpace := .base .empty

instance : Inhabited KeySpace := ⟨empty⟩

/-- The value under a key. -/
def get (key : Bytes) : KeySpace → Option Bytes
  | .base entries => entries.find? key
  | .layer parent pending =>
    match pending.find? key with
    | some value => value
    | none => parent.get key

/-- Whether a key holds a value. -/
def has (key : Bytes) (s : KeySpace) : Bool := (s.get key).isSome

/-- Make one pending write in a map. -/
def settle (entries : ByteMap Bytes) : Bytes × Option Bytes → ByteMap Bytes
  | (key, some value) => entries.insert key value
  | (key, none) => entries.erase key

/-- The entries whose key lies in `[start, stop)`; without a `stop` the range is unbounded above.
The range of the key space below is taken first, and the pending writes of the range are made in it. -/
def range (start : Bytes) (stop : Option Bytes) : KeySpace → ByteMap Bytes
  | .base entries => entries.between start stop
  | .layer parent pending =>
    (pending.between start stop).entries.foldl settle (parent.range start stop)

/-- The entries whose key starts with the given bytes. -/
def scan (start : Bytes) (s : KeySpace) : ByteMap Bytes :=
  s.range start start.prefixEnd

/-- All entries. -/
def entries (s : KeySpace) : List (Bytes × Bytes) :=
  (s.range [] none).entries

/-- Write a value under a key. -/
def set (key value : Bytes) : KeySpace → KeySpace
  | .base entries => .base (entries.insert key value)
  | .layer parent pending => .layer parent (pending.insert key (some value))

/-- Remove a key. -/
def delete (key : Bytes) : KeySpace → KeySpace
  | .base entries => .base (entries.erase key)
  | .layer parent pending => .layer parent (pending.insert key none)

/-- Lay an empty layer on a key space. -/
def cover (s : KeySpace) : KeySpace := .layer s .empty

/-- The key space under the uppermost layer. -/
def parent? : KeySpace → Option KeySpace
  | .base _ => none
  | .layer parent _ => some parent

/-- The key space under all layers. -/
def bottom : KeySpace → KeySpace
  | .base entries => .base entries
  | .layer parent _ => parent.bottom

/-- Forget the pending writes of the uppermost layer.  The layer itself stays, and a key space
without layers stays as it is. -/
def discard : KeySpace → KeySpace
  | .base entries => .base entries
  | .layer parent _ => parent.cover

/-- A pending write as an operation. -/
def op : Bytes × Option Bytes → Op
  | (key, some value) => .set key value
  | (key, none) => .delete key

/-- The pending writes of the uppermost layer, in key order.  Each key is written once, by the last
write to it. -/
def pending : KeySpace → Batch
  | .base _ => []
  | .layer _ pending => pending.entries.map op

/-- The writes that turn what `s` shows into what `t` shows.  Keys that show the same in both are
left out. -/
def difference (s t : KeySpace) : ByteMap (Option Bytes) :=
  let removed := (s.entries.filter fun e => !t.has e.1).foldl (fun m e => m.insert e.1 none) .empty
  (t.entries.filter fun e => s.get e.1 ≠ some e.2).foldl (fun m e => m.insert e.1 (some e.2)) removed

/-! ### Point access after a write -/

/-- After a write the written key holds the written value and no other key changes. -/
@[simp] theorem get_set (key value other : Bytes) (s : KeySpace) :
    (s.set key value).get other = if key = other then some value else s.get other := by
  cases s with
  | base entries => simp [set, get]
  | layer parent pending =>
    by_cases h : key = other <;> simp [set, get, h]

/-- After a removal the removed key is free and no other key changes. -/
@[simp] theorem get_delete (key other : Bytes) (s : KeySpace) :
    (s.delete key).get other = if key = other then none else s.get other := by
  cases s with
  | base entries => simp [delete, get]
  | layer parent pending =>
    by_cases h : key = other <;> simp [delete, get, h]

/-- A fresh layer shows what it lies on. -/
@[simp] theorem get_cover (key : Bytes) (s : KeySpace) : s.cover.get key = s.get key := rfl

/-- A write on a layer leaves what it lies on alone. -/
@[simp] theorem parent?_set (key value : Bytes) (s : KeySpace) :
    (s.set key value).parent? = s.parent? := by
  cases s <;> rfl

/-- A removal on a layer leaves what it lies on alone. -/
@[simp] theorem parent?_delete (key : Bytes) (s : KeySpace) :
    (s.delete key).parent? = s.parent? := by
  cases s <;> rfl

end KeySpace

/-- Make one write. -/
def Op.apply (s : KeySpace) : Op → KeySpace
  | .set key value => s.set key value
  | .delete key => s.delete key

/-- Make all writes of a batch, in order. -/
def Batch.apply (batch : Batch) (s : KeySpace) : KeySpace :=
  batch.foldl Op.apply s

/-- The writes of two batches in a row are those of the first and then those of the second. -/
theorem Batch.apply_append (first second : Batch) (s : KeySpace) :
    Batch.apply (first ++ second) s = second.apply (first.apply s) := by
  simp [Batch.apply]

end BlogLedger
