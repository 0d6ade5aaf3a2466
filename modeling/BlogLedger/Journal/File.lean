import BlogLedger.Bytes

/-!
# Files that can fail

A file as the journal uses it: bytes are added at its end, and it is cut back.  Each operation may
fail, and what it leaves behind then is part of the model.

## Main Definitions

* `Conditions` — which operations on a file succeed.
* `File` — the bytes of a file and the conditions it works under.
* `File.append`, `File.sync`, `File.cut`, `File.syncCut` — the operations, with whether they succeeded.

## Design Notes

The conditions do not change by themselves.  A file that works now and fails later is followed by
giving it other conditions between two operations.
-/

namespace BlogLedger

/-- Which operations on a file succeed.  The five are independent of each other, since each of them
fails for a reason of its own. -/
structure Conditions where
  /-- The size up to which the file can grow. -/
  capacity : Option Nat
  /-- Whether an addition succeeds once all of its bytes are in the file. -/
  confirms : Bool
  /-- Whether added bytes can be made safe. -/
  canSync : Bool
  canCut : Bool
  /-- Whether a cut can be made safe. -/
  canSyncCut : Bool
  deriving DecidableEq, Repr

/-- Conditions under which everything succeeds. -/
def Conditions.good : Conditions := ⟨none, true, true, true, true⟩

/-- The same conditions, with room for at most `room` bytes beyond a size. -/
def Conditions.limit (c : Conditions) (room : Option Nat) (size : Nat) : Conditions :=
  match room, c.capacity with
  | none, _ => c
  | some room, none => { c with capacity := some (size + room) }
  | some room, some capacity => { c with capacity := some (min capacity (size + room)) }

/-- The bytes of a file and the conditions it works under. -/
structure File where
  bytes : Bytes
  conditions : Conditions
  deriving DecidableEq, Repr

namespace File

/-- A file without bytes. -/
def empty : File := ⟨[], .good⟩

/-- A device that is empty to read, takes no bytes and cannot be cut. -/
def fullDevice : File := ⟨[], ⟨some 0, true, true, false, true⟩⟩

/-- How many bytes the file holds. -/
def size (f : File) : Nat := f.bytes.length

/-- How many of `count` further bytes fit. -/
def room (f : File) (count : Nat) : Nat :=
  match f.conditions.capacity with
  | some capacity => min count (capacity - f.size)
  | none => count

/-- Add bytes at the end.  When they do not all fit, those that fit are added and the operation
fails; it may also fail after the last of them. -/
def append (bytes : Bytes) (f : File) : Bool × File :=
  let room := f.room bytes.length
  (room = bytes.length && f.conditions.confirms, { f with bytes := f.bytes ++ bytes.take room })

/-- Cut the file back to a size, or fill it up to that size with zeros. -/
def cut (size : Nat) (f : File) : Bool × File :=
  if !f.conditions.canCut || (f.size < size && f.room (size - f.size) < size - f.size) then
    (false, f)
  else (true, { f with bytes := f.bytes.take size ++ List.replicate (size - f.size) 0 })

/-- Wait until added bytes are safe. -/
def sync (f : File) : Bool := f.conditions.canSync

/-- Wait until a cut is safe. -/
def syncCut (f : File) : Bool := f.conditions.canSyncCut

end File

end BlogLedger
