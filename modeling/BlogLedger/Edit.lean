import BlogLedger.Failure
import BlogLedger.KeySpace

/-!
# Edits

A change of a key space that may fail.  What was written before a failure stays written; who wants
all or nothing runs an edit on a layer and drops the layer when it fails.

## Main Definitions

* `Edit` — a change of a key space with a result or a failure.
* `Edit.run` — the result and the key space left behind.
* `Edit.look`, `Edit.write` — a read that may fail, and a write.

## Design Notes

A failure comes together with a key space and does not take it back, since this is what happens to a
store on which writes are made one after the other.  That nothing happens when a transition is
refused is a property of the ledger, which drops the layer, and not of edits.
-/

namespace BlogLedger

/-- A change of a key space with a result or a failure.  The key space that is left behind is given
in both cases. -/
structure Edit (α : Type) where
  run : KeySpace → Except Failure α × KeySpace

namespace Edit

variable {α β : Type}

/-- An edit that changes nothing and gives `a`. -/
protected def pure (a : α) : Edit α := ⟨fun s => (.ok a, s)⟩

/-- An edit followed by another, unless the first one fails. -/
protected def bind (e : Edit α) (next : α → Edit β) : Edit β :=
  ⟨fun s =>
    match e.run s with
    | (.ok a, s) => (next a).run s
    | (.error f, s) => (.error f, s)⟩

instance : Monad Edit where
  pure := Edit.pure
  bind := Edit.bind

/-- Look at the key space. -/
def look (f : KeySpace → Except Failure α) : Edit α := ⟨fun s => (f s, s)⟩

/-- A result that does not depend on the key space. -/
def ofExcept (r : Except Failure α) : Edit α := ⟨fun s => (r, s)⟩

/-- Make a write. -/
def write (f : KeySpace → KeySpace) : Edit Unit := ⟨fun s => (.ok (), f s)⟩

/-- An edit whose failure arises inside an activity.  The activity is told in front of the cause,
and the key space is the same. -/
def within (activity : String) (e : Edit α) : Edit α :=
  ⟨fun s =>
    match e.run s with
    | (.ok a, s) => (.ok a, s)
    | (.error f, s) => (.error (f.within activity), s)⟩

@[simp] theorem run_pure (a : α) (s : KeySpace) : (pure a : Edit α).run s = (.ok a, s) := rfl

@[simp] theorem run_look (f : KeySpace → Except Failure α) (s : KeySpace) :
    (look f).run s = (f s, s) := rfl

@[simp] theorem run_ofExcept (r : Except Failure α) (s : KeySpace) :
    (ofExcept r).run s = (r, s) := rfl

@[simp] theorem run_write (f : KeySpace → KeySpace) (s : KeySpace) :
    (write f).run s = (.ok (), f s) := rfl

/-- After a success the next edit goes on from the key space left behind, after a failure it does
not run. -/
theorem run_bind (e : Edit α) (next : α → Edit β) (s : KeySpace) :
    (e >>= next).run s =
      match e.run s with
      | (.ok a, s) => (next a).run s
      | (.error f, s) => (.error f, s) := rfl

end Edit

end BlogLedger
