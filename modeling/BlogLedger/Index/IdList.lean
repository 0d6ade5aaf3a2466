import BlogLedger.Record.Json

/-!
# Lists of record numbers

The records that share an index value.  A bucket keeps these lists in ascending order, and so a number
is looked for by halving the list.

## Main Definitions

* `IdList` — the list.
* `IdList.search` — where a number is in a list, or where it would go.
* `IdList.insert`, `IdList.remove?` — add and take out a number.
* `IdList.encode`, `IdList.decode` — the stored form, a JSON array.

## Design Notes

A list is whatever an entry of the store says: `IdList.decode` accepts the numbers in any order, and a
journal may hold such an entry.  The order is therefore not part of the type.  On a list that is out of
order the search can miss a number that is there; then `IdList.remove?` fails, and the bucket reports
that the index has drifted.
-/

namespace BlogLedger

/-- The record numbers of an entry, in the order in which they are stored. -/
abbrev IdList := List RecordId

namespace IdList

/-- What a search comes to: the number is in the list, or it would go there. -/
inductive Spot where
  | taken (place : Nat)
  | free (place : Nat)
deriving DecidableEq, Repr

/-- The place in the list at which a search ends.  Of the `size` places from `base` on, the upper half
stays if it does not begin with a larger number.  There is no early exit at an equal number. -/
def narrow (id : RecordId) (ids : IdList) (base size : Nat) : Nat :=
  if 1 < size then
    let middle := base + size / 2
    if ids[middle]?.any (id < ·) then narrow id ids base (size - size / 2)
    else narrow id ids middle (size - size / 2)
  else base
termination_by size

/-- Look for a number. -/
def search (id : RecordId) (ids : IdList) : Spot :=
  let place := narrow id ids 0 ids.length
  match ids[place]? with
  | none => .free place
  | some other =>
    if other = id then .taken place
    else if other < id then .free (place + 1)
    else .free place

/-- Add a number in its place, unless it is found. -/
def insert (id : RecordId) (ids : IdList) : IdList :=
  match search id ids with
  | .taken _ => ids
  | .free place => ids.insertIdx place id

/-- Take a number out, if it is found. -/
def remove? (id : RecordId) (ids : IdList) : Option IdList :=
  match search id ids with
  | .taken place => some (ids.eraseIdx place)
  | .free _ => none

/-- The list as JSON. -/
def toJson (ids : IdList) : Json := .array (ids.map RecordId.toJson)

/-- The list that a JSON array writes. -/
def ofJson? (j : Json) : Option IdList :=
  j.items?.bind fun items => items.mapM RecordId.ofJson?

/-- The stored form of a list. -/
def encode (ids : IdList) : Bytes := (toJson ids).print

/-- The list in its stored form. -/
def decode (bytes : Bytes) : Except Failure IdList :=
  match (Json.parse? bytes).bind ofJson? with
  | some ids => .ok ids
  | none => fail .undecodable

end IdList

end BlogLedger
