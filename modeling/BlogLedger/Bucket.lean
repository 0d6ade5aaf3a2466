import BlogLedger.Edit
import BlogLedger.Index
import BlogLedger.Index.IdList

/-!
# Buckets

A bucket keeps the records of one kind under ascending numbers, and its indexes in step with them.

## Main Definitions

* `Bucket` — the name of a bucket, the kind of its records and its indexes.
* `Bucket.get`, `Bucket.mustGet`, `Bucket.scan` — records by number.
* `Bucket.byIndex`, `Bucket.byIndexStart`, `Bucket.byIndexRange` — numbers by index value.
* `Bucket.create`, `Bucket.save`, `Bucket.delete` — changes of records and index entries together.

## Design Notes

A bucket named `b` uses three key spaces: `b:` for records, `_s.b` for the last number given out,
and `_i.b_x:` for the entries of its index `x`.  All index values of a change are derived before
anything is written.

What a bucket reads is taken as it is stored.  A record of another kind, a number of the wrong
length and an entry that is no list are failures where they are read.  So is an entry that lists an
absent record, and one that does not list the record that is to be struck from it.
-/

namespace BlogLedger

/-- A collection of records of one kind, with its indexes.  The name is part of every key, so
buckets can share a store. -/
structure Bucket where
  name : String
  kind : RecordKind
  indexes : List Index

namespace Bucket

/-! ### Keys -/

/-- What the keys of records start with. -/
def recordStart (b : Bucket) : Bytes := Bytes.ofText (b.name ++ ":")

/-- The key of a record. -/
def recordKey (b : Bucket) (id : RecordId) : Bytes := b.recordStart ++ id.key

/-- The key of the last number given out. -/
def sequenceKey (b : Bucket) : Bytes := Bytes.ofText ("_s." ++ b.name)

/-- What the keys of the entries of an index start with. -/
def indexStart (b : Bucket) (index : String) : Bytes :=
  Bytes.ofText ("_i." ++ b.name ++ "_" ++ index ++ ":")

/-- The key of the entry of an index value. -/
def indexKey (b : Bucket) (index : String) (value : Bytes) : Bytes := b.indexStart index ++ value

/-! ### Reading -/

/-- Refuse a record of another kind. -/
def checkKind (b : Bucket) (r : Record) : Except Failure Unit :=
  if r.kind = b.kind then .ok () else fail (.foreignKind b.name b.kind r.kind)

/-- Read a stored record.  Bytes that are no record of this kind are a failure, and not an absent
record. -/
def decode (b : Bucket) (bytes : Bytes) : Except Failure Record := do
  let r ← Record.decode bytes
  b.checkKind r
  return r

/-- The record of a number, if there is one. -/
def get (b : Bucket) (id : RecordId) (s : KeySpace) : Except Failure (Option Record) :=
  match s.get (b.recordKey id) with
  | none => .ok none
  | some bytes => (b.decode bytes).map some

/-- The record of a number. -/
def mustGet (b : Bucket) (id : RecordId) (s : KeySpace) : Except Failure Record := do
  match ← b.get id s with
  | some r => return r
  | none => fail (.noRecord b.kind id)

/-- Whether a number has a record. -/
def exists? (b : Bucket) (id : RecordId) (s : KeySpace) : Bool := s.has (b.recordKey id)

/-- The number that the next record will have.  Looking at it does not use it up. -/
def peekNextId (b : Bucket) (s : KeySpace) : Except Failure RecordId :=
  match s.get b.sequenceKey with
  | none => .ok ⟨1⟩
  | some bytes => (RecordId.ofKey bytes).map fun last => ⟨last.number + 1⟩

/-- The records whose number's bytes start with `start`. -/
def scan (b : Bucket) (start : Bytes) (s : KeySpace) :
    Except Failure (List (RecordId × Record)) :=
  (s.scan (b.recordStart ++ start)).entries.mapM fun e => do
    let id ← RecordId.ofKey (e.1.drop b.recordStart.length)
    return (id, ← b.decode e.2)

/-- The names of the indexes. -/
def indexNames (b : Bucket) : List String := b.indexes.map Index.name

/-- Whether there is an index of a name. -/
def hasIndex (b : Bucket) (index : String) : Bool := b.indexNames.contains index

/-- Refuse the name of an index that does not exist. -/
def checkIndex (b : Bucket) (index : String) : Except Failure Unit :=
  if b.hasIndex index then .ok () else fail (.noIndex b.name index)

/-- The entry under a key; without one no record is listed.  An entry that would list nothing is
removed, so its absence and an empty list are the same. -/
def entry (key : Bytes) (s : KeySpace) : Except Failure IdList :=
  match s.get key with
  | some bytes => IdList.decode bytes
  | none => .ok []

/-- The numbers that the entries of a map list, in key order.  Within an entry they come as they are
listed. -/
def listed (entries : ByteMap Bytes) : Except Failure (List RecordId) := do
  return (← entries.entries.mapM fun e => IdList.decode e.2).flatten

/-- The numbers of the records with an index value, in the order in which the entry lists them.  A
bucket lists them ascending. -/
def byIndex (b : Bucket) (index : String) (value : Bytes) (s : KeySpace) :
    Except Failure (List RecordId) := do
  b.checkIndex index
  entry (b.indexKey index value) s

/-- The numbers of the records whose index value starts with `start`, in the order of values. -/
def byIndexStart (b : Bucket) (index : String) (start : Bytes) (s : KeySpace) :
    Except Failure (List RecordId) := do
  b.checkIndex index
  listed (s.scan (b.indexKey index start))

/-- The numbers of the records whose index value lies in `[start, stop)`, in the order of values;
without a `stop` the range runs to the last value of the index. -/
def byIndexRange (b : Bucket) (index : String) (start : Bytes) (stop : Option Bytes)
    (s : KeySpace) : Except Failure (List RecordId) := do
  b.checkIndex index
  let stop := match stop with
    | some value => some (b.indexKey index value)
    | none => (b.indexStart index).prefixEnd
  listed (s.range (b.indexKey index start) stop)

/-- The records of numbers; each must have one.  A number without a record comes from an index that
has drifted. -/
def loadAll (b : Bucket) (ids : List RecordId) (s : KeySpace) :
    Except Failure (List (RecordId × Record)) :=
  ids.mapM fun id => do
    match ← b.get id s with
    | some r => return (id, r)
    | none => fail (.index (.drift (.missing b.kind id)))

/-! ### Writing -/

/-- What a change of a record does to one index.  The value before and the value after are kept
together, since a value that stays is not touched. -/
structure Change where
  index : String
  old : Option Bytes
  new : Option Bytes

/-- Turn an index fault into a failure. -/
def valueOf (index : Index) (r : Option Record) : Except Failure (Option Bytes) :=
  match index.value.ofOption r with
  | .ok value => .ok value
  | .error fault => fail (.index fault)

/-- What putting `new` in place of `old` does to the indexes.  All values are derived first, so that
a value that cannot be derived refuses the change before anything is written. -/
def changes (b : Bucket) (old new : Option Record) : Except Failure (List Change) := do
  let all ← b.indexes.mapM fun index => do
    return (⟨index.name, ← valueOf index old, ← valueOf index new⟩ : Change)
  return all.filter fun c => c.old ≠ c.new

/-- List a record under an index value. -/
def addRef (b : Bucket) (id : RecordId) (index : String) (value : Bytes) : Edit Unit := do
  let key := b.indexKey index value
  let ids ← .look (entry key)
  .write (·.set key (IdList.insert id ids).encode)

/-- Strike a record from an index value; it must be listed there.  If it is not, the index has
drifted, and this is fatal. -/
def removeRef (b : Bucket) (id : RecordId) (index : String) (value : Bytes) : Edit Unit := do
  let key := b.indexKey index value
  let ids ← .look (entry key)
  match IdList.remove? id ids with
  | none => .ofExcept (fail (.index (.drift (.unlisted b.name index b.kind id))))
  | some [] => .write (·.delete key)
  | some rest => .write (·.set key (IdList.encode rest))

/-- Do to the indexes what a change of a record asks for. -/
def applyChanges (b : Bucket) (id : RecordId) : List Change → Edit Unit
  | [] => return
  | c :: rest => do
    if let some value := c.old then b.removeRef id c.index value
    if let some value := c.new then b.addRef id c.index value
    b.applyChanges id rest

/-- Put a record under a number, in place of the one there.  The indexes are brought in step after
the record has been written. -/
def save (b : Bucket) (id : RecordId) (r : Record) : Edit Unit := do
  .ofExcept (b.checkKind r)
  .ofExcept r.validate
  let old ← .look (b.get id)
  let changes ← .ofExcept (b.changes old (some r))
  .write (·.set (b.recordKey id) r.encode)
  b.applyChanges id changes

/-- Give out the next number. -/
def nextId (b : Bucket) : Edit RecordId := do
  let id ← .look b.peekNextId
  .write (·.set b.sequenceKey id.key)
  return id

/-- Put a new record under the next number, which is given out only if every index takes the record.
So a record that is refused for its fields or its values uses up no number. -/
def create (b : Bucket) (r : Record) : Edit RecordId := do
  .ofExcept (b.checkKind r)
  .ofExcept r.validate
  let _ ← .ofExcept (b.changes none (some r))
  let id ← b.nextId
  b.save id r
  return id

/-- Remove the record of a number, which must exist. -/
def delete (b : Bucket) (id : RecordId) : Edit Unit := do
  let old ← .look (b.mustGet id)
  let changes ← .ofExcept (b.changes (some old) none)
  .write (·.delete (b.recordKey id))
  b.applyChanges id changes

end Bucket

end BlogLedger
