import BlogLedger.Collections

/-!
# Queries

Read-only lookup.  A path names a bucket, where the data is the number of a record, or a bucket and
one of its indexes, where the data is an index value.

## Main Definitions

* `QueryMode` — whether the data is the whole number or value, or what it starts with.
* `QueryTable` — the buckets open to queries, by name.
* `QueryTable.query` — the records that a query finds.
* `QueryTable.standard` — the table of the ledger.

## Design Notes

The order of an answer is that of the keys that were read: by number for a bucket, and by value and
then by number for an index.
-/

namespace BlogLedger

/-- How the data of a query is matched. -/
inductive QueryMode where
  /-- The data is the whole number or index value. -/
  | exact
  /-- The data is what the number or index value starts with. -/
  | leading
  deriving DecidableEq, Repr

/-- The mode that a text names; an empty text stands for an exact match. -/
def QueryMode.ofText (text : String) : Except Failure QueryMode :=
  if text = "" ∨ text = "exact" then .ok .exact
  else if text = "prefix" then .ok .leading
  else fail (.unknownMode text)

/-- A record that a query found. -/
structure Found where
  id : RecordId
  record : Record

/-- A found record as JSON, with its number in hexadecimal and in decimal digits. -/
def Found.toJson (f : Found) : Json :=
  .ofMembers [("key", .ofText (Hex.lower f.id.key)), ("id", f.id.toJson),
    ("record", f.record.toJson)]

/-- The buckets open to queries, in ascending order of their names. -/
abbrev QueryTable := List (String × Bucket)

namespace QueryTable

/-- Put a bucket in the place of its name. -/
def insert (name : String) (bucket : Bucket) : QueryTable → QueryTable
  | [] => [(name, bucket)]
  | t :: rest =>
    if name < t.1 then (name, bucket) :: t :: rest
    else t :: insert name bucket rest

/-- Open a bucket to queries; a name has one at most. -/
def add (name : String) (bucket : Bucket) (table : QueryTable) : Except Failure QueryTable :=
  if (table.lookup name).isSome then fail (.queryPathTaken name)
  else .ok (table.insert name bucket)

/-- Put a path in its place. -/
def insertPath (path : String) : List String → List String
  | [] => [path]
  | p :: rest =>
    if p < path then p :: insertPath path rest else path :: p :: rest

/-- Every path that has an answer, ascending. -/
def paths (table : QueryTable) : List String :=
  (table.flatMap fun t => t.1 :: t.2.indexNames.map fun index => t.1 ++ "/" ++ index).foldr
    insertPath []

/-- A path as the name of a bucket and, after the first slash, of an index. -/
def splitPath (path : String) : String × Option String :=
  let chars := path.toList
  match chars.dropWhile (· ≠ '/') with
  | _ :: index => (String.ofList (chars.takeWhile (· ≠ '/')), some (String.ofList index))
  | [] => (path, none)

/-- The records that a query without an index finds.  An exact query must give all eight bytes of a
number, and the start of a number may have any length. -/
def queryRecords (bucket : Bucket) (data : Bytes) (mode : QueryMode) (s : KeySpace) :
    Except Failure (List (RecordId × Record)) :=
  match mode with
  | .exact =>
    match RecordId.ofKey? data with
    | none => fail .primaryKeyLength
    | some id => do
      match ← bucket.get id s with
      | some r => return [(id, r)]
      | none => return []
  | .leading => bucket.scan data s

/-- The records that a query through an index finds. -/
def queryIndex (bucket : Bucket) (index : String) (data : Bytes) (mode : QueryMode)
    (s : KeySpace) : Except Failure (List (RecordId × Record)) := do
  let ids ← match mode with
    | .exact => bucket.byIndex index data s
    | .leading => bucket.byIndexStart index data s
  bucket.loadAll ids s

/-- The records that a query finds. -/
def query (table : QueryTable) (path : String) (data : Bytes) (mode : QueryMode)
    (s : KeySpace) : Except Failure (List Found) := do
  let (name, index) := splitPath path
  match table.lookup name, index with
  | none, _ => fail (.unknownQueryPath path)
  | some bucket, none =>
    return (← queryRecords bucket data mode s).map fun r => ⟨r.1, r.2⟩
  | some bucket, some index =>
    if bucket.hasIndex index then
      return (← queryIndex bucket index data mode s).map fun r => ⟨r.1, r.2⟩
    else fail (.unknownQueryPath path)

/-- The buckets of the ledger. -/
def standardBuckets : List (String × Bucket) :=
  [("users", .users), ("blogs", .blogs), ("articles", .articles)]

/-- Open buckets to queries, up to the first name that is taken. -/
def addAll : List (String × Bucket) → QueryTable → Except Failure Unit × QueryTable
  | [], table => (.ok (), table)
  | (name, bucket) :: rest, table =>
    match table.add name bucket with
    | .ok table => addAll rest table
    | .error f => (.error f, table)

/-- The table of the ledger. -/
def standard : QueryTable := (addAll standardBuckets []).2

end QueryTable

end BlogLedger
