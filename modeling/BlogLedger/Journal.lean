import BlogLedger.Journal.File
import BlogLedger.Journal.Record

/-!
# The journal

Every committed change is one record at the end of the journal file, written before the change is
made.  A record that could not be written in full is cut off again; if that fails too, the journal
takes no more records.

## Main Definitions

* `Journal` — an open journal.
* `Journal.append` — write a batch.

## Design Notes

A record that is in the file in full can still be refused, when it cannot be made safe.  It is then
cut off like any other.  If it cannot be cut off, it stays in the file, and a reader who opens the
file later finds it there.
-/

namespace BlogLedger

/-- An open journal.  After an append the file is longer than `offset` only if a cut has failed. -/
structure Journal where
  path : String
  file : File
  /-- Whether each record must be safe before the append returns. -/
  syncs : Bool
  /-- The size of the file after its last complete record. -/
  offset : Nat
  /-- How many records were written since the journal was opened. -/
  records : Nat
  /-- Bytes after `offset` could not be removed.  A further record would stand after them, where a
  reader may not find it, so none is written. -/
  poisoned : Bool

namespace Journal

/-- A journal on a file that may hold records already. -/
def ofFile (path : String) (file : File) (syncs : Bool) : Journal where
  path
  file
  syncs
  offset := file.size
  records := 0
  poisoned := false

/-- Write the bytes of a record.  The journal that is left behind has what was written, also after a
failure. -/
def writeRecord (record : Bytes) (j : Journal) : Except StorageFault Unit × Journal :=
  let (written, file) := j.file.append record
  let j := { j with file }
  if !written then (.error .appendFailed, j)
  else if j.syncs && !file.sync then (.error .syncFailed, j)
  else (.ok (), j)

/-- Cut the file back to its last complete record.  If the cut fails or cannot be made safe, the
journal is poisoned from then on. -/
def discardTail (j : Journal) : Journal :=
  let (isCut, file) := j.file.cut j.offset
  { j with file, poisoned := j.poisoned || !(isCut && file.syncCut) }

/-- Write a batch as one record and give the offset of the record.  An empty batch is not written,
and not even a poisoned journal refuses it. -/
def append (batch : Batch) (j : Journal) : Except StorageFault Nat × Journal :=
  if batch.isEmpty then (.ok j.offset, j)
  else if j.poisoned then (.error .refused, j)
  else
    match JournalRecord.encode batch with
    | .error fault => (.error fault, j)
    | .ok record =>
      match j.writeRecord record with
      | (.error fault, j) => (.error fault, j.discardTail)
      | (.ok (), written) =>
        (.ok j.offset,
          { written with offset := j.offset + record.length, records := j.records + 1 })

end Journal

end BlogLedger
