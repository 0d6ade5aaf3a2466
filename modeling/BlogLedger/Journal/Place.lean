import BlogLedger.Disk
import BlogLedger.Journal

/-!
# Where a journal lies

The journal of a data directory is the file `journal.dat` in its directory `data`.

## Main Definitions

* `Journal.pathIn` — the path of the journal of a data directory.
* `Journal.openIn` — open the journal, making directory and file if they are missing.
* `Journal.bytesIn`, `Journal.replayIn` — read the journal.
-/

namespace BlogLedger.Journal

/-- The directory of the journal of a data directory. -/
def directoryIn (dataDir : String) : String := Disk.join dataDir "data"

/-- The path of the journal of a data directory. -/
def pathIn (dataDir : String) : String := Disk.join (directoryIn dataDir) "journal.dat"

/-- Make the directory of a journal, if nothing lies there. -/
def makeDirectory (dataDir : String) (d : Disk) : Except StorageFault Unit × Disk :=
  if d.hasNode (directoryIn dataDir) then (.ok (), d)
  else
    match d.createDirectories (directoryIn dataDir) with
    | (true, d) => (.ok (), d)
    | (false, d) => (.error (.noDirectory (directoryIn dataDir)), d)

/-- Open the journal of a data directory, making directory and file if they are missing.  What was
made stays, also when the journal cannot be opened. -/
def openIn (dataDir : String) (syncs : Bool) (d : Disk) : Except StorageFault Journal × Disk :=
  match makeDirectory dataDir d with
  | (.error fault, d) => (.error fault, d)
  | (.ok (), d) =>
    match d.openFile (pathIn dataDir) with
    | some (file, d) => (.ok (.ofFile (pathIn dataDir) file syncs), d)
    | none => (.error (.cannotOpen (pathIn dataDir)), d)

/-- The bytes of the journal of a data directory.  A directory in the place of the file can be opened
and has a size, and not even the length of a record can be read from it. -/
def bytesIn (dataDir : String) (d : Disk) : Except StorageFault Bytes :=
  match d.find (pathIn dataDir) with
  | some (.file file) => .ok file.bytes
  | some .directory => .error (.damaged .truncatedLength 0)
  | none => .error (.cannotOpen (pathIn dataDir))

/-- Replay the journal of a data directory; a missing journal holds no record.  So a new data
directory opens as an empty ledger. -/
def replayIn (dataDir : String) (d : Disk) (s : KeySpace) : Except StorageFault Nat × KeySpace :=
  if d.hasNode (pathIn dataDir) then
    match bytesIn dataDir d with
    | .ok bytes => JournalRecord.replay bytes s
    | .error fault => (.error fault, s)
  else (.ok 0, s)

end BlogLedger.Journal
