import BlogLedger.Config
import BlogLedger.Journal.Place
import BlogLedger.Ledger

/-!
# Opening a ledger

A ledger on a disk is what its journal says: every record is made part of an empty store, and the
journal is opened for more.

## Main Definitions

* `Ledger.openIn` — the ledger of a data directory.
* `Disk.keep` — the disk with what an open ledger wrote to its journal.
-/

namespace BlogLedger

/-- Turn a storage fault into a failure. -/
def StorageFault.failure (fault : StorageFault) : Failure := .of (.storage fault)

/-- What is logged about a journal that cannot be replayed. -/
def Ledger.corruptionLog (f : Failure) : List LogEntry :=
  if f.isFatal then [.of .journalCorrupted [("error", f.message)]] else []

/-- Open the ledger of a data directory.  Damage in the journal refuses it, for the records after
the damage would be lost. -/
def Ledger.openIn (config : Config) (d : Disk) :
    Except Failure Ledger × Disk × List LogEntry :=
  match Journal.replayIn config.dataDir d .empty with
  | (.error fault, _) => (.error fault.failure, d, corruptionLog fault.failure)
  | (.ok records, store) =>
    let log := [LogEntry.of .journalReplayed [("records", toString records)]]
    match Journal.openIn config.dataDir config.journalFsync d with
    | (.error fault, d) => (.error fault.failure, d, log)
    | (.ok journal, d) =>
      let ledger : Ledger := ⟨store, some journal, .zero, config.maxTasksPerTick.toNat⟩
      (.ok ledger, d, log ++ [.of .ledgerOpened
        [("data_dir", config.dataDir), ("pending_tasks", toString ledger.pendingTasks)]])

/-- The disk with what an open ledger wrote to its journal. -/
def Disk.keep (ledger : Ledger) (d : Disk) : Disk :=
  match ledger.journal with
  | some journal => d.writeFile journal.path journal.file
  | none => d

end BlogLedger
