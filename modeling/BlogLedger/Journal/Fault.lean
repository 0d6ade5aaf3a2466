import BlogLedger.Severity

/-!
# Storage faults

A journal file cannot be used, or what it holds is damaged.

## Main Definitions

* `Damage` — how a journal record is damaged.
* `StorageFault` — the fault.
* `StorageFault.message`, `StorageFault.details`, `StorageFault.display` — its wording.

## Design Notes

A failed operation leaves the file usable, or poisons the journal.  Damage is in what was written
before, and nothing that comes after it can be read.
-/

namespace BlogLedger

/-- How a journal record is damaged. -/
inductive Damage where
  | truncatedLength
  | pastEnd (length : Nat)
  | checksumMismatch
  | undecodable
  | stated (message : String)
  deriving DecidableEq, Repr

/-- The wording of a damage. -/
def Damage.message : Damage → String
  | .truncatedLength => "truncated record length"
  | .pastEnd length => "record length " ++ toString length ++ " runs past end of journal"
  | .checksumMismatch => "checksum mismatch"
  | .undecodable => "undecodable batch"
  | .stated message => message

/-- Why a journal cannot be written or read. -/
inductive StorageFault where
  | noDirectory (directory : String)
  | cannotOpen (path : String)
  /-- Bytes of a failed write could not be removed, so nothing more is written. -/
  | refused
  | appendFailed
  | syncFailed
  | statedIo (message source : String)
  /-- A batch is too long for its length field. -/
  | oversized
  /-- The record at a byte offset is damaged. -/
  | damaged (damage : Damage) (offset : Nat)
  | statedDamage (message : String)
  deriving DecidableEq, Repr

namespace StorageFault

/-- Whether a fault is damage, as opposed to a failed operation on the file. -/
def isDamage : StorageFault → Bool
  | .oversized | .damaged .. | .statedDamage _ => true
  | _ => false

/-- The code of a fault. -/
def code (f : StorageFault) : String :=
  if f.isDamage then "QUILL_DATA_CORRUPTION" else "QUILL_STORAGE_IO"

/-- Damage is fatal, a failed operation is not. -/
def severity (f : StorageFault) : Severity :=
  if f.isDamage then .fatal else .error

/-- The wording of a fault. -/
def message : StorageFault → String
  | .noDirectory directory => "Failed to create journal directory: " ++ directory
  | .cannotOpen path => "Failed to open journal: " ++ path
  | .refused => "Journal refuses appends after an unrecoverable write failure"
  | .appendFailed => "Failed to append journal record"
  | .syncFailed => "fsync failed after journal append"
  | .statedIo message _ => message
  | .oversized => "Batch exceeds 4GiB record limit"
  | .damaged damage _ => damage.message
  | .statedDamage message => message

/-- Where a fault lies, if it lies anywhere. -/
def details : StorageFault → Option String
  | .damaged _ offset => some ("byte_offset: " ++ toString offset)
  | _ => none

/-- What a failed operation is due to, where that is known. -/
def source : StorageFault → Option String
  | .statedIo _ source => some source
  | .refused => some "torn journal tail"
  | _ => none

/-- The wording of a fault and where it lies. -/
def fullMessage (f : StorageFault) : String :=
  match f.details with
  | some details => f.message ++ " (" ++ details ++ ")"
  | none => f.message

/-- The full text of a fault. -/
def display (f : StorageFault) : String :=
  "[" ++ f.severity.name ++ "] " ++ f.code ++ ": " ++ f.fullMessage

end StorageFault

end BlogLedger
