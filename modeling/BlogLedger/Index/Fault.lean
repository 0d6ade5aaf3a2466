import BlogLedger.Identifier
import BlogLedger.Severity
import BlogLedger.Timestamp

/-!
# Index faults

What an index can never legitimately be asked to hold.  Every such fault is a defect of the caller and
stops the change.

## Main Definitions

* `IndexFault` — the fault.
* `IndexFault.code`, `IndexFault.message`, `IndexFault.display` — its wording.
-/

namespace BlogLedger

/-- How an index and the records disagree.  The index is written together with the records, so this
means that the store was changed by something else or that there is a defect. -/
inductive Drift where
  /-- The entry that should list a record does not. -/
  | unlisted (bucket index : String) (kind : RecordKind) (id : RecordId)
  /-- A listed record is not stored. -/
  | missing (kind : RecordKind) (id : RecordId)
  | stated (message : String)
  deriving DecidableEq, Repr

/-- The wording of a disagreement. -/
def Drift.message : Drift → String
  | .unlisted bucket index kind id =>
    bucket ++ "_" ++ index ++ " entry does not reference " ++ kind.name ++ " " ++ id.display
  | .missing kind id => "index references missing " ++ kind.name ++ " " ++ id.display
  | .stated message => message

/-- What an index can never hold. -/
inductive IndexFault where
  /-- A record of another type. -/
  | typeMismatch (expected got : String)
  /-- A time before 1970, which would sort after every later one. -/
  | negativeTime (time : Timestamp)
  | drift (reason : Drift)
  deriving DecidableEq, Repr

namespace IndexFault

/-- The code of a fault. -/
def code : IndexFault → String
  | .typeMismatch .. => "QUILL_INDEX_TYPE_MISMATCH"
  | .negativeTime _ => "QUILL_INDEX_NEGATIVE_TIME"
  | .drift _ => "QUILL_INDEX_DRIFT"

/-- The wording of a fault. -/
def message : IndexFault → String
  | .typeMismatch expected got => "expected " ++ expected ++ ", got " ++ got
  | .negativeTime time => "cannot index negative creation time " ++ toString time.toInt
  | .drift d => d.message

/-- Every index fault is fatal. -/
def severity (_ : IndexFault) : Severity := .fatal

/-- The full text of a fault. -/
def display (f : IndexFault) : String :=
  "[" ++ f.severity.name ++ "] " ++ f.code ++ ": " ++ f.message

end IndexFault

end BlogLedger
