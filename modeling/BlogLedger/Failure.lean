import BlogLedger.Address
import BlogLedger.Index.Fault
import BlogLedger.Journal.Fault
import BlogLedger.Timestamp.Text

/-!
# Failures

Why the ledger refuses something.  A failure has a cause, from which its code, its wording and the
offending field follow, and the activities during which the cause arose.

## Main Definitions

* `Cause` — why something is refused.
* `Failure` — a cause and the activities around it.
* `Failure.code`, `Failure.message?`, `Failure.field?`, `Failure.display` — what is reported.

## Design Notes

A text that cannot be decoded is reported by its code alone, so its message is absent.

A cause keeps what it is about, and the wording is computed from it.  A proof can therefore look at
causes and leave words alone.
-/

namespace BlogLedger

/-- The code of a failure. -/
inductive FailureCode where
  /-- A field or its format is wrong. -/
  | validation
  /-- The caller is not the owner. -/
  | unauthorized
  /-- A record, task or path does not exist. -/
  | notFound
  /-- The store or an index was asked for the impossible. -/
  | consistency
  /-- The journal could not be written or read. -/
  | storageIo
  /-- The journal is damaged. -/
  | dataCorruption
  /-- A stored text could not be decoded. -/
  | encoding
  deriving DecidableEq, Inhabited, Repr

namespace FailureCode

/-- The name of a code. -/
def name : FailureCode → String
  | .validation => "QUILL_VALIDATION"
  | .unauthorized => "QUILL_UNAUTHORIZED"
  | .notFound => "QUILL_NOT_FOUND"
  | .consistency => "QUILL_CONSISTENCY"
  | .storageIo => "QUILL_STORAGE_IO"
  | .dataCorruption => "QUILL_DATA_CORRUPTION"
  | .encoding => "QUILL_ENCODING"

/-- Inconsistency and damage are fatal.  The other codes fail one operation. -/
def severity : FailureCode → Severity
  | .consistency | .dataCorruption => .fatal
  | _ => .error

end FailureCode

/-- What is wrong with a field. -/
inductive Flaw where
  /-- The text does not match its format. -/
  | malformed (noun : String)
  /-- The number names no record. -/
  | unassigned (noun : String)
  | unset
  | outOfRange (time : Timestamp)
  /-- Zero stands where "unset" is written by leaving the field out. -/
  | zeroDeadline
  | address (fault : AddressFault)
  | stated (reason : String)
  deriving DecidableEq, Repr

/-- The wording for a time that the calendar cannot show. -/
def outOfRangeMessage (time : Timestamp) : String :=
  "timestamp " ++ toString time.toInt ++ " is out of range"

/-- The wording of a flaw. -/
def Flaw.reason : Flaw → String
  | .malformed noun => "invalid " ++ noun
  | .unassigned noun => "must reference " ++ noun
  | .unset => "must be set"
  | .outOfRange time => outOfRangeMessage time
  | .zeroDeadline => "zero must be stored as unset"
  | .address fault => fault.message
  | .stated reason => reason

/-- A field and what is wrong with it. -/
structure FieldFlaw where
  field : String
  flaw : Flaw
  deriving DecidableEq, Repr

/-- Several flaws in one wording. -/
def FieldFlaw.messages (flaws : List FieldFlaw) : String :=
  String.intercalate "; " (flaws.map fun f => f.field ++ ": " ++ f.flaw.reason)

/-- Why something is refused.  The data of a cause is what its wording shows. -/
inductive Cause where
  /-- One or more fields are wrong. -/
  | flawed (first : FieldFlaw) (rest : List FieldFlaw)
  | address (fault : AddressFault)
  | outOfRange (time : Timestamp)
  | unreadableTime (text : String)
  /-- A deletion is set for a time that has come. -/
  | deadlinePassed (deadline now : Timestamp)
  | timeNotPositive
  | timeOutOfRange (time : Timestamp)
  | timeBackwards (time last : Timestamp)
  | negativeSchedule (time : Timestamp)
  | unknownMode (text : String)
  | primaryKeyLength
  | noSigner
  | notOwner (action : String)
  | notScheduler
  | noRecord (kind : RecordKind) (id : RecordId)
  | noTask (id : TaskId)
  | noDeletion (article : RecordId)
  | noHandler (path : String)
  | unknownQueryPath (path : String)
  | wrongKind (expected got : RecordKind)
  | recordKeyLength (length : Nat)
  | index (fault : IndexFault)
  | foreignKind (bucket : String) (kind got : RecordKind)
  | noIndex (bucket name : String)
  | taskSequenceLength
  | timeLength
  | queueWithoutTask (id : TaskId)
  | pathTaken (path : String)
  | queryPathTaken (path : String)
  | wrongMessage (expected got : String)
  | storage (fault : StorageFault)
  | undecodable
  | stated (code : FailureCode) (message : String) (field : Option String)
  deriving DecidableEq, Repr

namespace Cause

/-- The code that a cause is reported under. -/
def code : Cause → FailureCode
  | .flawed .. | .address _ | .outOfRange _ | .unreadableTime _ | .deadlinePassed ..
  | .timeNotPositive | .timeOutOfRange _ | .timeBackwards .. | .negativeSchedule _
  | .unknownMode _ | .primaryKeyLength => .validation
  | .noSigner | .notOwner _ | .notScheduler => .unauthorized
  | .noRecord .. | .noTask _ | .noDeletion _ | .noHandler _ | .unknownQueryPath _ => .notFound
  | .wrongKind .. | .recordKeyLength _ | .index _ | .foreignKind .. | .noIndex ..
  | .taskSequenceLength | .timeLength | .queueWithoutTask _ | .pathTaken _ | .queryPathTaken _
  | .wrongMessage .. => .consistency
  | .storage fault => if fault.isDamage then .dataCorruption else .storageIo
  | .undecodable => .encoding
  | .stated code _ _ => code

/-- The wording of a cause; a text that cannot be decoded has none. -/
def message? : Cause → Option String
  | .flawed first rest => FieldFlaw.messages (first :: rest)
  | .address fault => fault.message
  | .outOfRange time => outOfRangeMessage time
  | .unreadableTime text =>
    "invalid time " ++ Quoted.apostrophe.toString ++ text ++ Quoted.apostrophe.toString
  | .deadlinePassed deadline now =>
    "delete at " ++ deadline.display ++ " is not after transition time " ++ now.display
  | .timeNotPositive => "transition time must be positive"
  | .timeOutOfRange time => outOfRangeMessage time
  | .timeBackwards time last =>
    time.display ++ " is before the last transition at " ++ last.display
  | .negativeSchedule time => "cannot schedule at negative time " ++ toString time.toInt
  | .unknownMode text => "unknown query mode " ++ text
  | .primaryKeyLength => "primary key must be 8 bytes"
  | .noSigner => "transition has no signer"
  | .notOwner action => "only the owner can " ++ action
  | .notScheduler => "scheduled deletion can only be fired by the scheduler"
  | .noRecord kind id => kind.name ++ " " ++ id.display ++ " does not exist"
  | .noTask id => id.display ++ " is not scheduled"
  | .noDeletion article => "no scheduled deletion for article " ++ article.display
  | .noHandler path => "no handler for path " ++ path
  | .unknownQueryPath path => "unknown query path " ++ path
  | .wrongKind expected got => "expected " ++ expected.name ++ ", got " ++ got.name
  | .recordKeyLength length => "record key must be 8 bytes, got " ++ toString length
  | .index fault => fault.code ++ ": " ++ fault.message
  | .foreignKind bucket kind got =>
    "bucket " ++ bucket ++ " holds " ++ kind.name ++ " records, got " ++ got.name
  | .noIndex bucket name => "bucket " ++ bucket ++ " has no index " ++ name
  | .taskSequenceLength => "task sequence is not 8 bytes"
  | .timeLength => "stored transition time is not 8 bytes"
  | .queueWithoutTask id => "queued " ++ id.display ++ " has no task record"
  | .pathTaken path => "path " ++ path ++ " already registered"
  | .queryPathTaken path => "query path " ++ path ++ " already registered"
  | .wrongMessage expected got =>
    "handler for " ++ expected ++ " received " ++ got ++ " message"
  | .storage fault => fault.fullMessage
  | .undecodable => none
  | .stated _ message _ => message

/-- The field that a cause lies in. -/
def field? : Cause → Option String
  | .flawed first _ => first.field
  | .deadlinePassed .. => "delete_at"
  | .timeNotPositive | .timeOutOfRange _ | .timeBackwards .. => "time"
  | .stated _ _ field => field
  | _ => none

end Cause

/-- Why something is refused, and the activities during which that arose, the innermost first.
Code, severity and field are those of the cause. -/
structure Failure where
  cause : Cause
  during : List String
  deriving DecidableEq, Repr

namespace Failure

/-- A failure without activities around it. -/
def of (cause : Cause) : Failure := ⟨cause, []⟩

/-- The same failure inside one more activity. -/
def within (activity : String) (f : Failure) : Failure :=
  ⟨f.cause, f.during ++ [activity]⟩

/-- The code of a failure. -/
def code (f : Failure) : FailureCode := f.cause.code

/-- How grave a failure is. -/
def severity (f : Failure) : Severity := f.code.severity

/-- Whether a failure must stop the work. -/
def isFatal (f : Failure) : Bool := f.severity = .fatal

/-- The wording of a failure: its cause after the activities around it, the outermost first. -/
def message? (f : Failure) : Option String :=
  f.cause.message?.map fun m => f.during.foldl (fun m activity => activity ++ ": " ++ m) m

/-- The wording of a failure, empty when there is none. -/
def message (f : Failure) : String := f.message?.getD ""

/-- The offending field. -/
def field? (f : Failure) : Option String := f.cause.field?

/-- The full text of a failure. -/
def display (f : Failure) : String :=
  let heading := "[" ++ f.severity.name ++ "] " ++ f.code.name
  match f.message? with
  | none => heading
  | some message =>
    heading ++ ": " ++ message ++
      match f.field? with
      | some field => " (field: " ++ field ++ ")"
      | none => ""

end Failure

/-- A failure with the given cause. -/
def fail {α : Type} (cause : Cause) : Except Failure α :=
  .error (.of cause)

/-- A reading of an address, whose fault becomes a failure. -/
def Address.orFail (reading : Except AddressFault Address) : Except Failure Address :=
  match reading with
  | .ok address => .ok address
  | .error fault => fail (.address fault)

/-- The record number written as exactly eight bytes. -/
def RecordId.ofKey (bytes : Bytes) : Except Failure RecordId :=
  match RecordId.ofKey? bytes with
  | some id => .ok id
  | none => fail (.recordKeyLength bytes.length)

/-- The time that a text writes; blanks around it are ignored. -/
def Timestamp.read (text : String) : Except Failure Timestamp :=
  match Timestamp.read? text with
  | some time => .ok time
  | none => fail (.unreadableTime (Blank.trim text))

/-- A result whose failure arose inside an activity. -/
def within {α : Type} (activity : String) : Except Failure α → Except Failure α
  | .ok a => .ok a
  | .error f => .error (f.within activity)

end BlogLedger
