import BlogLedger.Bytes.Hex
import BlogLedger.Bytes.Word

/-!
# Identifiers

Records and scheduled tasks are numbered from one.  Zero is never assigned.

Both are eight bytes with the most significant first, so that keys ascend as numbers do.  They are
different types, since a record and a task may have the same number.

## Main Definitions

* `RecordId`, `TaskId` — the number of a record and of a task.
* `RecordId.key`, `TaskId.key` — the eight bytes of an identifier; their order is numeric order.
* `RecordKind` — what a record is.
-/

namespace BlogLedger

/-- The number of a record within its bucket. -/
structure RecordId where
  number : UInt64
  deriving DecidableEq, Inhabited, Repr

namespace RecordId

/-- Whether a record can have this number. -/
def isAssigned (id : RecordId) : Bool := id.number ≠ 0

/-- The eight bytes of a number, most significant first. -/
def key (id : RecordId) : Bytes := Bytes.big64 id.number

/-- The number written as exactly eight bytes. -/
def ofKey? (bytes : Bytes) : Option RecordId :=
  (Bytes.ofBig64? bytes).map RecordId.mk

/-- The decimal text of a number. -/
def display (id : RecordId) : String := toString id.number.toNat

instance : LT RecordId := ⟨fun a b => a.number < b.number⟩
instance (a b : RecordId) : Decidable (a < b) := inferInstanceAs (Decidable (a.number < b.number))

@[simp] theorem ofKey?_key (id : RecordId) : ofKey? id.key = some id := by
  simp [ofKey?, key]

end RecordId

/-- The number of a scheduled task; it is the handle by which the task is cancelled. -/
structure TaskId where
  number : UInt64
  deriving DecidableEq, Inhabited, Repr

namespace TaskId

/-- The eight bytes of a number, most significant first. -/
def key (id : TaskId) : Bytes := Bytes.big64 id.number

/-- The number written as exactly eight bytes. -/
def ofKey? (bytes : Bytes) : Option TaskId :=
  (Bytes.ofBig64? bytes).map TaskId.mk

/-- The text of a task number: sixteen hexadecimal digits. -/
def display (id : TaskId) : String := "task-" ++ Hex.lower id.key

@[simp] theorem ofKey?_key (id : TaskId) : ofKey? id.key = some id := by
  simp [ofKey?, key]

end TaskId

/-- What a record is. -/
inductive RecordKind where
  | user
  | blog
  | article
  deriving DecidableEq, Inhabited, Repr

/-- The name of a kind. -/
def RecordKind.name : RecordKind → String
  | .user => "user"
  | .blog => "blog"
  | .article => "article"

end BlogLedger
