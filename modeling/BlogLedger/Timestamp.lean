import BlogLedger.Bytes.Word

/-!
# Timestamps

Times are whole seconds since the start of 1970, in 64 bits with a sign.  Zero stands for "unset".

## Main Definitions

* `Timestamp` — a time.
* `Timestamp.IsRepresentable` — whether the calendar has a date for it.
* `Timestamp.addSeconds` — a later or earlier time, held at the ends of the 64-bit range.

## Design Notes

The bytes of a time before 1970 begin with a set bit and would sort last, so such a time is refused
where it would become part of a key.
-/

namespace BlogLedger

/-- Seconds since the start of 1970. -/
structure Timestamp where
  seconds : Int64
  deriving DecidableEq, Inhabited, Repr

namespace Timestamp

/-- The unset time. -/
def unset : Timestamp := ⟨0⟩

/-- The seconds as an integer. -/
def toInt (t : Timestamp) : Int := t.seconds.toInt

instance : LT Timestamp := ⟨fun s t => s.seconds < t.seconds⟩
instance : LE Timestamp := ⟨fun s t => s.seconds ≤ t.seconds⟩
instance (s t : Timestamp) : Decidable (s < t) := inferInstanceAs (Decidable (s.seconds < t.seconds))
instance (s t : Timestamp) : Decidable (s ≤ t) := inferInstanceAs (Decidable (s.seconds ≤ t.seconds))

/-- The integer `i`, or the nearer end of the 64-bit range. -/
def clamp (i : Int) : Int64 :=
  if i < Int64.minValue.toInt then Int64.minValue
  else if Int64.maxValue.toInt < i then Int64.maxValue
  else Int64.ofInt i

/-- This time shifted by `shift` seconds, held at the ends of the 64-bit range.  The last time
shifted further is itself. -/
def addSeconds (t : Timestamp) (shift : Int64) : Timestamp :=
  ⟨clamp (t.toInt + shift.toInt)⟩

/-- The first second that the calendar can show. -/
def earliest : Int := -8334601228800

/-- The last second that the calendar can show. -/
def latest : Int := 8210266876799

/-- Whether the calendar has a date for this time.  It covers far fewer times than 64 bits do. -/
def IsRepresentable (t : Timestamp) : Prop :=
  earliest ≤ t.toInt ∧ t.toInt ≤ latest

instance (t : Timestamp) : Decidable t.IsRepresentable :=
  inferInstanceAs (Decidable (_ ∧ _))

/-- The eight bytes of a time, most significant first. -/
def key (t : Timestamp) : Bytes :=
  Bytes.big64 t.seconds.toUInt64

/-- The time written as exactly eight bytes. -/
def ofKey? (bytes : Bytes) : Option Timestamp :=
  (Bytes.ofBig64? bytes).map fun w => ⟨w.toInt64⟩

end Timestamp

end BlogLedger
