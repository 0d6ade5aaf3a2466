import BlogLedger.Message.Json
import BlogLedger.Transition.Caller

/-!
# Transactions

A message with the time at which it is submitted and the account that signed it.

## Main Definitions

* `Transaction` — the message, the time and the signer.
* `Context` — the time of a transition and who asks for it.
* `Outcome` — what a transition did.
-/

namespace BlogLedger

/-- A message submitted to the ledger. -/
structure Transaction where
  time : Timestamp
  signer : Option Address
  message : Message
  deriving DecidableEq

/-- The time of a transition and who asks for it. -/
structure Context where
  time : Timestamp
  caller : Caller

namespace Transaction

/-- The context in which a transaction is handled. -/
def context (tx : Transaction) : Context := ⟨tx.time, .ofSigner tx.signer⟩

/-- A transaction as JSON. -/
def toJson (tx : Transaction) : Json :=
  .ofMembers (("time", tx.time.toJson) :: Json.optionalMember "signer" Address.toJson tx.signer
    ++ [("msg", tx.message.toJson)])

/-- The transaction that a JSON value writes. -/
def ofJson? (j : Json) : Option Transaction := do
  let fields ← j.fields? ["time", "signer", "msg"]
  return {
    time := ← fields.required "time" Timestamp.ofJson?
    signer := ← fields.optional "signer" Address.ofJson?
    message := ← fields.required "msg" (Message.ofJson? 1) }

end Transaction

/-- What a transition did to its record. -/
inductive Effect where
  | created
  | updated
  | deleted
  | unchanged
  deriving DecidableEq, Inhabited, Repr

/-- The name of an effect. -/
def Effect.name : Effect → String
  | .created => "created"
  | .updated => "updated"
  | .deleted => "deleted"
  | .unchanged => "unchanged"

/-- The effect of a name. -/
def Effect.ofName? (name : String) : Option Effect :=
  [Effect.created, .updated, .deleted, .unchanged].find? fun e => e.name = name

/-- What a transition did: to which record, and which task it scheduled or cancelled. -/
structure Outcome where
  id : Option RecordId
  effect : Effect
  scheduled : Option TaskId
  cancelled : Option TaskId
  deriving DecidableEq, Repr

namespace Outcome

/-- The outcome that does something to a record and nothing to the schedule. -/
def on (effect : Effect) (id : RecordId) : Outcome := ⟨some id, effect, none, none⟩

/-- The outcome of a transition that did nothing. -/
def unchanged : Outcome := ⟨none, .unchanged, none, none⟩

/-- An outcome as JSON. -/
def toJson (o : Outcome) : Json :=
  .ofMembers (Json.optionalMember "id" RecordId.toJson o.id
    ++ [("effect", .ofText o.effect.name)]
    ++ Json.optionalMember "scheduled" TaskId.toJson o.scheduled
    ++ Json.optionalMember "cancelled" TaskId.toJson o.cancelled)

end Outcome

end BlogLedger
