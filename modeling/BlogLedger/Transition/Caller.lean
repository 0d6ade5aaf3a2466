import BlogLedger.Failure

/-!
# Callers

Who asks for a transition, and what that allows.

## Main Definitions

* `Caller` — nobody, the signer of a transaction, or the scheduler firing a task.
* `Caller.requireSigner`, `Caller.requireOwner` — refuse a caller who may not do something.
-/

namespace BlogLedger

/-- Who asks for a transition. -/
inductive Caller where
  | anonymous
  | signer (address : Address)
  /-- The scheduler, firing a task. -/
  | scheduler (task : TaskId)
  deriving DecidableEq

namespace Caller

/-- The caller of a transaction that may be signed. -/
def ofSigner : Option Address → Caller
  | some a => .signer a
  | none => .anonymous

/-- The signer, if there is one. -/
def signer? : Caller → Option Address
  | .signer a => some a
  | _ => none

/-- Whether the scheduler calls. -/
def isScheduler : Caller → Bool
  | .scheduler _ => true
  | _ => false

/-- The task that is being fired. -/
def firingTask? : Caller → Option TaskId
  | .scheduler task => some task
  | _ => none

/-- The signer, who must exist. -/
def requireSigner (c : Caller) : Except Failure Address :=
  match c.signer? with
  | some a => .ok a
  | none => fail .noSigner

/-- Whether someone who acts is an owner.  Where nobody signed there is no one to be the owner. -/
def isAuthorized (acting : Option Address) (owner : Address) : Bool :=
  acting = some owner

/-- Refuse an action to everyone but the owner. -/
def requireOwner (c : Caller) (owner : Address) (action : String) : Except Failure Unit :=
  if isAuthorized c.signer? owner then .ok () else fail (.notOwner action)

end Caller

end BlogLedger
