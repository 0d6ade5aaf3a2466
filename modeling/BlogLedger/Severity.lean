/-!
# Severity

An error fails one operation and leaves the ledger usable.  A fatal one means a defect or damaged
data and must not be passed over.

## Main Definitions

* `Severity` — error or fatal.
-/

namespace BlogLedger

/-- How grave a failure is. -/
inductive Severity where
  /-- The operation fails and the ledger goes on. -/
  | error
  /-- A defect or damage that stops the work. -/
  | fatal
  deriving DecidableEq, Inhabited, Repr

/-- The name of a severity. -/
def Severity.name : Severity → String
  | .error => "ERROR"
  | .fatal => "FATAL"

end BlogLedger
