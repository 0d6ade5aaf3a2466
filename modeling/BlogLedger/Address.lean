import BlogLedger.Bytes.Hex
import BlogLedger.Digest.Sha256
import BlogLedger.Text.Blank

/-!
# Addresses

An account is known by twenty bytes, derived from whatever it signs with.

Nothing is kept of what an account signs with: the address is all that the ledger knows of it.
Owners are compared by their bytes, so it does not matter in which case or with which blanks an
address was written.

## Main Definitions

* `Address` — the twenty bytes.
* `Address.derive` — the address of signer material.
* `Address.ofBytes`, `Address.read` — an address from bytes and from hexadecimal text.
* `Address.display` — the upper-case hexadecimal text.
-/

namespace BlogLedger

/-- The identity of an account: twenty bytes. -/
structure Address where
  bytes : Bytes
  length_eq : bytes.length = 20
  deriving DecidableEq

/-- Why something is no address.  A wrong number of bytes is told apart from a text that is not
hexadecimal. -/
inductive AddressFault where
  | notHex (fault : HexFault)
  | wrongLength (length : Nat)
  deriving DecidableEq, Repr

/-- The wording of a fault. -/
def AddressFault.message : AddressFault → String
  | .notHex fault => "address is not hex: " ++ fault.message
  | .wrongLength length => "address must be 20 bytes, got " ++ toString length

namespace Address

/-- The address of the given bytes. -/
def ofBytes (bytes : Bytes) : Except AddressFault Address :=
  if h : bytes.length = 20 then .ok ⟨bytes, h⟩ else .error (.wrongLength bytes.length)

/-- The address that a hexadecimal text writes; blanks around it are ignored.  Either case is taken,
since an address is shown in one case and may be typed in the other. -/
def read (text : String) : Except AddressFault Address :=
  match Hex.read (Blank.trim text) with
  | .ok bytes => ofBytes bytes
  | .error fault => .error (.notHex fault)

/-- The bytes in front of signer material before it is digested.  They keep addresses apart from
digests of the same material that are made for something else. -/
def domain : Bytes := [115, 105, 103, 115, 47]

/-- The address of signer material: the first twenty bytes of its digest. -/
def derive (material : Bytes) : Address :=
  ⟨(Sha256.digest (domain ++ material)).take 20, by simp⟩

/-- The upper-case hexadecimal text. -/
def display (a : Address) : String := Hex.upper a.bytes

end Address

end BlogLedger
