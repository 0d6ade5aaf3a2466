import BlogLedger.Bytes

/-!
# CRC-32

The checksum that closes every journal record: the reflected IEEE polynomial, with all bits set in
the starting register and inverted at the end.

## Main Definitions

* `Crc32.absorb` — the register after one more byte.
* `Crc32.checksum` — the checksum of a byte string.

## Design Notes

The register is shifted one bit at a time, so that linearity over exclusive or can be read off the
definition.
-/

namespace BlogLedger.Crc32

/-- The reflected IEEE polynomial. -/
def polynomial : UInt32 := 0xedb88320

/-- Shift the register by one bit. -/
def shift (r : UInt32) : UInt32 :=
  if r &&& 1 = 1 then (r >>> 1) ^^^ polynomial else r >>> 1

/-- Shift the register by eight bits. -/
def shiftByte (r : UInt32) : UInt32 :=
  shift (shift (shift (shift (shift (shift (shift (shift r)))))))

/-- The register after one more byte.  The byte goes into the lower end, since the polynomial is
reflected. -/
def absorb (r : UInt32) (b : UInt8) : UInt32 :=
  shiftByte (r ^^^ b.toUInt32)

/-- The register after all of `bytes`, from `r`. -/
def absorbAll (r : UInt32) (bytes : Bytes) : UInt32 :=
  bytes.foldl absorb r

/-- The checksum of a byte string. -/
def checksum (bytes : Bytes) : UInt32 :=
  absorbAll 0xffffffff bytes ^^^ 0xffffffff

end BlogLedger.Crc32
