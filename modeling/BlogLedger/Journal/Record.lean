import BlogLedger.Digest.Crc32
import BlogLedger.Bytes.Word
import BlogLedger.Journal.Fault
import BlogLedger.KeySpace.Batch

/-!
# Journal records

A record is one batch: the length of its body, the body, and the checksum of the body.  Length and
checksum are four little-endian bytes each, and the body is the batch as JSON.

## Main Definitions

* `JournalRecord.frame`, `JournalRecord.encode` — a record around a body and around a batch.
* `JournalRecord.read` — the record at the start of a byte string.
* `JournalRecord.readAll` — the records of a byte string, up to the first damaged one.
* `JournalRecord.replay` — the key space after all records.

## Design Notes

The length is not covered by the checksum.  With a wrong length the checksum is looked for in a
wrong place, or past the end.
-/

namespace BlogLedger.JournalRecord

/-- A record around a body. -/
def frame (body : Bytes) : Bytes :=
  Bytes.little32 (UInt32.ofNat body.length) ++ body ++ Bytes.little32 (Crc32.checksum body)

/-- How many bytes a record has beside its body. -/
def overhead : Nat := 8

/-- A record of a batch; a body whose length does not fit in 32 bits has none.  Its length would be
written as another one. -/
def encode (batch : Batch) : Except StorageFault Bytes :=
  let body := batch.encode
  if body.length < UInt32.size then .ok (frame body) else .error .oversized

/-- Whether a checksum belongs to a body. -/
def verify (body : Bytes) (expected : UInt32) : Bool :=
  Crc32.checksum body = expected

/-- The batch at the start of `bytes` and the length of its body, where `bytes` is not empty.  The
damages are looked for in this order, so a record with several is reported by the first. -/
def read (bytes : Bytes) : Except Damage (Batch × Nat) :=
  if bytes.length < 4 then .error .truncatedLength
  else
    let length := (Bytes.ofLittle32 (bytes.take 4)).toNat
    if bytes.length < overhead + length then .error (.pastEnd length)
    else
      let body := (bytes.drop 4).take length
      let checksum := Bytes.ofLittle32 ((bytes.drop (4 + length)).take 4)
      if !verify body checksum then .error .checksumMismatch
      else
        match Batch.decode? body with
        | some batch => .ok (batch, length)
        | none => .error .undecodable

/-- The batches of the bytes from an offset on, each with the offset after it, up to the end or to
the first damaged record. -/
def readAll (offset : Nat) (bytes : Bytes) : List (Nat × Batch) × Option StorageFault :=
  if h : bytes = [] then ([], none)
  else
    have : 0 < bytes.length := List.length_pos_iff.2 h
    match read bytes with
    | .error damage => ([], some (.damaged damage offset))
    | .ok (batch, length) =>
      let next := offset + (overhead + length)
      let rest := readAll next (bytes.drop (overhead + length))
      ((next, batch) :: rest.1, rest.2)
termination_by bytes.length
decreasing_by
  simp only [List.length_drop, overhead]
  omega

/-- The key space after all records of a journal, and how many there are; damage stops the replay
after the records before it.  What they wrote is kept, so it can be looked at, but no ledger is
opened on it. -/
def replay (bytes : Bytes) (s : KeySpace) : Except StorageFault Nat × KeySpace :=
  let (records, stop) := readAll 0 bytes
  let s := records.foldl (fun s r => r.2.apply s) s
  match stop with
  | none => (.ok records.length, s)
  | some fault => (.error fault, s)

end BlogLedger.JournalRecord
