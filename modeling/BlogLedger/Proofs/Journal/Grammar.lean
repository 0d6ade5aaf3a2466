import BlogLedger.Journal.Record
import BlogLedger.Proofs.Bytes.Order

/-!
# The grammar of journals

A journal is a row of records, and a record is a length, a body of that length that writes a batch,
and the checksum of the body.  A journal is read record by record, up to the first place where no
record begins.

Reading is defined by the steps that a reader takes, and the grammar by what a journal consists of.
That they agree in both directions is what allows the one to be replaced by the other.  One fact
about records is behind it: the length comes first, so the record that begins at a place is
determined, and no record is the beginning of another one.

## Main Definitions

* `JournalRecord.IsRecord`, `JournalRecord.AreRecords` — the grammar.
* `JournalRecord.Misfit` — there are bytes, and no record begins there.

## Main Results

* `JournalRecord.read_parts` — what is read from bytes that are laid out like a record.
* `JournalRecord.read_eq_ok_iff` — a batch is read exactly where its record begins.
* `JournalRecord.IsRecord.misfit_take` — a record that was cut is not a record.
* `JournalRecord.misfit_iff` — nothing is read exactly where no record begins.
* `JournalRecord.AreRecords.readAll_append` — records are read before what follows them.
* `JournalRecord.exists_records` — byte strings consist of records, up to a misfit if there is one.

## Design Notes

Reading ends on every byte string, since a record leaves fewer bytes than there were.  The offset that
is noted while reading is the length of what was read, whatever the bytes are.
-/

namespace BlogLedger.JournalRecord

variable {record front rest bytes : Bytes} {batch : Batch} {batches more : List Batch}

/-! ### Definitions -/

/-- The bytes are one record of a batch: the length of the body, the body, which writes the batch,
and its checksum.  A batch can have several records, as a body may be written in more than one way. -/
def IsRecord (record : Bytes) (batch : Batch) : Prop :=
  ∃ body : Bytes, body.length < UInt32.size ∧ Batch.decode? body = some batch
    ∧ record = Bytes.little32 (UInt32.ofNat body.length) ++ body
      ++ Bytes.little32 (Crc32.checksum body)

/-- The bytes are the records of batches in a row, and nothing else.  There is no mark between them. -/
inductive AreRecords : Bytes → List Batch → Prop
  | nil : AreRecords [] []
  | cons {record rest : Bytes} {batch : Batch} {batches : List Batch} :
    IsRecord record batch → AreRecords rest batches → AreRecords (record ++ rest) (batch :: batches)

/-- There are bytes, and they begin with no record.  It says nothing on why there is none. -/
def Misfit (bytes : Bytes) : Prop :=
  bytes ≠ [] ∧ ∀ record batch, IsRecord record batch → ¬ record <+: bytes

/-! ### One record -/

theorem length_frame (body : Bytes) : (frame body).length = overhead + body.length := by
  unfold frame overhead
  rw [List.length_append, List.length_append, Bytes.length_little32, Bytes.length_little32]
  omega

/-- Bytes that are laid out like a record are a record if the checksum belongs to the body and the
body writes a batch.  All the arithmetic of offsets is in this lemma. -/
theorem read_parts {head body tail : Bytes} (hhead : head.length = 4)
    (hlength : (Bytes.ofLittle32 head).toNat = body.length) (htail : tail.length = 4)
    (rest : Bytes) :
    read (head ++ (body ++ (tail ++ rest))) =
      if verify body (Bytes.ofLittle32 tail) then
        match Batch.decode? body with
        | some batch => .ok (batch, body.length)
        | none => .error .undecodable
      else .error .checksumMismatch := by
  have hfour : ¬ (head ++ (body ++ (tail ++ rest))).length < 4 := by
    rw [List.length_append]
    omega
  have hlong : ¬ (head ++ (body ++ (tail ++ rest))).length < overhead + body.length := by
    unfold overhead
    simp only [List.length_append]
    omega
  -- The bytes are taken apart where the parts of the record meet.
  have htakeHead : (head ++ (body ++ (tail ++ rest))).take 4 = head := List.take_left' hhead
  have hdropHead : (head ++ (body ++ (tail ++ rest))).drop 4 = body ++ (tail ++ rest) :=
    List.drop_left' hhead
  have htakeBody : (body ++ (tail ++ rest)).take body.length = body := List.take_left' rfl
  have htakeTail : ((head ++ (body ++ (tail ++ rest))).drop (4 + body.length)).take 4 = tail := by
    rw [← List.drop_drop, hdropHead, List.drop_left' rfl, List.take_left' htail]
  unfold read
  simp only [if_neg hfour, htakeHead, hlength, if_neg hlong, hdropHead, htakeBody, htakeTail]
  cases verify body (Bytes.ofLittle32 tail) <;> rfl

theorem frame_append (body rest : Bytes) : frame body ++ rest =
    Bytes.little32 (UInt32.ofNat body.length)
      ++ (body ++ (Bytes.little32 (Crc32.checksum body) ++ rest)) := by
  simp only [frame, List.append_assoc]

/-- A record is read from its own bytes, whatever follows them.  Its length fits in 32 bits, or the
length that is written would be another one. -/
theorem read_frame {body : Bytes} (hfits : body.length < UInt32.size)
    (hdecode : Batch.decode? body = some batch) (rest : Bytes) :
    read (frame body ++ rest) = .ok (batch, body.length) := by
  have hlength : (Bytes.ofLittle32 (Bytes.little32 (UInt32.ofNat body.length))).toNat
      = body.length := by
    rw [Bytes.ofLittle32_little32]
    exact Nat.mod_eq_of_lt hfits
  have hverified : verify body (Crc32.checksum body) = true := decide_eq_true rfl
  rw [frame_append, read_parts (Bytes.length_little32 _) hlength (Bytes.length_little32 _),
    Bytes.ofLittle32_little32, if_pos hverified, hdecode]

/-- Bytes that hold the length they begin with are laid out like a record.  It gives the parts to
which the lemma above applies. -/
theorem exists_parts (h : overhead + (Bytes.ofLittle32 (bytes.take 4)).toNat ≤ bytes.length) :
    ∃ head body tail rest : Bytes, bytes = head ++ (body ++ (tail ++ rest)) ∧ head.length = 4
      ∧ (Bytes.ofLittle32 head).toNat = body.length ∧ tail.length = 4 := by
  unfold overhead at h
  generalize hlength : (Bytes.ofLittle32 (bytes.take 4)).toNat = length at h
  refine ⟨bytes.take 4, (bytes.drop 4).take length, ((bytes.drop 4).drop length).take 4,
    ((bytes.drop 4).drop length).drop 4, ?_, ?_, ?_, ?_⟩
  · simp only [List.take_append_drop]
  · rw [List.length_take]
    omega
  · rw [hlength, List.length_take, List.length_drop]
    omega
  · rw [List.length_take, List.length_drop, List.length_drop]
    omega

/-- A batch is read exactly where the record of a body that writes it begins.  The body itself is
found, and not only some body of the batch. -/
theorem read_eq_ok_iff {length : Nat} : read bytes = .ok (batch, length) ↔
    ∃ body rest, bytes = frame body ++ rest ∧ body.length = length
      ∧ body.length < UInt32.size ∧ Batch.decode? body = some batch := by
  constructor
  · intro h
    have hlong : overhead + (Bytes.ofLittle32 (bytes.take 4)).toNat ≤ bytes.length := by
      unfold read at h
      split at h
      · cases h
      · dsimp only at h
        split at h
        · cases h
        · next hlong => exact Nat.le_of_not_lt hlong
    obtain ⟨head, body, tail, rest, rfl, hhead, hlength, htail⟩ := exists_parts hlong
    rw [read_parts hhead hlength htail] at h
    split at h
    · next hverified =>
      split at h
      · next hdecode =>
        cases h
        have hsum : Crc32.checksum body = Bytes.ofLittle32 tail := of_decide_eq_true hverified
        refine ⟨body, rest, ?_, rfl, ?_, hdecode⟩
        · rw [frame_append, hsum, Bytes.little32_ofLittle32 htail, ← hlength,
            UInt32.ofNat_toNat, Bytes.little32_ofLittle32 hhead]
        · rw [← hlength]
          exact UInt32.toNat_lt_size _
      · cases h
    · cases h
  · rintro ⟨body, rest, rfl, rfl, hfits, hdecode⟩
    exact read_frame hfits hdecode rest

/-- The batch of a record is read, whatever follows the record.  It is half of the equivalence, in
terms of the grammar. -/
theorem IsRecord.read (h : IsRecord record batch) :
    ∃ length, record.length = overhead + length
      ∧ ∀ rest, JournalRecord.read (record ++ rest) = .ok (batch, length) := by
  obtain ⟨body, hfits, hdecode, rfl⟩ := h
  exact ⟨body.length, length_frame body, read_frame hfits hdecode⟩

/-- What is read is the batch of a record at the start, and this is the other half. -/
theorem exists_record_of_read {length : Nat} (h : read bytes = .ok (batch, length)) :
    ∃ record rest, IsRecord record batch ∧ record.length = overhead + length
      ∧ bytes = record ++ rest := by
  obtain ⟨body, rest, rfl, rfl, hfits, hdecode⟩ := read_eq_ok_iff.1 h
  exact ⟨frame body, rest, ⟨body, hfits, hdecode, rfl⟩, length_frame body, rfl⟩

/-- A record is not the beginning of another one.  Reading looks at the beginning only, and so both
have the same length. -/
theorem IsRecord.eq_of_begins {other : Bytes} {otherBatch : Batch} (h : IsRecord record batch)
    (hother : IsRecord other otherBatch) (hbegins : other <+: record) : other = record := by
  obtain ⟨rest, hrest⟩ := hbegins
  obtain ⟨length, hlength, hread⟩ := h.read
  obtain ⟨otherLength, hotherLength, hotherRead⟩ := hother.read
  have hsame := hread []
  rw [List.append_nil, ← hrest, hotherRead rest] at hsame
  cases hsame
  have heq : other.length = record.length := hotherLength.trans hlength.symm
  exact List.IsPrefix.eq_of_length ⟨rest, hrest⟩ heq

/-- The beginning of a record is a misfit.  So a journal that was cut is not read as if it had ended
there. -/
theorem IsRecord.misfit_take {length : Nat} (h : IsRecord record batch) (hpos : 0 < length)
    (hlt : length < record.length) : Misfit (record.take length) := by
  have hlength : (record.take length).length = length := List.length_take_of_le (Nat.le_of_lt hlt)
  refine ⟨List.ne_nil_of_length_pos (by omega), fun other otherBatch hother hbegins => ?_⟩
  have heq := h.eq_of_begins hother (hbegins.trans <| List.take_prefix _ _)
  have hle := hbegins.length_le
  rw [heq] at hle
  omega

/-- Nothing is read exactly where no record begins.  Damage is thus a property of the bytes, and the
reader has no say in it. -/
theorem misfit_iff : Misfit bytes ↔ bytes ≠ [] ∧ ∃ damage, read bytes = .error damage := by
  refine and_congr_right fun _ => ⟨fun h => ?_, ?_⟩
  · cases hread : read bytes with
    | error damage => exact ⟨damage, rfl⟩
    | ok found =>
      obtain ⟨record, rest, hrecord, -, hbytes⟩ := exists_record_of_read hread
      exact absurd ⟨rest, hbytes.symm⟩ (h record found.1 hrecord)
  · rintro ⟨damage, hread⟩ record batch hrecord ⟨rest, rfl⟩
    obtain ⟨length, -, hok⟩ := hrecord.read
    rw [hok rest] at hread
    cases hread

/-! ### Records in a row -/

theorem AreRecords.append (h : AreRecords bytes batches) (hmore : AreRecords rest more) :
    AreRecords (bytes ++ rest) (batches ++ more) := by
  induction h with
  | nil => exact hmore
  | cons hrecord _ ih =>
    rw [List.append_assoc]
    exact .cons hrecord ih

@[simp] theorem readAll_nil (offset : Nat) : readAll offset [] = ([], none) := by
  rw [readAll, dif_pos rfl]

theorem readAll_of_read {length : Nat} (h : read bytes = .ok (batch, length)) (offset : Nat) :
    readAll offset bytes =
      ((offset + (overhead + length), batch)
          :: (readAll (offset + (overhead + length)) (bytes.drop (overhead + length))).1,
        (readAll (offset + (overhead + length)) (bytes.drop (overhead + length))).2) := by
  have hne : bytes ≠ [] := by
    rintro rfl
    cases h
  rw [readAll, dif_neg hne, h]

theorem readAll_of_error {damage : Damage} (hne : bytes ≠ []) (h : read bytes = .error damage)
    (offset : Nat) : readAll offset bytes = ([], some (.damaged damage offset)) := by
  rw [readAll, dif_neg hne, h]

/-- Records are read as their batches, and what follows them is read from the offset after them.
The induction is on the records; the rest may be anything. -/
theorem AreRecords.readAll_append (h : AreRecords bytes batches) (offset : Nat) (rest : Bytes) :
    (readAll offset (bytes ++ rest)).1.map Prod.snd
        = batches ++ (readAll (offset + bytes.length) rest).1.map Prod.snd
      ∧ (readAll offset (bytes ++ rest)).2 = (readAll (offset + bytes.length) rest).2 := by
  induction h generalizing offset with
  | nil => exact ⟨rfl, rfl⟩
  | @cons record behind batch batches hrecord _ ih =>
    obtain ⟨length, hlength, hread⟩ := hrecord.read
    have hend : offset + (overhead + length) + behind.length
        = offset + (record ++ behind).length := by
      rw [List.length_append, hlength]
      omega
    have hrest := ih (offset + (overhead + length))
    rw [hend] at hrest
    rw [List.append_assoc, readAll_of_read (hread _), List.drop_left' hlength]
    exact ⟨congrArg (batch :: ·) hrest.1, hrest.2⟩

/-- Records are read as their batches, and nothing is left. -/
theorem AreRecords.readAll (h : AreRecords bytes batches) (offset : Nat) :
    (readAll offset bytes).1.map Prod.snd = batches ∧ (readAll offset bytes).2 = none := by
  simpa using h.readAll_append offset []

/-- Byte strings consist of records, up to a misfit if there is one.  The induction is on the
length, since a record leaves fewer bytes. -/
theorem exists_records (bytes : Bytes) :
    ∃ front rest batches, bytes = front ++ rest ∧ AreRecords front batches
      ∧ (rest = [] ∨ Misfit rest) := by
  -- Every record leaves fewer bytes than there were.
  induction hcount : bytes.length using Nat.strongRecOn generalizing bytes with
  | ind count ih =>
    by_cases hne : bytes = []
    · exact ⟨[], bytes, [], rfl, .nil, .inl hne⟩
    · cases hread : read bytes with
      | error damage => exact ⟨[], bytes, [], rfl, .nil, .inr (misfit_iff.2 ⟨hne, damage, hread⟩)⟩
      | ok found =>
        obtain ⟨record, behind, hrecord, hlength, rfl⟩ := exists_record_of_read hread
        rw [List.length_append, hlength, overhead] at hcount
        obtain ⟨front, rest, batches, rfl, hrecords, hrest⟩ := ih _ (by omega) behind rfl
        exact ⟨record ++ front, rest, _, (List.append_assoc ..).symm, .cons hrecord hrecords, hrest⟩

end BlogLedger.JournalRecord
