import BlogLedger.Proofs.Journal.Grammar
import BlogLedger.Proofs.KeySpace.Batch

/-!
# Records that are replayed

A journal that consists of records is read back record by record, and replaying it makes their
batches part of a key space in the order in which they were written.  Anything else is damage, and
the replay stops where it begins.

A replay reads a journal to its end or to the first damage, and makes each batch on the way.  What
it makes is therefore a function of the batches that were read.  Three relations are used for it:
bytes that are records, bytes that are replayed in full, and bytes where the replay stops.  The
first two are equivalent, and each byte string is covered by the first or the third one.

## Main Definitions

* `JournalRecord.IsReplay` — a byte string is replayed in full.
* `JournalRecord.StopsAt` — damage at an offset ends the replay after the batches before it.
* `JournalRecord.Fits` — a batch has a record.
* `JournalRecord.inRow` — the records of batches in a row.
* `JournalRecord.applyAll` — a key space after batches in a row.

## Main Results

* `JournalRecord.areRecords_inRow` — what is written is of the form that is read.
* `JournalRecord.isReplay_iff_records` — records in a row are replayed in full, and nothing else is.
* `JournalRecord.IsReplay.append` — records at the end of a journal are replayed after the others.
* `JournalRecord.AreRecords.stopsAt` — damage stops the replay after the records before it.
* `JournalRecord.accepts_grammar` — the replay accepts the grammar and nothing else.
-/

namespace BlogLedger.JournalRecord

/-- The body of the record of a batch has a length that fits in 32 bits.  No other batch can be
written. -/
def Fits (batch : Batch) : Prop := batch.encode.length < UInt32.size

/-- The records of batches in a row, each written in the way in which a journal writes it. -/
def inRow (batches : List Batch) : Bytes := batches.flatMap fun batch => frame batch.encode

/-- Make batches part of a key space, one after the other.  Later batches may overwrite what earlier
ones have set. -/
def applyAll (batches : List Batch) (s : KeySpace) : KeySpace :=
  batches.foldl (fun s batch => batch.apply s) s

/-- A byte string is replayed in full: it holds so many records, and they lead from one key space to
another one.  It says what is left of a replay that succeeds. -/
def IsReplay (bytes : Bytes) (count : Nat) (s t : KeySpace) : Prop := replay bytes s = (.ok count, t)

/-- The replay stops with a report of damage at an offset, after the given batches and no others.
The batches before the damage have been made by then. -/
structure StopsAt (bytes : Bytes) (s : KeySpace) (batches : List Batch) (offset : Nat)
    (fault : StorageFault) : Prop where
  result : replay bytes s = (.error fault, applyAll batches s)
  code : fault.code = "QUILL_DATA_CORRUPTION"
  details : fault.details = some ("byte_offset: " ++ toString offset)

variable {batch : Batch} {batches : List Batch} {bytes rest : Bytes} {s t : KeySpace} {count : Nat}

/-! ### Written records -/

theorem encode_of_fits (h : Fits batch) : encode batch = .ok (frame batch.encode) := if_pos h

theorem encode_of_not_fits (h : ¬ Fits batch) : encode batch = .error .oversized := if_neg h

@[simp] theorem inRow_nil : inRow [] = [] := rfl

theorem inRow_singleton (batch : Batch) : inRow [batch] = frame batch.encode :=
  List.flatMap_singleton _ _

theorem inRow_cons (batch : Batch) (batches : List Batch) :
    inRow (batch :: batches) = frame batch.encode ++ inRow batches :=
  List.flatMap_cons

theorem inRow_append (first second : List Batch) :
    inRow (first ++ second) = inRow first ++ inRow second :=
  List.flatMap_append

theorem applyAll_append (first second : List Batch) (s : KeySpace) :
    applyAll (first ++ second) s = applyAll second (applyAll first s) :=
  List.foldl_append

/-- What is written for a batch is a record of it.  The encoding of a batch reads back, and its
checksum is its own. -/
theorem isRecord_frame (h : Fits batch) : IsRecord (frame batch.encode) batch :=
  ⟨batch.encode, h, Batch.decode?_encode batch, rfl⟩

/-- What is written for batches in a row are records of them.  From here on it does not matter how
they came to be written. -/
theorem areRecords_inRow (h : ∀ batch ∈ batches, Fits batch) : AreRecords (inRow batches) batches := by
  induction batches with
  | nil => exact .nil
  | cons batch rest ih =>
    obtain ⟨hbatch, hrest⟩ := List.forall_mem_cons.1 h
    rw [inRow_cons]
    exact .cons (isRecord_frame hbatch) (ih hrest)

/-! ### The replay -/

/-- The replay makes the batches that were read, and fails if something was left.  It is the
definition of the replay, with the number of batches that it counts. -/
theorem replay_eq (hbatches : (readAll 0 bytes).1.map Prod.snd = batches) (s : KeySpace) :
    replay bytes s =
      (match (readAll 0 bytes).2 with
        | none => .ok batches.length
        | some fault => .error fault, applyAll batches s) := by
  unfold replay applyAll
  rw [← hbatches, List.foldl_map, List.length_map]
  cases hstop : (readAll 0 bytes).2 <;> simp only [hstop]

/-- Records in a row are replayed in full.  The key space that it starts from can be any. -/
theorem AreRecords.isReplay (h : AreRecords bytes batches) (s : KeySpace) :
    IsReplay bytes batches.length s (applyAll batches s) := by
  obtain ⟨hbatches, hnone⟩ := h.readAll 0
  rw [IsReplay, replay_eq hbatches, hnone]

/-- Nothing is replayed from no bytes.  It is where every journal begins. -/
theorem IsReplay.nil (s : KeySpace) : IsReplay [] 0 s s := AreRecords.nil.isReplay s

/-- Damage behind records stops the replay after them.  The offset of the damage is the length of
the records. -/
theorem AreRecords.stopsAt {damage : Damage} (h : AreRecords bytes batches) (hne : rest ≠ [])
    (hread : read rest = .error damage) (s : KeySpace) :
    StopsAt (bytes ++ rest) s batches bytes.length (.damaged damage bytes.length) := by
  obtain ⟨hbatches, hstop⟩ := h.readAll_append 0 rest
  rw [Nat.zero_add, readAll_of_error hne hread] at hbatches hstop
  rw [List.map_nil, List.append_nil] at hbatches
  exact ⟨by rw [replay_eq hbatches, hstop], rfl, rfl⟩

theorem StopsAt.not_isReplay {offset : Nat} {fault : StorageFault}
    (h : StopsAt bytes s batches offset fault) : ¬ IsReplay bytes count s t := by
  intro hreplay
  unfold IsReplay at hreplay
  rw [h.result] at hreplay
  cases hreplay

/-- A byte string is replayed in full, or the replay stops where the first record is missing.  There
is no third case, and the replay always ends. -/
theorem replay_cases (bytes : Bytes) (s : KeySpace) :
    (∃ batches, AreRecords bytes batches) ∨
      ∃ front rest batches fault, bytes = front ++ rest ∧ AreRecords front batches ∧ Misfit rest
        ∧ StopsAt bytes s batches front.length fault := by
  obtain ⟨front, rest, batches, rfl, hrecords, rfl | hmisfit⟩ := exists_records bytes
  · exact .inl ⟨batches, by rwa [List.append_nil]⟩
  · obtain ⟨hne, damage, hread⟩ := misfit_iff.1 hmisfit
    exact .inr ⟨front, rest, batches, _, rfl, hrecords, hmisfit, hrecords.stopsAt hne hread s⟩

/-- Records in a row are replayed in full, and nothing else is.  For any other byte string the
replay stops, and it cannot do both. -/
theorem isReplay_iff_records : IsReplay bytes count s t ↔
    ∃ batches, AreRecords bytes batches ∧ batches.length = count ∧ applyAll batches s = t := by
  constructor
  · intro h
    rcases replay_cases bytes s with ⟨batches, hrecords⟩ | ⟨_, _, _, _, -, -, -, hstops⟩
    · have hall := hrecords.isReplay s
      unfold IsReplay at h hall
      rw [h] at hall
      cases hall
      exact ⟨batches, hrecords, rfl, rfl⟩
    · exact absurd h hstops.not_isReplay
  · rintro ⟨batches, hrecords, rfl, rfl⟩
    exact hrecords.isReplay s

/-- Records at the end of a journal are replayed after the others.  Each commit adds one, and this
is how a journal keeps saying what its ledger holds. -/
theorem IsReplay.append (h : IsReplay bytes count s t) (hfits : ∀ batch ∈ batches, Fits batch) :
    IsReplay (bytes ++ inRow batches) (count + batches.length) s (applyAll batches t) := by
  obtain ⟨before, hbefore, rfl, rfl⟩ := isReplay_iff_records.1 h
  rw [← List.length_append, ← applyAll_append]
  exact (hbefore.append (areRecords_inRow hfits)).isReplay s

/-- The replay accepts the grammar and nothing else.  It goes through exactly when the bytes are
records in a row, and then makes all of their batches; otherwise it makes the batches of the records
that the bytes begin with, and reports damage where the first record is missing. -/
theorem accepts_grammar (bytes : Bytes) (s : KeySpace) :
    (∀ count t, IsReplay bytes count s t ↔
        ∃ batches, AreRecords bytes batches ∧ batches.length = count ∧ applyAll batches s = t)
      ∧ ((¬ ∃ batches, AreRecords bytes batches) ↔
        ∃ front rest batches fault, bytes = front ++ rest ∧ AreRecords front batches ∧ Misfit rest
          ∧ StopsAt bytes s batches front.length fault) := by
  refine ⟨fun count t => isReplay_iff_records, (replay_cases bytes s).resolve_left, ?_⟩
  rintro ⟨front, rest, batches, fault, -, -, -, hstops⟩ ⟨all, hall⟩
  exact hstops.not_isReplay (hall.isReplay s)

end BlogLedger.JournalRecord
