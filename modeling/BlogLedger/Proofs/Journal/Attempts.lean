import BlogLedger.Journal
import BlogLedger.Proofs.Journal.Replay

/-!
# Attempts to write

Every operation on the file of a journal may fail, each time that a batch is to be written.  What was
acknowledged is in the file then, in order, and the journal counts nothing else.  Behind that there
may be the rest of a write that failed, and then the journal takes no more batches.

The conditions of a file are given anew for every attempt, and nothing is assumed about them: bytes
may be added in part, may not be made safe, and what was added may not be removable.  So the
invariant cannot say that the file is what the journal thinks it is.  It says that the file begins
with it.  What lies behind can only be there if the journal has stopped, and this is why it must
stop.

## Main Definitions

* `Journal.Attempt` — a batch that is to be written, and the conditions meanwhile.
* `Journal.after` — the journal after attempts.
* `Journal.acknowledged` — the batches that attempts have written.
* `Journal.Keeps` — a journal that counts the given bytes and no others.
* `Journal.KeepsAcknowledged` — what is certain of a journal after attempts.
* `Journal.Whole` — a journal that counts all of its file, which can be cut back.

## Main Results

* `Journal.writeRecord_cases` — a write leaves a beginning of the record, all of it if it succeeds.
* `Journal.append_cases` — what one append can do.
* `Journal.keeps_discardTail` — cutting back keeps what the journal counts.
* `Journal.Keeps.attempt`, `Journal.Keeps.after` — so do an attempt and attempts in a row.
* `Journal.Keeps.acknowledged` — attempts keep what they acknowledge, whatever fails.
* `Journal.Whole.append` — where the file can be cut back, nothing is left of a write that fails.

## Design Notes

A cut that fails leaves the file as it is.  Whether a cut that went through is safe is not known when
waiting for it fails; the journal takes no more batches in that case too.
-/

namespace BlogLedger.Journal

open JournalRecord (Fits IsReplay applyAll frame inRow)

/-! ### Definitions -/

/-- A batch that is to be written, and the conditions the file works under meanwhile.  The
conditions hold for all that the attempt does, cutting back included. -/
structure Attempt where
  conditions : Conditions
  batch : Batch

/-- The same journal, while its file works under other conditions.  Its bytes are not touched. -/
def under (c : Conditions) (j : Journal) : Journal :=
  { j with file := { j.file with conditions := c } }

/-- What an attempt answers, and the journal after it.  The answer is the offset of the record. -/
def attempt (a : Attempt) (j : Journal) : Except StorageFault Nat × Journal :=
  (j.under a.conditions).append a.batch

/-- The journal after attempts, one after the other. -/
def after (attempts : List Attempt) (j : Journal) : Journal :=
  attempts.foldl (fun j a => (j.attempt a).2) j

/-- What an attempt has written: its batch, unless that is empty or the attempt failed.  An empty
batch is acknowledged and has no record. -/
def taken (a : Attempt) (j : Journal) : List Batch :=
  match (j.attempt a).1 with
  | .ok _ => if a.batch.isEmpty then [] else [a.batch]
  | .error _ => []

/-- What attempts have written, in order.  It goes by the answers, as these are all that a caller
knows. -/
def acknowledged : List Attempt → Journal → List Batch
  | [], _ => []
  | a :: attempts, j => j.taken a ++ acknowledged attempts (j.attempt a).2

/-- The file starts with the given bytes, which are all that the journal counts, and more is in the
file only if the journal takes no more batches.  This is the invariant of attempts. -/
structure Keeps (j : Journal) (bytes : Bytes) : Prop where
  offset_eq : j.offset = bytes.length
  starts : bytes <+: j.file.bytes
  whole : j.poisoned = false → j.file.bytes = bytes

/-- What is certain of a journal on a file with initial bytes, after attempts that may have failed in
any way: the file holds what was acknowledged, and nothing else lies there unless the journal takes no
more batches.  A batch without a record is refused and leaves everything as it is. -/
structure KeepsAcknowledged (j : Journal) (initial : Bytes) (attempts : List Attempt) : Prop where
  encoded : ∀ batch ∈ j.acknowledged attempts,
    batch ≠ [] ∧ JournalRecord.encode batch = .ok (frame batch.encode)
  counted : (j.after attempts).file.bytes.take (j.after attempts).offset
    = initial ++ inRow (j.acknowledged attempts)
  offset_eq : (j.after attempts).offset = (initial ++ inRow (j.acknowledged attempts)).length
  whole : (j.after attempts).poisoned = false →
    (j.after attempts).file.bytes = initial ++ inRow (j.acknowledged attempts)
  refuses : (j.after attempts).poisoned = true → ∀ more,
    (j.after (attempts ++ more)).file.bytes = (j.after attempts).file.bytes
      ∧ (j.after (attempts ++ more)).poisoned = true
      ∧ ∀ a : Attempt, a.batch ≠ [] →
        ((j.after (attempts ++ more)).attempt a).1 = .error .refused
  unencodable : ∀ (a : Attempt) (fault : StorageFault), a.batch ≠ [] →
    JournalRecord.encode a.batch = .error fault →
      (∃ fault, ((j.after attempts).attempt a).1 = .error fault)
        ∧ ((j.after attempts).attempt a).2 = (j.after attempts).under a.conditions
  replayed : (j.after attempts).poisoned = false → ∀ count s t, IsReplay initial count s t →
    IsReplay (j.after attempts).file.bytes (count + (j.acknowledged attempts).length) s
      (applyAll (j.acknowledged attempts) t)

/-- The journal lies at a path and counts the given bytes, and its file holds nothing else and can be
cut back. -/
structure Whole (j : Journal) (path : String) (bytes : Bytes) : Prop where
  path_eq : j.path = path
  bytes_eq : j.file.bytes = bytes
  offset_eq : j.offset = bytes.length
  canCut : j.file.conditions.canCut = true

variable {j : Journal} {path : String} {bytes record : Bytes} {batch : Batch} {a : Attempt}
  {attempts : List Attempt}

/-! ### One append -/

/-- Bytes are added in full, or a beginning of them is and the addition fails.  The beginning may be
all of them, when the addition is not confirmed. -/
theorem file_append_cases (added : Bytes) (f : File) :
    f.append added = (true, { f with bytes := f.bytes ++ added })
      ∨ ∃ count, f.append added = (false, { f with bytes := f.bytes ++ added.take count }) := by
  by_cases hroom : f.room added.length = added.length
  · cases hconfirms : f.conditions.confirms with
    | false => exact .inr ⟨added.length, by simp [File.append, hroom, hconfirms]⟩
    | true => exact .inl (by simp [File.append, hroom, hconfirms])
  · exact .inr ⟨f.room added.length, by simp [File.append, hroom]⟩

/-- A file that is long enough is cut back, or stays as it is.  A cut never makes a file longer
here, as it goes back to an offset that was counted. -/
theorem file_cut {f : File} {size : Nat} (h : size ≤ f.size) :
    f.cut size = if f.conditions.canCut then (true, { f with bytes := f.bytes.take size })
      else (false, f) := by
  have hlong : ¬ f.size < size := by omega
  have hnone : size - f.size = 0 := by omega
  cases hcan : f.conditions.canCut <;> simp [File.cut, hcan, hlong, hnone]

/-- The journal with bytes added to its file.  Nothing else of it is changed, not even what it
counts. -/
def wrote (added : Bytes) (j : Journal) : Journal :=
  { j with file := { j.file with bytes := j.file.bytes ++ added } }

/-- A write leaves a beginning of the record, and all of it if it succeeds.  The rest of the module
need not know in which of several ways a write can fail. -/
theorem writeRecord_cases (record : Bytes) (j : Journal) :
    j.writeRecord record = (.ok (), j.wrote record)
      ∨ ∃ fault count, j.writeRecord record = (.error fault, j.wrote (record.take count)) := by
  unfold writeRecord
  rcases file_append_cases record j.file with happend | ⟨count, happend⟩
  · rw [happend]
    dsimp only
    split
    · next h => cases h
    · split
      · refine .inr ⟨.syncFailed, record.length, ?_⟩
        rw [List.take_length]
        rfl
      · exact .inl rfl
  · rw [happend]
    exact .inr ⟨.appendFailed, count, rfl⟩

/-- Cutting back keeps what the journal counts.  If it goes through, nothing else is left in the
file; if not, the journal is marked as one that takes no more batches, and the last part of the
invariant asks for nothing. -/
theorem keeps_discardTail (hoffset : j.offset = bytes.length) (hstarts : bytes <+: j.file.bytes) :
    j.discardTail.Keeps bytes := by
  have hsize : j.offset ≤ j.file.size := hoffset ▸ hstarts.length_le
  have hcounted : j.file.bytes.take j.offset = bytes := by
    rw [hoffset]
    exact (List.prefix_iff_eq_take.1 hstarts).symm
  unfold discardTail
  rw [file_cut hsize, hcounted]
  cases j.file.conditions.canCut with
  | false => exact ⟨hoffset, hstarts, fun h => by simp at h⟩
  | true => exact ⟨hoffset, List.prefix_refl bytes, fun _ => rfl⟩

theorem append_nil (j : Journal) : j.append [] = (.ok j.offset, j) := rfl

theorem append_of_poisoned (hpoisoned : j.poisoned = true) (hne : batch ≠ []) :
    j.append batch = (.error .refused, j) := by
  unfold Journal.append
  rw [if_neg (by simpa using hne), if_pos hpoisoned]

/-- A batch without a record changes nothing.  It is refused before the file is touched. -/
theorem append_of_encode_error {fault : StorageFault}
    (hencode : JournalRecord.encode batch = .error fault) (hne : batch ≠ []) :
    (∃ fault, (j.append batch).1 = .error fault) ∧ (j.append batch).2 = j := by
  unfold Journal.append
  rw [if_neg (by simpa using hne), hencode]
  split
  · exact ⟨⟨_, rfl⟩, rfl⟩
  · exact ⟨⟨_, rfl⟩, rfl⟩

/-- A batch is refused before the file is touched, or its record is written, or what was written of
it is cut off again.  Three cases are all that an append can do, and each invariant is checked
against them. -/
theorem append_cases (hne : batch ≠ []) (j : Journal) :
    (∃ fault, j.append batch = (.error fault, j))
      ∨ (Fits batch ∧ j.poisoned = false ∧ j.append batch
          = (.ok j.offset, { j.wrote (frame batch.encode) with
              offset := j.offset + (frame batch.encode).length, records := j.records + 1 }))
      ∨ (j.poisoned = false ∧ ∃ fault count, j.append batch
          = (.error fault, (j.wrote ((frame batch.encode).take count)).discardTail)) := by
  cases hpoisoned : j.poisoned with
  | true => exact .inl ⟨_, append_of_poisoned hpoisoned hne⟩
  | false =>
    by_cases hfits : Fits batch
    · unfold Journal.append
      rw [if_neg (by simpa using hne), if_neg (by simpa using hpoisoned),
        JournalRecord.encode_of_fits hfits]
      dsimp only
      rcases writeRecord_cases (frame batch.encode) j with hwrite | ⟨fault, count, hwrite⟩
      · rw [hwrite]
        exact .inr (.inl ⟨hfits, rfl, rfl⟩)
      · rw [hwrite]
        exact .inr (.inr ⟨rfl, fault, count, rfl⟩)
    · obtain ⟨⟨fault, herror⟩, hsame⟩ := append_of_encode_error (j := j)
        (JournalRecord.encode_of_not_fits hfits) hne
      exact .inl ⟨fault, Prod.ext herror hsame⟩

/-- A batch is written, or the journal keeps what it had.  The bytes that are kept grow by one
record, or stay. -/
theorem Keeps.append (h : j.Keeps bytes) (hne : batch ≠ []) :
    (Fits batch ∧ (j.append batch).1 = .ok j.offset
        ∧ (j.append batch).2.Keeps (bytes ++ frame batch.encode))
      ∨ ((∃ fault, (j.append batch).1 = .error fault) ∧ (j.append batch).2.Keeps bytes) := by
  rcases append_cases hne j with ⟨fault, happend⟩ | ⟨hfits, hintact, happend⟩
    | ⟨hintact, fault, count, happend⟩
  · rw [happend]
    exact .inr ⟨⟨fault, rfl⟩, h⟩
  · have hbytes : (j.wrote (frame batch.encode)).file.bytes = bytes ++ frame batch.encode :=
      congrArg (· ++ _) (h.whole hintact)
    rw [happend]
    refine .inl ⟨hfits, rfl, ?_, ?_, fun _ => hbytes⟩
    · rw [List.length_append, ← h.offset_eq]
    · exact hbytes ▸ List.prefix_refl _
  · -- What was left of the record lies behind all that the journal counts.
    rw [happend]
    refine .inr ⟨⟨fault, rfl⟩, keeps_discardTail h.offset_eq ?_⟩
    exact h.whole hintact ▸ List.prefix_append _ _

/-! ### One attempt -/

theorem taken_of_nil (hnil : a.batch = []) : j.taken a = [] := by
  unfold taken
  split
  · rw [if_pos (by simpa using hnil)]
  · rfl

theorem taken_of_error {fault : StorageFault} (h : (j.attempt a).1 = .error fault) :
    j.taken a = [] := by
  unfold taken
  rw [h]

theorem taken_of_ok {offset : Nat} (h : (j.attempt a).1 = .ok offset) (hne : a.batch ≠ []) :
    j.taken a = [a.batch] := by
  unfold taken
  rw [h]
  exact if_neg (by simpa using hne)

/-- A journal that takes no more batches refuses everything that would be written.  An empty batch
is still acknowledged. -/
theorem attempt_refused (hpoisoned : j.poisoned = true) (hne : a.batch ≠ []) :
    j.attempt a = (.error .refused, j.under a.conditions) :=
  append_of_poisoned (j := j.under a.conditions) hpoisoned hne

/-- The conditions do not matter for what a journal keeps.  They decide what happens next, and not
what is there. -/
theorem Keeps.under (h : j.Keeps bytes) (c : Conditions) : (j.under c).Keeps bytes :=
  ⟨h.offset_eq, h.starts, h.whole⟩

/-- An attempt writes its batch, or the journal keeps what it had.  With it what was acknowledged
and what is in the file are seen to grow together. -/
theorem Keeps.attempt_cases (h : j.Keeps bytes) (a : Attempt) :
    a.batch ≠ [] ∧ Fits a.batch ∧ j.taken a = [a.batch]
        ∧ (j.attempt a).2.Keeps (bytes ++ frame a.batch.encode)
      ∨ j.taken a = [] ∧ (j.attempt a).2.Keeps bytes := by
  have hunder := h.under a.conditions
  by_cases hne : a.batch = []
  · refine .inr ⟨taken_of_nil hne, ?_⟩
    rw [attempt, hne, append_nil]
    exact hunder
  · rcases hunder.append hne with ⟨hfits, hok, hkeeps⟩ | ⟨⟨fault, herror⟩, hkeeps⟩
    · exact .inl ⟨hne, hfits, taken_of_ok hok hne, hkeeps⟩
    · exact .inr ⟨taken_of_error herror, hkeeps⟩

/-- After an attempt the journal keeps what it had and what the attempt has written.  It is the step
of the induction on attempts. -/
theorem Keeps.attempt (h : j.Keeps bytes) (a : Attempt) :
    (j.attempt a).2.Keeps (bytes ++ inRow (j.taken a)) := by
  rcases h.attempt_cases a with ⟨-, -, htaken, hkeeps⟩ | ⟨htaken, hkeeps⟩
  · rw [htaken, JournalRecord.inRow_singleton]
    exact hkeeps
  · rw [htaken, JournalRecord.inRow_nil, List.append_nil]
    exact hkeeps

/-- What an attempt has written is a batch that has a record.  So it can be read back. -/
theorem Keeps.mem_taken (h : j.Keeps bytes) (hmem : batch ∈ j.taken a) :
    batch ≠ [] ∧ Fits batch := by
  rcases h.attempt_cases a with ⟨hne, hfits, htaken, -⟩ | ⟨htaken, -⟩
  · rw [htaken, List.mem_singleton] at hmem
    exact hmem ▸ ⟨hne, hfits⟩
  · rw [htaken] at hmem
    cases hmem

/-- A journal that takes no more batches stays as it is, whatever is attempted.  Only the conditions
of its file change. -/
theorem attempt_of_poisoned (hpoisoned : j.poisoned = true) (a : Attempt) :
    (j.attempt a).2 = j.under a.conditions := by
  by_cases hne : a.batch = []
  · rw [attempt, hne, append_nil]
  · rw [attempt_refused hpoisoned hne]

/-! ### Attempts in a row -/

theorem after_append (attempts more : List Attempt) (j : Journal) :
    j.after (attempts ++ more) = (j.after attempts).after more :=
  List.foldl_append

/-- After attempts the journal keeps what it had and what they acknowledged.  The induction is on
the attempts, each from the journal that the one before has left. -/
theorem Keeps.after (h : j.Keeps bytes) (attempts : List Attempt) :
    (j.after attempts).Keeps (bytes ++ inRow (j.acknowledged attempts)) := by
  induction attempts generalizing j bytes with
  | nil =>
    rw [acknowledged, JournalRecord.inRow_nil, List.append_nil]
    exact h
  | cons a attempts ih =>
    rw [acknowledged, JournalRecord.inRow_append, ← List.append_assoc]
    exact ih (h.attempt a)

/-- What attempts acknowledge are batches that have records, which is what the replay of them asks
for. -/
theorem Keeps.mem_acknowledged (h : j.Keeps bytes) (hmem : batch ∈ j.acknowledged attempts) :
    batch ≠ [] ∧ Fits batch := by
  induction attempts generalizing j bytes with
  | nil => cases hmem
  | cons a attempts ih =>
    rcases List.mem_append.1 hmem with htaken | hlater
    · exact h.mem_taken htaken
    · exact ih (h.attempt a) hlater

/-- A journal that takes no more batches never does again, and writes nothing.  So what is left of a
write that failed is never followed by another record. -/
theorem after_of_poisoned (hpoisoned : j.poisoned = true) (attempts : List Attempt) :
    (j.after attempts).file.bytes = j.file.bytes ∧ (j.after attempts).poisoned = true := by
  induction attempts generalizing j with
  | nil => exact ⟨rfl, hpoisoned⟩
  | cons a attempts ih =>
    have hstep : j.after (a :: attempts) = (j.under a.conditions).after attempts := by
      rw [← attempt_of_poisoned hpoisoned]
      rfl
    rw [hstep]
    exact ih hpoisoned

/-- A journal that was opened keeps all of its file.  Whether the bytes are records is not asked
here. -/
theorem keeps_ofFile (path : String) (file : File) (syncs : Bool) :
    (ofFile path file syncs).Keeps file.bytes :=
  ⟨rfl, List.prefix_refl _, fun _ => rfl⟩

/-- Attempts keep what they acknowledge, whatever fails.  Each part is read off the invariant, but
for the replay: records that were added to a journal are replayed after the others. -/
theorem Keeps.acknowledged (h : j.Keeps bytes) (attempts : List Attempt) :
    j.KeepsAcknowledged bytes attempts where
  encoded batch hmem :=
    ⟨(h.mem_acknowledged hmem).1, JournalRecord.encode_of_fits (h.mem_acknowledged hmem).2⟩
  counted := by
    rw [(h.after attempts).offset_eq]
    exact (List.prefix_iff_eq_take.1 (h.after attempts).starts).symm
  offset_eq := (h.after attempts).offset_eq
  whole := (h.after attempts).whole
  refuses hpoisoned more := by
    obtain ⟨hbytes, hstill⟩ := after_of_poisoned hpoisoned more
    rw [after_append]
    exact ⟨hbytes, hstill, fun a hne => congrArg Prod.fst (attempt_refused hstill hne)⟩
  unencodable a fault hne hencode := append_of_encode_error hencode hne
  replayed hintact count s t hreplay := by
    rw [(h.after attempts).whole hintact]
    exact hreplay.append fun batch hmem => (h.mem_acknowledged hmem).2

/-! ### Files that can be cut back -/

theorem whole_ofFile (path : String) (syncs : Bool) {file : File}
    (hcut : file.conditions.canCut = true) : (ofFile path file syncs).Whole path file.bytes :=
  ⟨rfl, rfl, rfl, hcut⟩

namespace Whole

theorem under (h : j.Whole path bytes) {c : Conditions} (hcut : c.canCut = true) :
    (j.under c).Whole path bytes :=
  ⟨h.path_eq, h.bytes_eq, h.offset_eq, hcut⟩

/-- Cutting back takes away what is left of a write.  It holds also if waiting for the cut fails,
since the bytes are gone then as well. -/
theorem discardTail (h : j.Whole path bytes) (added : Bytes) :
    (j.wrote added).discardTail.Whole path bytes := by
  have hsize : j.offset ≤ (j.wrote added).file.size := by
    show j.offset ≤ (j.file.bytes ++ added).length
    rw [h.offset_eq, h.bytes_eq, List.length_append]
    exact Nat.le_add_right _ _
  have hcounted : (j.file.bytes ++ added).take j.offset = bytes := by
    rw [h.offset_eq, h.bytes_eq, List.take_left]
  have hdone : (j.wrote added).file.cut (j.wrote added).offset
      = (true, { j.file with bytes := (j.file.bytes ++ added).take j.offset }) :=
    (file_cut hsize).trans (if_pos h.canCut)
  unfold Journal.discardTail
  rw [hdone]
  exact ⟨h.path_eq, hcounted, h.offset_eq, h.canCut⟩

/-- An append adds one record, or it fails and adds nothing.  Here the file is known to the last
byte in both cases. -/
theorem append (h : j.Whole path bytes) (hne : batch ≠ []) :
    (Fits batch ∧ (∃ offset, (j.append batch).1 = .ok offset)
        ∧ (j.append batch).2.Whole path (bytes ++ frame batch.encode))
      ∨ ((∃ fault, (j.append batch).1 = .error fault) ∧ (j.append batch).2.Whole path bytes) := by
  rcases append_cases hne j with ⟨fault, happend⟩ | ⟨hfits, -, happend⟩ | ⟨-, fault, count, happend⟩
  · rw [happend]
    exact .inr ⟨⟨fault, rfl⟩, h⟩
  · rw [happend]
    refine .inl ⟨hfits, ⟨_, rfl⟩, h.path_eq, congrArg (· ++ _) h.bytes_eq, ?_, h.canCut⟩
    rw [List.length_append, ← h.offset_eq]
  · rw [happend]
    exact .inr ⟨⟨fault, rfl⟩, h.discardTail _⟩

end Whole

end BlogLedger.Journal
