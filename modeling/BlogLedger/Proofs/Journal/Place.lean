import BlogLedger.Journal.Place
import BlogLedger.Proofs.Disk
import BlogLedger.Proofs.Journal.Replay

/-!
# Journals on a disk

A journal that was opened is found again, and a journal whose file is in good condition takes every
record that there is.

Opening a journal makes its directory and its file if they are missing, and the disk is another one
afterwards.  Three things have to be kept apart: the journal in memory, its file, and the place of
the file on the disk.  The path of the journal may go through links to parents, so it is not enough
to compare paths; what is shown is that the path leads to the file, before and after.

## Main Definitions

* `Journal.Ends` — a journal whose file is in good condition ends after its last record.
* `Journal.LiesIn` — the file of the journal lies on a disk.

## Main Results

* `Journal.Ends.append` — a batch is written as one record, unless it has none.
* `Journal.openIn_ok` — a journal that was opened lies on the disk.
* `Journal.LiesIn.openIn` — a journal that lies on the disk can be opened again.
-/

namespace BlogLedger.Journal

open JournalRecord (Fits frame)

variable {dataDir path : String} {syncs : Bool} {bytes : Bytes} {batch : Batch} {j : Journal}
  {d e : Disk} {file : File}

/-! ### Writing -/

/-- The file of a journal is in good condition and ends after the last record.  It is the state in
which a journal is while nothing fails. -/
structure Ends (j : Journal) (path : String) (syncs : Bool) (bytes : Bytes) : Prop where
  path_eq : j.path = path
  syncs_eq : j.syncs = syncs
  file_eq : j.file = ⟨bytes, .good⟩
  offset_eq : j.offset = bytes.length
  intact : j.poisoned = false

theorem ends_ofFile (path : String) (syncs : Bool) (bytes : Bytes) :
    (ofFile path ⟨bytes, .good⟩ syncs).Ends path syncs bytes :=
  ⟨rfl, rfl, rfl, rfl, rfl⟩

/-- A file in good condition takes all bytes, and they can be made safe. -/
theorem writeRecord_good (hfile : j.file = ⟨bytes, .good⟩) (record : Bytes) :
    j.writeRecord record = (.ok (), { j with file := ⟨bytes ++ record, .good⟩ }) := by
  have happend : j.file.append record = (true, ⟨bytes ++ record, .good⟩) := by
    rw [hfile]
    simp [File.append, File.room, Conditions.good]
  unfold writeRecord
  rw [happend]
  simp [File.sync, Conditions.good]

/-- A batch is written as one record; only a batch that has no record is refused, and then nothing
is written.  A journal in this state stays in it. -/
theorem Ends.append (h : j.Ends path syncs bytes) (hne : batch ≠ []) :
    Fits batch ∧ (∃ offset, (j.append batch).1 = .ok offset)
        ∧ (j.append batch).2.Ends path syncs (bytes ++ frame batch.encode)
      ∨ ¬ Fits batch ∧ j.append batch = (.error .oversized, j) := by
  have hempty : ¬ batch.isEmpty = true := by simpa using hne
  have hintact : ¬ j.poisoned = true := by simp [h.intact]
  unfold Journal.append
  rw [if_neg hempty, if_neg hintact]
  by_cases hfits : Fits batch
  · rw [JournalRecord.encode_of_fits hfits]
    dsimp only
    rw [writeRecord_good h.file_eq]
    refine .inl ⟨hfits, ⟨_, rfl⟩, h.path_eq, h.syncs_eq, rfl, ?_, h.intact⟩
    rw [List.length_append, ← h.offset_eq]
  · rw [JournalRecord.encode_of_not_fits hfits]
    exact .inr ⟨hfits, rfl⟩

/-! ### Opening -/

/-- The file of the journal of a data directory lies on a disk, and so does its directory.  The
directory is asked for as well, as opening makes it when it is missing. -/
structure LiesIn (dataDir : String) (file : File) (d : Disk) : Prop where
  directory : d.hasNode (directoryIn dataDir) = true
  place : ∃ place, d.locate (pathIn dataDir) = some place ∧ d.node? place = some (.file file)

theorem makeDirectory_ok (h : makeDirectory dataDir d = (.ok (), e)) :
    d.Extends e ∧ e.hasNode (directoryIn dataDir) = true := by
  unfold makeDirectory at h
  split at h
  · rename_i hthere
    cases h
    exact ⟨.refl d, hthere⟩
  · split at h
    · rename_i hmade
      cases h
      exact Disk.hasNode_createDirectories hmade
    · cases h

/-- A journal that was opened lies on the disk, and whatever lay there before is as it was.  A file
that was made takes no place that a path had gone through. -/
theorem openIn_ok (h : openIn dataDir syncs d = (.ok j, e)) :
    d.Extends e ∧ ∃ file, LiesIn dataDir file e ∧ j = .ofFile (pathIn dataDir) file syncs := by
  unfold openIn at h
  split at h
  · cases h
  · rename_i d' hmade
    obtain ⟨hextends, hdirectory⟩ := makeDirectory_ok hmade
    split at h
    · rename_i file e' hopened
      cases h
      unfold Disk.openFile at hopened
      obtain ⟨place, hplace, hopened⟩ := Option.bind_eq_some_iff.1 hopened
      cases hnode : d'.node? place with
      | none =>
        -- The new file takes no place that the way to it goes through, since none was there.
        rw [hnode] at hopened
        cases hopened
        have hput := Disk.extends_put hnode (.file .empty)
        have hroot := Disk.ne_nil_of_not_directory (Disk.not_directory_of_none hnode)
        refine ⟨hextends.trans hput, .empty, ⟨hput.grows.hasNode hdirectory, place,
          hput.grows.locate hplace, ?_⟩, rfl⟩
        rw [Disk.node?_put hroot, if_pos rfl]
      | some node =>
        rw [hnode] at hopened
        cases node with
        | directory => cases hopened
        | file found =>
          cases hopened
          exact ⟨hextends, _, ⟨hdirectory, place, hplace, hnode⟩, rfl⟩
    · cases h

namespace LiesIn

/-- What lies at the path of the journal is its file.  The place has been found, and it is the same
at every look. -/
theorem find (h : LiesIn dataDir file d) : d.find (pathIn dataDir) = some (.file file) := by
  obtain ⟨place, hplace, hnode⟩ := h.place
  unfold Disk.find
  rw [hplace, Option.bind_some, hnode]

theorem bytesIn (h : LiesIn dataDir file d) : bytesIn dataDir d = .ok file.bytes := by
  unfold Journal.bytesIn
  rw [h.find]

/-- A journal that was found when it was replayed is the one that lies there later.  The replay
comes before the journal is opened, so it sees another disk. -/
theorem replayIn_of_extends (h : LiesIn dataDir file e) (hextends : d.Extends e)
    (hnode : d.hasNode (pathIn dataDir) = true) (s : KeySpace) :
    replayIn dataDir d s = JournalRecord.replay file.bytes s := by
  obtain ⟨node, hfind⟩ := Option.isSome_iff_exists.1 hnode
  have hfile : d.find (pathIn dataDir) = some (.file file) := by
    rw [hfind, ← h.find, hextends.find hfind]
  unfold Journal.replayIn Journal.bytesIn
  rw [if_pos hnode, hfile]

theorem replayIn (h : LiesIn dataDir file d) (s : KeySpace) :
    replayIn dataDir d s = JournalRecord.replay file.bytes s :=
  h.replayIn_of_extends (.refl d) (by rw [Disk.hasNode, h.find]; rfl) s

/-- A journal that lies on the disk is opened as it is.  Neither its directory nor its file has to
be made. -/
theorem openIn (h : LiesIn dataDir file d) (syncs : Bool) :
    openIn dataDir syncs d = (.ok (.ofFile (pathIn dataDir) file syncs), d) := by
  have hmade : makeDirectory dataDir d = (.ok (), d) := if_pos h.directory
  obtain ⟨place, hplace, hnode⟩ := h.place
  have hopened : d.openFile (pathIn dataDir) = some (file, d) := by
    unfold Disk.openFile
    simp only [hplace, hnode, Option.bind_eq_bind, Option.bind_some]
  unfold Journal.openIn
  rw [hmade]
  dsimp only
  rw [hopened]

/-- The bytes of the file are exchanged, and the journal lies where it lay.  No directory is
touched. -/
theorem writeFile (h : LiesIn dataDir file d) (written : File) :
    LiesIn dataDir written (d.writeFile (pathIn dataDir) written) := by
  obtain ⟨place, hplace, hnode⟩ := h.place
  have hfile := Disk.not_directory_of_file hnode
  have hgrows := Disk.grows_put hfile (.file written)
  unfold Disk.writeFile
  rw [hplace]
  refine ⟨hgrows.hasNode h.directory, place, hgrows.locate hplace, ?_⟩
  rw [Disk.node?_put (Disk.ne_nil_of_not_directory hfile), if_pos rfl]

end LiesIn

end BlogLedger.Journal
