import BlogLedger.Proofs.Command.Reached
import BlogLedger.Proofs.Formats

/-!
# Submissions in parts

Lines can be submitted at once, or in parts by commands that open the ledger anew.  They get the same
answers, and the journal is the same.

Between two parts of a submission a ledger is closed and another one is opened.  The second one has
the store of the first one and a journal with the same bytes, but its counters start again.  As
answers and records do not depend on counters, the rest of the lines cannot tell the difference.
The statement holds for each way of splitting, so it holds for any number of parts.

## Main Definitions

* `Command.SameJournal` — two disks hold the same journal of a data directory.
* `Command.Splits` — what is true of lines that are submitted at once and in two parts.

## Main Results

* `Command.Standing.submit_halts` — what is left of a submission.
* `Command.Standing.submit_parts` — what is left of two submissions.
* `Command.submission_splits` — a submission can be split.

## Design Notes

The file of a journal that was made is in good condition, and all operations on it go through.  One
thing can stop a submission all the same: a record whose length does not fit in 32 bits.
-/

namespace BlogLedger.Command

open JournalRecord (inRow)
open Ledger (opened)

/-! ### Definitions -/

/-- Two disks hold the same journal of a data directory, byte for byte.  Other files are not
compared. -/
def SameJournal (config : Config) (d e : Disk) : Prop :=
  ∃ bytes, Journal.bytesIn config.dataDir d = .ok bytes
    ∧ Journal.bytesIn config.dataDir e = .ok bytes

/-- A command that reads lines is given them at once, and in two parts.  The fields compare what it
prints and what it leaves in the journal. -/
structure Splits (c : Command) (config : Config) (first second whole : Bytes) (d : Disk) :
    Prop where
  /-- Nothing stops the command, neither a transaction that is accepted nor one that is rejected. -/
  result_whole : (c.run whole d).result = .ok ()
  result_first : (c.run first d).result = .ok ()
  result_second : (c.run second (c.run first d).disk).result = .ok ()
  lines_eq : (c.run first d).lines ++ (c.run second (c.run first d).disk).lines
    = (c.run whole d).lines
  journal_eq : SameJournal config (c.run second (c.run first d).disk).disk (c.run whole d).disk
  /-- Every line that is not blank is answered with one line, in the order of the input. -/
  length_lines : (c.run whole d).lines.length
    = (splitLines whole).countP fun line => !isBlank line
  /-- A line whose transaction is rejected leaves the journal as the lines before it left it.  It is
  said by means of shorter inputs, since a journal is seen only when a command has ended. -/
  rejected : ∀ before through line code message, splitLines through = splitLines before ++ [line] →
    splitLines through <+: splitLines whole →
    (c.run through d).output = (c.run before d).output ++ [Session.errorResponse code message] →
    SameJournal config (c.run through d).disk (c.run before d).disk
  /-- A line that cannot be read stops the command, and everything is as if the input had ended
  before it.  So nothing that was answered before is taken back. -/
  malformed : ∀ input line later fault, splitLines input = splitLines whole ++ line :: later →
    transactionOn line = .error fault →
    (c.run input d).result = .error fault ∧ (c.run input d).output = (c.run whole d).output
      ∧ (c.run input d).disk = (c.run whole d).disk

variable {path : String} {config : Config} {checkOnly : Bool} {lines : Nat} {d : Disk}
  {first second whole input bytes : Bytes} {store : KeySpace} {m n : Ledger}
  {before rest : List Bytes} {answers : List Json} {result : Except CommandFault Unit}

/-! ### Sessions -/

/-- What a command that was not stopped writes.  One line is printed for each answer. -/
theorem lines_of_ok (answers : List Json) (log : List LogEntry) (d : Disk) :
    (⟨.ok (), answers, log, d⟩ : Session).lines
      = answers.map fun answer => answer.sortNames.printText := by
  simp only [Session.lines, List.append_nil]

/-- A transaction that is answered with a failure writes nothing.  The journal is one that takes
every record which is not too long. -/
theorem Answered.wrote_of_error {syncs : Bool} {line : Bytes} {code message : String}
    (h : Answered checkOnly m [line] [Session.errorResponse code message] n)
    (hm : m.Writes path syncs bytes) : m.Wrote n [] := by
  cases h with
  | blank read others => cases others
  | answer read given others =>
    obtain ⟨f, herror⟩ := response?_eq_error given
    cases others
    exact hm.wrote_of_error herror

namespace Standing

variable (h : Standing path config lines d bytes store)
include h

theorem submit_eq (checkOnly : Bool) (input : Bytes) :
    ∃ log, (submit path checkOnly).run input d
      = Command.applyLines checkOnly d (splitLines input) (opened config store bytes) [] log := by
  obtain ⟨log, hsession⟩ := h.withLedger h.settings rfl fun l log d =>
    Command.applyLines checkOnly d (splitLines input) l [] log
  exact ⟨log, hsession⟩

/-- What is left of a submission whose lines are answered up to where it halts.  It is the general
form, from which that without a halt is taken. -/
theorem submit_halts (hinput : splitLines input = before ++ rest)
    (hanswered : Answered checkOnly (opened config store bytes) before answers m)
    (hhalts : Halts checkOnly m rest result n) :
    ∃ log, (submit path checkOnly).run input d = ⟨result, answers, log, d.keep n⟩ := by
  obtain ⟨log, hsubmit⟩ := h.submit_eq checkOnly input
  obtain ⟨log', hsession⟩ := hanswered.session hhalts d [] log
  rw [hsubmit, hinput, hsession]
  exact ⟨log', rfl⟩

/-- What is left of a submission whose lines are answered.  Its result is a success, and the disk
holds what the last ledger has written. -/
theorem submit_answered
    (hanswered : Answered checkOnly (opened config store bytes) (splitLines input) answers m) :
    ∃ log, (submit path checkOnly).run input d = ⟨.ok (), answers, log, d.keep m⟩ :=
  h.submit_halts (List.append_nil _).symm hanswered .done

/-- What a ledger wrote since it was opened is in the journal on the disk that it leaves, after the
bytes that were there. -/
theorem bytesIn_keep {batches : List Batch} (hwrote : (opened config store bytes).Wrote m batches) :
    Journal.bytesIn config.dataDir (d.keep m) = .ok (bytes ++ inRow batches) := by
  have hwrites := hwrote.journal _ _ _ (Ledger.writes_opened config store bytes)
  exact (hwrites.keep h.lies).bytesIn

/-! ### Two submissions -/

/-- What is left of two submissions whose lines are answered when they come at once.  The answers
are those of the whole, cut in two, and the records of the second part follow those of the first
one. -/
theorem submit_parts (hspare : lines + (splitLines first ++ splitLines second).length < UInt64.size)
    (hanswered : Answered checkOnly (opened config store bytes)
      (splitLines first ++ splitLines second) answers n) :
    ∃ before after log log' m n', answers = before ++ after
      ∧ (submit path checkOnly).run first d = ⟨.ok (), before, log, d.keep m⟩
      ∧ (submit path checkOnly).run second (d.keep m)
        = ⟨.ok (), after, log', (d.keep m).keep n'⟩
      ∧ SameJournal config ((d.keep m).keep n') (d.keep n) := by
  rw [List.length_append] at hspare
  obtain ⟨before, after, m, rfl, hbefore, hafter⟩ := hanswered.split
  obtain ⟨log, hfirst⟩ := h.submit_answered hbefore
  obtain ⟨batches, hm, hrecord⟩ := (h.onRecord config).answered (by omega) hbefore
  -- The second command opens a ledger that is like the one that the first command has left.
  have hnext := h.keep hrecord
  have halike : m.Alike (opened config m.store (bytes ++ inRow batches)) :=
    ⟨rfl, ⟨_, _, _, hrecord.writes⟩, ⟨_, _, _, Ledger.writes_opened _ _ _⟩⟩
  obtain ⟨batches', n', hafter', hwrote, hwrote'⟩ := halike.answered hafter
  obtain ⟨log', hsecond⟩ := hnext.submit_answered hafter'
  refine ⟨before, after, log, log', m, n', rfl, hfirst, hsecond, _, hnext.bytesIn_keep hwrote', ?_⟩
  rw [h.bytesIn_keep (hm.trans hwrote), JournalRecord.inRow_append, List.append_assoc]

/-- A line whose transaction is rejected leaves the journal as the lines before it left it.  The
lines before are answered alike in both inputs, and the last one writes nothing. -/
theorem journal_of_rejected
    (hanswered : Answered checkOnly (opened config store bytes) (splitLines whole) answers n)
    (hspare : lines + (splitLines whole).length < UInt64.size) {before through line : Bytes}
    {code message : String} (hline : splitLines through = splitLines before ++ [line])
    (hfront : splitLines through <+: splitLines whole)
    (herror : ((submit path checkOnly).run through d).output
      = ((submit path checkOnly).run before d).output ++ [Session.errorResponse code message]) :
    SameJournal config ((submit path checkOnly).run through d).disk
      ((submit path checkOnly).run before d).disk := by
  obtain ⟨later, hwhole⟩ := hfront
  rw [← hwhole] at hanswered hspare
  obtain ⟨answers, -, m', rfl, hthrough, -⟩ := hanswered.split
  obtain ⟨log, hrun⟩ := h.submit_answered hthrough
  rw [hline] at hthrough hspare
  obtain ⟨early, last, m, rfl, hbefore, hlast⟩ := hthrough.split
  obtain ⟨log', hrun'⟩ := h.submit_answered hbefore
  rw [List.length_append, List.length_append] at hspare
  obtain ⟨batches, hwrote, hrecord⟩ := (h.onRecord config).answered (by omega) hbefore
  rw [hrun, hrun'] at herror ⊢
  obtain rfl := List.append_cancel_left herror
  -- The last line has added nothing to what the lines before it wrote.
  have hwrote' := hwrote.trans (hlast.wrote_of_error hrecord.writes)
  rw [List.append_nil] at hwrote'
  exact ⟨_, h.bytesIn_keep hwrote', h.bytesIn_keep hwrote⟩

/-- Lines that are all answered can be submitted in parts.  It puts the fields together; which lines
are answered has been shown before. -/
theorem splits (hwhole : splitLines whole = splitLines first ++ splitLines second)
    (hspare : lines + (splitLines whole).length < UInt64.size)
    (hanswered : Answered checkOnly (opened config store bytes) (splitLines whole) answers n) :
    Splits (submit path checkOnly) config first second whole d := by
  obtain ⟨log, hrun⟩ := h.submit_answered hanswered
  obtain ⟨before, after, log₁, log₂, m, n', hparts, hfirst, hsecond, hjournal⟩ :=
    h.submit_parts (hwhole ▸ hspare) (hwhole ▸ hanswered)
  have hresult : ((submit path checkOnly).run second
      ((submit path checkOnly).run first d).disk).result = .ok () := by rw [hfirst, hsecond]
  refine ⟨by rw [hrun], by rw [hfirst], hresult, ?_, ?_, ?_, ?_, ?_⟩
  · rw [hfirst, hsecond, hrun, lines_of_ok, lines_of_ok, lines_of_ok, ← List.map_append, hparts]
  · rw [hfirst, hsecond, hrun]
    exact hjournal
  · rw [hrun, lines_of_ok, List.length_map, hanswered.length]
  · intro before through line code message hline hfront herror
    exact h.journal_of_rejected hanswered hspare hline hfront herror
  · intro input line later fault hinput hread
    obtain ⟨log', hstopped⟩ := h.submit_halts hinput hanswered (.malformed hread)
    rw [hstopped, hrun]
    exact ⟨rfl, rfl, rfl⟩

end Standing

/-- A submission can be split.  Commands have led to a data directory, and lines are submitted to it
of which each is blank or holds a transaction; the journal takes every record, since none is too
long.  Then nothing is different when the lines come in two parts. -/
theorem submission_splits (h : Reached path config lines d)
    (hwhole : splitLines whole = splitLines first ++ splitLines second)
    (hread : ∀ line ∈ splitLines whole, Readable line)
    (hspare : lines + (splitLines whole).length < UInt64.size)
    (htaken : ((submit path checkOnly).run whole d).result
      ≠ .error (.ledger (.of (.storage .oversized)))) :
    Splits (submit path checkOnly) config first second whole d := by
  obtain ⟨bytes, store, hstanding⟩ := h.standing (by omega)
  rcases (hstanding.onRecord config).exists_answers hspare hread checkOnly with
      ⟨answers, n, hanswered⟩ | hoversized
  · exact hstanding.splits hwhole hspare hanswered
  · obtain ⟨log, hsubmit⟩ := hstanding.submit_eq checkOnly whole
    rw [hsubmit] at htaken
    exact absurd (hoversized d [] log) htaken

/-! ### A sample -/

/-- A disk with nothing but settings. -/
def sampleDisk : Disk := (Disk.within []).install "quill.json" Ledger.sampleConfig.toJson.print

/-- The disk with the data directory that was made. -/
def sampleMade : Disk := ((init "quill.json").run [] sampleDisk).disk

/-- A user is registered. -/
def sampleFirst : List Bytes :=
  [Transaction.encode ⟨⟨100⟩, none, .createUser "maria_w" none⟩]

/-- A blank line, and a transaction from before that. -/
def sampleSecond : List Bytes :=
  [[], Transaction.encode ⟨⟨50⟩, none, .createUser "maria_x" none⟩]

theorem reached_sample : Reached "quill.json" Ledger.sampleConfig 0 sampleMade :=
  .init (by decide +kernel) (by decide +kernel) rfl

theorem not_mem_sample : ∀ line ∈ sampleFirst ++ sampleSecond, (10 : UInt8) ∉ line := by
  simp only [sampleFirst, sampleSecond, List.cons_append, List.nil_append, List.forall_mem_cons]
  exact ⟨(Transaction.isLine_encode _).2, List.not_mem_nil, (Transaction.isLine_encode _).2,
    List.forall_mem_nil _⟩

theorem readable_sample : ∀ line ∈ sampleFirst ++ sampleSecond, Readable line := by
  simp only [sampleFirst, sampleSecond, List.cons_append, List.nil_append, List.forall_mem_cons]
  exact ⟨⟨_, Transaction.transactionOn_encode _⟩, ⟨none, rfl⟩,
    ⟨_, Transaction.transactionOn_encode _⟩, List.forall_mem_nil _⟩

theorem submission_splits_sample :
    Reached "quill.json" Ledger.sampleConfig 0 sampleMade
      ∧ ((submit "quill.json" false).run (joinLines (sampleFirst ++ sampleSecond)) sampleMade).result
        = .ok ()
      ∧ Splits (submit "quill.json" false) Ledger.sampleConfig (joinLines sampleFirst)
        (joinLines sampleSecond) (joinLines (sampleFirst ++ sampleSecond)) sampleMade := by
  obtain ⟨hfirst, hsecond⟩ := List.forall_mem_append.1 not_mem_sample
  have hwhole := splitLines_joinLines not_mem_sample
  have hresult : ((submit "quill.json" false).run (joinLines (sampleFirst ++ sampleSecond))
      sampleMade).result = .ok () := by decide +kernel
  refine ⟨reached_sample, hresult, submission_splits reached_sample ?_ ?_ ?_ ?_⟩
  · rw [hwhole, splitLines_joinLines hfirst, splitLines_joinLines hsecond]
  · rw [hwhole]
    exact readable_sample
  · rw [hwhole]
    decide
  · rw [hresult]
    exact nofun

end BlogLedger.Command
