import BlogLedger.Ledger.Opening
import BlogLedger.Proofs.Ledger.Recorded
import BlogLedger.Query

/-!
# Reopening

A ledger on a disk may be closed and opened again at any time.  Opening replays the journal, so the
opened ledger holds what the closed one held, and goes on like a ledger that was never closed.

Two ledgers are followed side by side.  One is never closed, and what is known of runs applies to
it; the other one lies on a disk and may be opened again after any call.  What links them is that
they have the same store, and that the bytes of the journal replay to it.  A call moves all of these
at once.  Opening the ledger again moves none of them, since the file is read and not written.

That the two then answer alike needs no comparison of answers: a call looks at the store, the limit
of a tick and whether the journal takes a record, and those are the same.

## Main Definitions

* `Ledger.Turn` — a call, or a ledger is closed and opened again.
* `Ledger.play` — turns in a row, on a ledger and the disk it lies on.
* `Ledger.InStep` — the journal on a disk says what a ledger holds.
* `Ledger.Durable` — what is true of a ledger that was closed and opened again at any time.

## Main Results

* `Ledger.InStep.call`, `Ledger.InStep.reopen` — one turn.
* `Ledger.InStep.play` — turns in a row.
* `Ledger.reopening_loses_nothing` — the ledger after turns is durable.

## Design Notes

The file of the journal is in good condition, and nothing but the ledger writes to it.  A batch whose
record would be too long is refused, so the runs in which there is one need no exception.

A journal that holds records already must have been found when the ledger was opened for the first
time.  A path that goes through a missing directory and back out of it leads nowhere until that
directory is made, so the records of a journal at its end would be missed.
-/

namespace BlogLedger.Ledger

open JournalRecord (inRow IsReplay)

/-- What happens to a ledger on a disk.  A tick brings its limit with it, so a ledger that was
opened again under other settings is covered. -/
inductive Turn where
  | call (c : Call)
  /-- The ledger is closed, and the ledger of the data directory is opened.  Closing by itself
  writes nothing, as every record is written when it is committed. -/
  | reopen

/-- The calls among turns.  They are what the ledger that is never closed is called with. -/
def Turn.calls (turns : List Turn) : List Call :=
  turns.filterMap fun
    | .call c => some c
    | .reopen => none

/-- The ledger and its disk after a turn; opening may fail.  A call changes the disk only in the
file of the journal. -/
def Turn.run (config : Config) (place : Ledger × Disk) : Turn → Except Failure (Ledger × Disk)
  | .call c => .ok (c.run place.1, place.2.keep (c.run place.1))
  | .reopen =>
    match Ledger.openIn config place.2 with
    | (.ok l, d, _) => .ok (l, d)
    | (.error f, _, _) => .error f

/-- The ledger and its disk after turns in a row, as far as none of them fails. -/
def play (config : Config) (turns : List Turn) (place : Ledger × Disk) :
    Except Failure (Ledger × Disk) :=
  turns.foldlM (Turn.run config) place

/-- The ledger with a store, just opened on a journal that holds bytes and is in good condition.
Its counters start again from zero, which is why answers and stores are compared and counters are
not. -/
def opened (config : Config) (store : KeySpace) (bytes : Bytes) : Ledger where
  store
  journal := some (.ofFile (Journal.pathIn config.dataDir) ⟨bytes, .good⟩ config.journalFsync)
  counters := .zero
  maxTasks := config.maxTasksPerTick.toNat

/-- How many records calls in a row write, call by call.  It is what makes it possible to say which
part of the journal belongs to which call. -/
def recordCounts (start : Ledger) (calls : List Call) : List Nat :=
  start.gathered (fun l c => [l.recordCount c]) calls

/-- A ledger on a disk after calls, compared with `start.after calls`, which was never closed:
nothing was lost since the journal held the bytes `before`.  Besides the stores, the answers to
every later call and query are compared. -/
structure Durable (config : Config) (before : Bytes) (start : Ledger) (calls : List Call)
    (l : Ledger) (d : Disk) : Prop where
  /-- The journal goes on with one record for each accepted transaction and each fired task, call by
  call, and with nothing else.  All of its records, replayed into an empty store, give the store of
  the ledger. -/
  recorded : ∃ records : List (List Batch), records.map List.length = start.recordCounts calls
    ∧ Journal.bytesIn config.dataDir d = .ok (before ++ inRow records.flatten)
    ∧ ∃ earlier, JournalRecord.replay before .empty = (.ok earlier, start.store)
      ∧ Journal.replayIn config.dataDir d .empty
        = (.ok (earlier + records.flatten.length), l.store)
  store : l.store = (start.after calls).store
  check : ∀ tx, (l.check tx).result = ((start.after calls).check tx).result
  deliver : ∀ tx, (l.deliver tx).result = ((start.after calls).deliver tx).result
  tick : ∀ now limit, ((l.limited limit).tick now).result
    = (((start.after calls).limited limit).tick now).result
  query : ∀ path data mode, QueryTable.standard.query path data mode l.store
    = QueryTable.standard.query path data mode (start.after calls).store
  /-- The records of a tick that goes through are counted by its report.  With it, the number of
  records of every accepted call can be told from its answer. -/
  reported : ∀ m now limit report, start.Made calls m (.tick now limit) →
    ((m.limited limit).tick now).result = .ok report →
      report.fired.length = m.recordCount (.tick now limit)

/-- The journal on a disk holds bytes with so many records, and they say what a ledger holds; the
ledger `never`, which was never closed, holds the same.  This is the invariant of turns. -/
structure InStep (config : Config) (never l : Ledger) (d : Disk) (bytes : Bytes) (count : Nat) :
    Prop where
  alike : l.Alike never
  writes : l.Writes (Journal.pathIn config.dataDir) config.journalFsync bytes
  lies : Journal.LiesIn config.dataDir ⟨bytes, .good⟩ d
  replays : IsReplay bytes count .empty l.store

variable {config : Config} {start never l : Ledger} {d e : Disk} {before bytes : Bytes}
  {count : Nat} {log : List LogEntry}

/-! ### One turn -/

/-- The file of its journal is what a ledger leaves on a disk.  The bytes are known, so it is known
which file that is. -/
theorem Writes.keep_eq {path : String} {syncs : Bool} (h : l.Writes path syncs bytes) (d : Disk) :
    d.keep l = d.writeFile path ⟨bytes, .good⟩ := by
  obtain ⟨j, hj, hends⟩ := h
  unfold Disk.keep
  rw [hj]
  dsimp only
  rw [hends.path_eq, hends.file_eq]

/-- What a ledger wrote is kept on the disk where its journal lies.  The path of the journal leads
to a file before and after. -/
theorem Writes.keep {dataDir : String} {syncs : Bool} {file : File}
    (h : l.Writes (Journal.pathIn dataDir) syncs bytes) (hlies : Journal.LiesIn dataDir file d) :
    Journal.LiesIn dataDir ⟨bytes, .good⟩ (d.keep l) := by
  rw [h.keep_eq]
  exact hlies.writeFile _

theorem writes_opened (config : Config) (store : KeySpace) (bytes : Bytes) :
    (opened config store bytes).Writes (Journal.pathIn config.dataDir) config.journalFsync bytes :=
  ⟨_, rfl, Journal.ends_ofFile _ _ _⟩

/-- Where the journal says what a store holds, a ledger with that store is opened, and the disk is
as it was.  No directory and no file has to be made, since the journal is there. -/
theorem openIn_of_lies {file : File} {store : KeySpace}
    (hlies : Journal.LiesIn config.dataDir file d)
    (hreplays : IsReplay file.bytes count .empty store) :
    ∃ log, Ledger.openIn config d = (.ok ⟨store,
      some (.ofFile (Journal.pathIn config.dataDir) file config.journalFsync), .zero,
      config.maxTasksPerTick.toNat⟩, d, log) := by
  have hreplay : Journal.replayIn config.dataDir d .empty = (.ok count, store) :=
    (hlies.replayIn _).trans hreplays
  unfold Ledger.openIn
  rw [hreplay]
  dsimp only
  rw [hlies.openIn]
  exact ⟨_, rfl⟩

theorem run_reopen {file : File} {store : KeySpace} (hlies : Journal.LiesIn config.dataDir file d)
    (hreplays : IsReplay file.bytes count .empty store) :
    Turn.run config (l, d) .reopen = .ok (⟨store,
      some (.ofFile (Journal.pathIn config.dataDir) file config.journalFsync), .zero,
      config.maxTasksPerTick.toNat⟩, d) := by
  obtain ⟨log, hopen⟩ := openIn_of_lies hlies hreplays
  unfold Turn.run
  dsimp only
  rw [hopen]

namespace InStep

/-- A call writes its records and keeps everything in step.  The records are counted on the ledger
that is never closed, so that the count does not depend on when the other one was opened. -/
theorem call (h : InStep config never l d bytes count) (c : Call) :
    ∃ batches, batches.length = never.recordCount c
      ∧ InStep config (c.run never) (c.run l) (d.keep (c.run l)) (bytes ++ inRow batches)
        (count + batches.length) := by
  obtain ⟨batches, hlength, hwrote⟩ := h.writes.run c
  obtain ⟨halike, hcount⟩ := h.alike.run c
  have hwrites := hwrote.journal _ _ _ h.writes
  refine ⟨batches, hlength.trans hcount, halike, hwrites, hwrites.keep h.lies, ?_⟩
  rw [hwrote.store]
  exact h.replays.append hwrote.fits

/-- A ledger that is closed and opened again is in step, and the disk is as it was.  Of the closed
ledger only its store and the bytes of its journal matter. -/
theorem reopen (h : InStep config never l d bytes count) :
    ∃ l', Turn.run config (l, d) .reopen = .ok (l', d) ∧ InStep config never l' d bytes count := by
  have hwrites := writes_opened config l.store bytes
  exact ⟨opened config l.store bytes, run_reopen h.lies h.replays,
    ⟨h.alike.store, ⟨_, _, _, hwrites⟩, h.alike.second⟩, hwrites, h.lies, h.replays⟩

/-! ### Turns in a row -/

/-- Turns never fail, and keep everything in step. -/
theorem play (h : InStep config never l d bytes count) (turns : List Turn) :
    ∃ l' d', ∃ records : List (List Batch), Ledger.play config turns (l, d) = .ok (l', d')
      ∧ records.map List.length = never.recordCounts (Turn.calls turns)
      ∧ InStep config (never.after (Turn.calls turns)) l' d' (bytes ++ inRow records.flatten)
        (count + records.flatten.length) := by
  -- Each turn starts where the one before has left the ledger, the disk and the bytes.
  induction turns generalizing never l d bytes count with
  | nil =>
    refine ⟨l, d, [], rfl, rfl, ?_⟩
    show InStep config never l d (bytes ++ []) count
    rwa [List.append_nil]
  | cons turn rest ih =>
    cases turn with
    | call c =>
      obtain ⟨batches, hlength, hcall⟩ := h.call c
      obtain ⟨l', d', records, hplay, hrecords, hstep⟩ := ih hcall
      refine ⟨l', d', batches :: records, hplay, ?_, ?_⟩
      · exact congrArg₂ List.cons hlength hrecords
      · rw [List.flatten_cons, JournalRecord.inRow_append, List.length_append,
          ← List.append_assoc, ← Nat.add_assoc]
        exact hstep
    | reopen =>
      obtain ⟨l', hturn, hreopened⟩ := h.reopen
      obtain ⟨l'', d'', records, hplay, hrecords, hstep⟩ := ih hreopened
      refine ⟨l'', d'', records, ?_, hrecords, hstep⟩
      unfold Ledger.play at hplay ⊢
      rw [List.foldlM_cons, hturn]
      exact hplay

/-- What is in step with a ledger that was never closed has lost nothing.  Each field is read off
the invariant. -/
theorem durable {earlier : Nat} {calls : List Call} {records : List (List Batch)}
    (hbefore : IsReplay before earlier .empty start.store)
    (hrecords : records.map List.length = start.recordCounts calls)
    (h : InStep config (start.after calls) l d (before ++ inRow records.flatten)
      (earlier + records.flatten.length)) :
    Durable config before start calls l d where
  recorded := ⟨records, hrecords, h.lies.bytesIn, earlier, hbefore,
    (h.lies.replayIn _).trans h.replays⟩
  store := h.alike.store
  check tx := (h.alike.check tx).1
  deliver tx := (h.alike.deliver tx).1
  tick now limit := (h.alike.tick now limit).1
  query path data mode := by rw [h.alike.store]
  reported m now limit report _ hreport := length_tick hreport

end InStep

/-! ### Opening -/

/-- A ledger that was opened has its journal on the disk.  The journal says what the ledger holds, if
it is new or was found by the replay. -/
theorem openIn_ok {file : File} (hopen : Ledger.openIn config d = (.ok start, e, log))
    (hfile : e.file? (Journal.pathIn config.dataDir) = some file)
    (hbefore : file.bytes = [] ∨ d.hasNode (Journal.pathIn config.dataDir) = true) :
    start.journal = some (.ofFile (Journal.pathIn config.dataDir) file config.journalFsync)
      ∧ Journal.LiesIn config.dataDir file e
      ∧ ∃ earlier, IsReplay file.bytes earlier .empty start.store := by
  unfold Ledger.openIn at hopen
  split at hopen
  · cases hopen
  · next records store hreplay =>
    split at hopen
    · cases hopen
    · next journal e' hjournal =>
      cases hopen
      obtain ⟨hextends, file', hlies, rfl⟩ := Journal.openIn_ok hjournal
      obtain rfl : file' = file := by
        unfold Disk.file? at hfile
        rw [hlies.find] at hfile
        exact Option.some.inj hfile
      refine ⟨rfl, hlies, records, ?_⟩
      by_cases hnode : d.hasNode (Journal.pathIn config.dataDir) = true
      · rw [hlies.replayIn_of_extends hextends hnode] at hreplay
        exact hreplay
      · -- A journal that was not there yet is empty, and so is the store.
        unfold Journal.replayIn at hreplay
        rw [if_neg hnode] at hreplay
        cases hreplay
        rw [hbefore.resolve_right hnode]
        exact .nil .empty

/-- A ledger that was opened is in step, if its journal is new or was found by the replay.  The
ledger is compared with itself, as it has not been closed so far. -/
theorem inStep_of_openIn (hopen : Ledger.openIn config d = (.ok start, e, log))
    (hfile : e.file? (Journal.pathIn config.dataDir) = some ⟨before, .good⟩)
    (hbefore : before = [] ∨ d.hasNode (Journal.pathIn config.dataDir) = true) :
    ∃ earlier, InStep config start start e before earlier := by
  obtain ⟨hjournal, hlies, earlier, hreplays⟩ := openIn_ok hopen hfile hbefore
  have hwrites : start.Writes (Journal.pathIn config.dataDir) config.journalFsync before :=
    ⟨_, hjournal, Journal.ends_ofFile _ _ _⟩
  exact ⟨earlier, ⟨rfl, ⟨_, _, _, hwrites⟩, ⟨_, _, _, hwrites⟩⟩, hwrites, hlies, hreplays⟩

/-- Reopening loses nothing.  A ledger is opened on a disk, where its journal is new or was found, and
then called, closed and opened again in any order; it goes on like the ledger that is never closed,
and its journal says what it holds. -/
theorem reopening_loses_nothing (hopen : Ledger.openIn config d = (.ok start, e, log))
    (hfile : e.file? (Journal.pathIn config.dataDir) = some ⟨before, .good⟩)
    (hbefore : before = [] ∨ d.hasNode (Journal.pathIn config.dataDir) = true)
    (turns : List Turn) :
    ∃ l d', Ledger.play config turns (start, e) = .ok (l, d')
      ∧ Durable config before start (Turn.calls turns) l d' := by
  obtain ⟨earlier, hstep⟩ := inStep_of_openIn hopen hfile hbefore
  obtain ⟨l, d', records, hplay, hrecords, hlast⟩ := hstep.play turns
  exact ⟨l, d', hplay, hlast.durable hstep.replays hrecords⟩

/-! ### A sample -/

/-- Settings for a data directory. -/
def sampleConfig : Config := .ofDataDir "blog"

/-- A ledger that was opened on a disk without files. -/
def sampleStart : Ledger := opened sampleConfig .empty []

/-- The disk with the journal that was made. -/
def sampleDisk : Disk := (Ledger.openIn sampleConfig (.within [])).2.1

/-- A user is registered, the ledger is closed and opened again, and a transaction from before is
refused. -/
def sampleTurns : List Turn := [
  .call (.deliver ⟨⟨100⟩, none, .createUser "maria_w" none⟩),
  .reopen,
  .call (.deliver ⟨⟨50⟩, none, .createUser "maria_x" none⟩)]

theorem openIn_sample : (Ledger.openIn sampleConfig (.within [])).1 = .ok sampleStart := rfl

theorem reopening_loses_nothing_sample :
    ∃ start e log, Ledger.openIn sampleConfig (.within []) = (.ok start, e, log)
      ∧ e.file? (Journal.pathIn sampleConfig.dataDir) = some ⟨[], .good⟩
      ∧ start.recordCounts (Turn.calls sampleTurns) = [1, 0]
      ∧ ∃ l d', play sampleConfig sampleTurns (start, e) = .ok (l, d')
        ∧ Durable sampleConfig [] start (Turn.calls sampleTurns) l d' := by
  have hopen : Ledger.openIn sampleConfig (.within []) = (.ok sampleStart, sampleDisk, _) :=
    Prod.ext openIn_sample rfl
  have hfile : sampleDisk.file? (Journal.pathIn sampleConfig.dataDir) = some ⟨[], .good⟩ := rfl
  have hcounts : sampleStart.recordCounts (Turn.calls sampleTurns) = [1, 0] := by
    decide +kernel
  exact ⟨_, _, _, hopen, hfile, hcounts, reopening_loses_nothing hopen hfile (.inl rfl) sampleTurns⟩

end BlogLedger.Ledger
