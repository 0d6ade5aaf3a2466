import BlogLedger.Proofs.Command.Answers
import BlogLedger.Proofs.Ledger.Reopening

/-!
# Data directories that commands lead to

A data directory is made, and then commands work on it.  Each of them opens the ledger anew and leaves
a journal that says what its ledger held, so the next one goes on where it ended.

A command knows of the ones before it only what they left on the disk.  What has to be known about
the disk is collected in `Command.Standing`: where the settings and the journal lie, and that the
journal replays to a sound store.  It is kept by every command, whatever it is asked for, whether it
succeeds, and whatever its input is.  So a result about one command on a disk that stands is a
result about any number of commands.

## Main Definitions

* `Command.Reached` — commands have led here.
* `Command.Standing` — what is known then.

## Main Results

* `Command.Standing.keep` — what a ledger on record leaves on the disk.
* `Command.Standing.run` — every command leads to a disk of which as much is known.
* `Command.Reached.standing` — so commands in a row do.

## Design Notes

A data directory starts with an empty journal.  A path that goes through a missing directory and back
out of it leads nowhere until that directory is made, so the records of a journal at its end would be
missed when the data directory is made.
-/

namespace BlogLedger

open JournalRecord (IsReplay inRow)
open Ledger (opened)

namespace Command

/-- A data directory was made with the settings at a path, and since then there were commands with
so many lines of input; their settings name the data directory, if they can be read at all.  Other
settings of later commands are free. -/
inductive Reached (path : String) (config : Config) : Nat → Disk → Prop
  | init {d : Disk} {input : Bytes} (load : Config.load path d = .ok config)
    (made : (run (.init path) input d).result = .ok ())
    (empty : (run (.init path) input d).disk.file? (Journal.pathIn config.dataDir) = some .empty) :
    Reached path config 0 (run (.init path) input d).disk
  | next {lines : Nat} {d : Disk} (before : Reached path config lines d) (c : Command)
    (input : Bytes) (same : ∀ settings, Config.load c.configPath d = .ok settings →
      settings.dataDir = config.dataDir) :
    Reached path config (lines + (splitLines input).length) (c.run input d).disk

/-- The settings at a path can be read, and elsewhere lies a journal that says what a store holds.
That is sound, and no sequence has given out more numbers than there were lines.  The settings lie
elsewhere, as writing the journal would destroy them otherwise. -/
structure Standing (path : String) (config : Config) (lines : Nat) (d : Disk) (bytes : Bytes)
    (store : KeySpace) : Prop where
  settings : Config.load path d = .ok config
  apart : ∃ place other, d.locate path = some place
    ∧ d.locate (Journal.pathIn config.dataDir) = some other ∧ place ≠ other
  lies : Journal.LiesIn config.dataDir ⟨bytes, .good⟩ d
  replays : ∃ count, IsReplay bytes count .empty store
  sound : ∃ σ, (opened config store bytes).Shows σ ∧ ∀ q, (σ.last q).toNat ≤ lines

variable {path source : String} {config settings : Config} {lines later : Nat} {d e : Disk}
  {bytes bytes' : Bytes} {store : KeySpace} {l : Ledger} {syncs : Bool}

/-! ### Settings -/

/-- Settings are in a file that is not empty.  A journal that was just made is empty, so it is not
the file of the settings. -/
theorem exists_file_of_load (h : Config.load path d = .ok config) :
    ∃ file, d.find path = some (.file file) ∧ file.bytes ≠ [] := by
  unfold Config.load Disk.file? at h
  split at h
  · cases h
  · next text htext =>
    split at htext
    · next file hfind =>
      refine ⟨file, hfind, ?_⟩
      intro hempty
      rw [Option.bind_some, hempty] at htext
      cases htext
      cases h
    · cases htext

theorem load_congr (h : e.find path = d.find path) : Config.load path e = Config.load path d := by
  unfold Config.load Disk.file?
  rw [h]

theorem withConfig_of_load (h : Config.load path d = .ok config)
    (next : Config → List LogEntry → Session) :
    ∃ log, withConfig path d next = next config log := by
  unfold withConfig
  rw [h]
  exact ⟨_, rfl⟩

/-- A command whose settings cannot be read leaves the disk as it is.  It is stopped before it opens
anything. -/
theorem disk_of_load_error {c : Command} {fault : ConfigFault}
    (h : Config.load c.configPath d = .error fault) (input : Bytes) : (c.run input d).disk = d := by
  have hstopped : ∀ next, (withConfig c.configPath d next).disk = d := by
    intro next
    unfold withConfig
    rw [h]
    rfl
  cases c with
  | init source => exact hstopped _
  | submit source checkOnly => exact hstopped _
  | tick source now =>
    show (runTick source now d).disk = d
    unfold runTick
    cases Timestamp.read now with
    | error f => rfl
    | ok now => exact hstopped _
  | query source query data id leading =>
    show (runQuery source query data id leading d).disk = d
    unfold runQuery
    cases queryData data id with
    | error fault => rfl
    | ok data => exact hstopped _

/-! ### Making a data directory -/

/-- A data directory that was made has a journal that was opened.  The command would have failed
otherwise. -/
theorem runInit_ok (hload : Config.load path d = .ok config)
    (h : (runInit path d).result = .ok ()) :
    ∃ j, Journal.openIn config.dataDir config.journalFsync d = (.ok j, (runInit path d).disk) := by
  unfold runInit at h ⊢
  obtain ⟨log, hconfig⟩ := withConfig_of_load hload _
  rw [hconfig] at h ⊢
  split at h
  · cases h
  · rw [if_neg ‹_›]
    split at h
    · cases h
    · next j e hopen =>
      rw [hopen]
      exact ⟨j, rfl⟩

/-- A data directory that was made stands, if its journal is empty.  The store that an empty journal
replays to is empty, and it is sound. -/
theorem standing_of_init (hload : Config.load path d = .ok config)
    (hmade : (runInit path d).result = .ok ())
    (hempty : (runInit path d).disk.file? (Journal.pathIn config.dataDir) = some .empty) :
    Standing path config 0 (runInit path d).disk [] .empty := by
  obtain ⟨j, hopen⟩ := runInit_ok hload hmade
  obtain ⟨hextends, file, hlies, -⟩ := Journal.openIn_ok hopen
  obtain rfl : file = .empty := by
    unfold Disk.file? at hempty
    rw [hlies.find] at hempty
    exact Option.some.inj hempty
  obtain ⟨text, hfind, hne⟩ := exists_file_of_load hload
  obtain ⟨place, hplace, hnode⟩ := Option.bind_eq_some_iff.1 hfind
  obtain ⟨other, hother, hnode'⟩ := hlies.place
  refine ⟨?_, ⟨place, other, hextends.grows.locate hplace, hother, ?_⟩, hlies, ⟨0, .nil .empty⟩,
    .empty, Ledger.shows_of_fresh rfl, fun q => ?_⟩
  · rw [load_congr ((hextends.find hfind).trans hfind.symm), hload]
  · -- The settings are not empty, and the journal is.
    rintro rfl
    cases (hextends.node place _ hnode).symm.trans hnode'
    exact hne rfl
  · cases q <;> exact Nat.le_refl 0

/-! ### Commands -/

namespace Standing

variable (h : Standing path config lines d bytes store)
include h

theorem mono (hle : lines ≤ later) : Standing path config later d bytes store := by
  obtain ⟨σ, hσ, hlast⟩ := h.sound
  exact ⟨h.settings, h.apart, h.lies, h.replays, σ, hσ, fun q => (hlast q).trans hle⟩

/-- The ledger that settings open is on record.  Opening starts from the store that the journal
says, and the bound on numbers is that of the lines so far. -/
theorem onRecord (settings : Config) : (opened settings store bytes).OnRecord
    (Journal.pathIn settings.dataDir) settings.journalFsync bytes lines := by
  obtain ⟨σ, hσ, hlast⟩ := h.sound
  exact ⟨Ledger.writes_opened settings store bytes, h.replays, σ, hσ.of_store_eq rfl, hlast⟩

/-- A ledger on record leaves a disk that stands.  Writing the journal leaves the settings as they
are, since they lie elsewhere. -/
theorem keep (hl : l.OnRecord (Journal.pathIn config.dataDir) syncs bytes' later) :
    Standing path config later (d.keep l) bytes' l.store := by
  obtain ⟨place, other, hplace, hother, hne⟩ := h.apart
  obtain ⟨other', hother', hnode⟩ := h.lies.place
  obtain rfl : other' = other := Option.some.inj (hother'.symm.trans hother)
  have hgrows := Disk.grows_writeFile hother hnode ⟨bytes', .good⟩
  have hfind := Disk.find_writeFile hother hnode hplace hne ⟨bytes', .good⟩
  rw [← hl.writes.keep_eq] at hgrows hfind
  obtain ⟨σ, hσ, hlast⟩ := hl.sound
  exact ⟨(load_congr hfind).trans h.settings,
    ⟨place, other', hgrows.locate hplace, hgrows.locate hother, hne⟩, hl.writes.keep h.lies,
    hl.replays, σ, hσ.of_store_eq rfl, hlast⟩

/-- The data directory was made.  It is what a command looks for before it opens a ledger. -/
theorem isInitialized (hsame : settings.dataDir = config.dataDir) :
    isInitialized settings d = true := by
  unfold Command.isInitialized Disk.hasNode
  rw [hsame, h.lies.find]
  rfl

/-- Settings that name the data directory open its ledger.  The path of the settings need not be the
one that the directory was made with. -/
theorem withLedger (hload : Config.load source d = .ok settings)
    (hsame : settings.dataDir = config.dataDir) (next : Ledger → List LogEntry → Disk → Session) :
    ∃ log, withLedger source d next = next (opened settings store bytes) log d := by
  obtain ⟨count, hreplays⟩ := h.replays
  have hlies := h.lies
  rw [← hsame] at hlies
  obtain ⟨opening, hopen⟩ := Ledger.openIn_of_lies hlies hreplays
  unfold Command.withLedger
  obtain ⟨log, hconfig⟩ := withConfig_of_load hload _
  rw [hconfig, h.isInitialized hsame, hopen]
  exact ⟨_, rfl⟩

/-- Lines leave a disk that stands, whether or not they stop the command.  What was answered before
a stop is in the journal. -/
theorem applyLines (hl : l.OnRecord (Journal.pathIn config.dataDir) syncs bytes' later)
    (input : List Bytes) (hspare : later + input.length < UInt64.size) (checkOnly : Bool)
    (output : List Json) (log : List LogEntry) :
    ∃ bytes'' store', Standing path config (later + input.length)
      (applyLines checkOnly d input l output log).disk bytes'' store' := by
  obtain ⟨before, rest, answers, m, result, n, rfl, hanswered, hhalts⟩ :=
    exists_answered checkOnly input l
  rw [List.length_append] at hspare ⊢
  obtain ⟨_, -, hm⟩ := hl.answered (by omega) hanswered
  obtain ⟨_, hn⟩ := hm.halts (by omega) hhalts
  obtain ⟨log', hsession⟩ := hanswered.session hhalts d output log
  rw [hsession, ← Nat.add_assoc]
  exact ⟨_, _, h.keep hn⟩

section Run

variable (hload : Config.load source d = .ok settings) (hsame : settings.dataDir = config.dataDir)
include hload hsame

theorem runSubmit {input : Bytes} (hspare : lines + (splitLines input).length < UInt64.size)
    (checkOnly : Bool) :
    ∃ bytes' store', Standing path config (lines + (splitLines input).length)
      (runSubmit source checkOnly input d).disk bytes' store' := by
  have hrecord := h.onRecord settings
  rw [hsame] at hrecord
  unfold Command.runSubmit
  obtain ⟨log, hsession⟩ := h.withLedger hload hsame _
  rw [hsession]
  exact h.applyLines hrecord _ hspare checkOnly [] log

theorem runTick (now : String) :
    ∃ bytes' store', Standing path config lines (runTick source now d).disk bytes' store' := by
  have hrecord := h.onRecord settings
  rw [hsame] at hrecord
  unfold Command.runTick
  cases Timestamp.read now with
  | error f => exact ⟨bytes, store, h⟩
  | ok now =>
    obtain ⟨log, hsession⟩ := h.withLedger hload hsame _
    obtain ⟨_, hticked⟩ := hrecord.tick now
    dsimp only
    rw [hsession]
    cases ((opened settings store bytes).tick now).result with
    | error f => exact ⟨_, _, h.keep hticked⟩
    | ok report => exact ⟨_, _, h.keep hticked⟩

/-- A query leaves the disk as it is, also when it is refused. -/
theorem disk_runQuery (query : String) (data : Option String) (id : Option UInt64)
    (leading : Bool) : (runQuery source query data id leading d).disk = d := by
  unfold Command.runQuery
  cases queryData data id with
  | error fault => rfl
  | ok data =>
    obtain ⟨log, hsession⟩ := h.withLedger hload hsame _
    dsimp only
    rw [hsession]
    split <;> rfl

/-- A data directory is not made twice.  The command reports this and touches nothing. -/
theorem disk_runInit : (runInit source d).disk = d := by
  unfold Command.runInit
  obtain ⟨log, hconfig⟩ := withConfig_of_load hload _
  rw [hconfig, if_pos (h.isInitialized hsame)]
  rfl

end Run

/-- Every command leads to a disk that stands, if its settings name no other data directory.  The
case split is on the commands; the bound on lines is needed for submissions only. -/
theorem run (c : Command) (input : Bytes) (hspare : lines + (splitLines input).length < UInt64.size)
    (hsame : ∀ settings, Config.load c.configPath d = .ok settings →
      settings.dataDir = config.dataDir) :
    ∃ bytes' store', Standing path config (lines + (splitLines input).length) (c.run input d).disk
      bytes' store' := by
  have hstays := h.mono (Nat.le_add_right lines (splitLines input).length)
  cases hload : Config.load c.configPath d with
  | error fault =>
    have hdisk := disk_of_load_error hload input
    exact ⟨bytes, store, hdisk.symm ▸ hstays⟩
  | ok settings =>
    have hdir := hsame settings hload
    cases c with
    | init source =>
      have hdisk : (Command.runInit source d).disk = d := h.disk_runInit hload hdir
      exact ⟨bytes, store, hdisk.symm ▸ hstays⟩
    | submit source checkOnly => exact h.runSubmit hload hdir hspare checkOnly
    | tick source now => exact hstays.runTick hload hdir now
    | query source query data id leading =>
      have hdisk := h.disk_runQuery hload hdir query data id leading
      exact ⟨bytes, store, hdisk.symm ▸ hstays⟩

end Standing

/-- Commands in a row lead to a disk that stands.  The induction goes along the commands, from the
one that made the data directory. -/
theorem Reached.standing (h : Reached path config lines d) (hspare : lines < UInt64.size) :
    ∃ bytes store, Standing path config lines d bytes store := by
  induction h with
  | init hload hmade hempty => exact ⟨[], .empty, standing_of_init hload hmade hempty⟩
  | next before c input hsame ih =>
    obtain ⟨bytes, store, hstanding⟩ := ih (by omega)
    exact hstanding.run c input hspare hsame

end Command

end BlogLedger
