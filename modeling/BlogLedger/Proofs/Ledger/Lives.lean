import BlogLedger.Proofs.Ledger.Attempts
import BlogLedger.Proofs.Ledger.Reopening

/-!
# Lives

In its life a ledger is called, closed and opened again, while its journal may refuse records.  As
long as the file of the journal can be cut back, the journal says what the ledger holds, so opening
the ledger again changes nothing.

A record that is written in part spoils everything that is written after it, and a record that is
refused but stays in the file comes back when the ledger is opened.  Both are prevented if the file
is cut back after every failure.  That nothing else has to work is the point of this module: room
may run out and bytes may fail to be made safe at any call, and the ledger can still be opened
again.

## Main Definitions

* `Ledger.Episode` — a turn, and the conditions under which the journal works meanwhile.
* `Ledger.lived` — episodes in a row, on a ledger and the disk it lies on.
* `Ledger.KeptByCommits` — what commits keep, also those that fail.
* `Ledger.Replays`, `Ledger.Kept` — the journal of a ledger says what it holds, and so does the file on
  the disk.

## Main Results

* `Ledger.KeptByCommits.run` — what commits keep is kept by every call.
* `Ledger.replays_keptByCommits` — commits keep the journal in step with the ledger.
* `Ledger.Kept.call`, `Ledger.Kept.reopen` — one episode.

## Design Notes

The conditions belong to an episode and not to the file.  What the file does next is not known
beforehand, and it need not be the same twice.
-/

namespace BlogLedger.Ledger

open JournalRecord (IsReplay)

/-- A turn, and the conditions under which the file of the journal works meanwhile.  Opening a
ledger writes nothing into its journal, so there the conditions have no effect. -/
structure Episode where
  conditions : Conditions
  turn : Turn

/-- The ledger and its disk after an episode; opening may fail.  The disk gets what the ledger has
left in the file, also after a call that failed. -/
def Episode.run (config : Config) (place : Ledger × Disk) (e : Episode) :
    Except Failure (Ledger × Disk) :=
  e.turn.run config (place.1.under e.conditions, place.2)

/-- The ledger and its disk after episodes in a row.  It stops at the first one that fails, as
nothing can be called then. -/
def lived (config : Config) (episodes : List Episode) (place : Ledger × Disk) :
    Except Failure (Ledger × Disk) :=
  episodes.foldlM (Episode.run config) place

/-- What depends on store and journal alone, and is kept by commits, whether they fail or not.
Calls reach the store and the journal by commits only, so such a property has to be shown of
`Ledger.commit` and of nothing else. -/
structure KeptByCommits (P : Ledger → Prop) : Prop where
  congr : ∀ {l m : Ledger}, P l → m.store = l.store → m.journal = l.journal → P m
  commit : ∀ {l : Ledger} {batch : Batch}, P l → batch ≠ [] → P (l.commit batch).ledger

/-- The journal of a ledger lies at a path and says what the ledger holds.  Its file is known to the
last byte, which is more than a replay could tell: bytes after the last record would be replayed as
a broken one. -/
def Replays (path : String) (l : Ledger) : Prop :=
  ∃ j bytes count, l.journal = some j ∧ j.Whole path bytes ∧ IsReplay bytes count .empty l.store

/-- The journal on the disk says what a ledger holds, and it is the journal of the ledger.  The
second part is needed because the ledger writes to the file that it knows, and it is the disk that
is read when it is opened. -/
structure Kept (config : Config) (l : Ledger) (d : Disk) : Prop where
  replays : l.Replays (Journal.pathIn config.dataDir)
  lies : ∀ j, l.journal = some j → Journal.LiesIn config.dataDir j.file d

variable {config : Config} {l : Ledger} {d e : Disk} {path : String} {log : List LogEntry}
  {start place : Ledger × Disk}

/-! ### Episodes in a row -/

theorem lived_append (before later : List Episode) (start : Ledger × Disk) :
    lived config (before ++ later) start = lived config before start >>= lived config later := by
  unfold lived
  rw [List.foldlM_append]

/-- A longer life is a shorter one and a last episode.  Inductions on a life go from its end, since
what is said of an episode is said of the ledger that the ones before have led to. -/
theorem lived_concat {before : List Episode} (h : lived config before start = .ok place)
    (e : Episode) : lived config (before ++ [e]) start = e.run config place := by
  rw [lived_append, h]
  exact bind_pure (Episode.run config place e)

theorem run_call (e : Episode) {c : Call} (hturn : e.turn = .call c) (l : Ledger) (d : Disk) :
    e.run config (l, d)
      = .ok (c.run (l.under e.conditions), d.keep (c.run (l.under e.conditions))) := by
  unfold Episode.run
  rw [hturn]
  rfl

/-! ### What calls keep -/

namespace KeptByCommits

variable {P : Ledger → Prop} (hP : KeptByCommits P)
include hP

theorem deliver (h : P l) (tx : Transaction) : P (l.deliver tx).ledger := by
  rcases deliver_cases tx l with ⟨f, -, -, hledger⟩
    | ⟨outcome, batch, hprepare, ⟨f, -, -, hledger⟩ | ⟨-, -, hledger⟩⟩
  · rw [hledger]
    exact hP.congr h rfl rfl
  · rw [hledger]
    exact hP.congr (hP.commit h (ne_nil_of_prepare hprepare)) rfl rfl
  · rw [hledger]
    exact hP.congr (hP.commit h (ne_nil_of_prepare hprepare)) rfl rfl

theorem fire (h : P l) (now : Timestamp) (id : TaskId) (task : Task) :
    P (l.fire now id task).ledger := by
  cases hfired : firedOn now id task l.store with
  | error f =>
    obtain ⟨-, hstore, hjournal⟩ := fire_of_firedOn_error hfired
    exact hP.congr h hstore hjournal
  | ok left =>
    obtain ⟨firing, s⟩ := left
    obtain ⟨counts, -, hledger⟩ := fire_of_firedOn_ok hfired
    rw [hledger]
    exact hP.commit (hP.congr h rfl rfl) (ne_nil_of_firedOn hfired)

theorem fireAll (h : P l) (now : Timestamp) (due : List (TaskId × Task)) :
    P (l.fireAll now due).ledger := by
  induction due generalizing l with
  | nil => exact h
  | cons x rest ih =>
    obtain ⟨id, task⟩ := x
    have hfirst := hP.fire h now id task
    cases hresult : (l.fire now id task).result with
    | error f =>
      rw [fireAll_cons_error hresult]
      exact hfirst
    | ok firing =>
      rw [fireAll_cons_ok hresult]
      exact ih hfirst

theorem tick (h : P l) (now : Timestamp) : P (l.tick now).ledger := by
  unfold Ledger.tick
  cases l.dueTasks now with
  | error f => exact h
  | ok due =>
    have hdone := hP.fireAll h now due
    dsimp only
    cases (l.fireAll now due).result <;> exact hdone

/-- What commits keep is kept by every call.  A check changes nothing, a transaction commits once or
not at all, and a tick commits once for each task. -/
theorem run (h : P l) (c : Call) : P (c.run l) := by
  cases c with
  | check tx =>
    refine hP.congr h (store_check tx l) ?_
    show (l.check tx).ledger.journal = l.journal
    unfold Ledger.check
    cases l.price tx <;> rfl
  | deliver tx => exact hP.deliver h tx
  | tick now limit =>
    have hlimited : P (l.limited limit) := hP.congr h rfl rfl
    exact hP.tick hlimited now

end KeptByCommits

/-- A journal goes on saying what the ledger holds, since nothing is left of a write that fails.  A
commit that goes through adds its batch to both, and one that fails to neither. -/
theorem replays_keptByCommits (path : String) : KeptByCommits (Replays path) where
  congr h hstore hjournal := by
    unfold Replays
    rw [hstore, hjournal]
    exact h
  commit := by
    rintro l batch ⟨j, bytes, count, hj, hwhole, hreplays⟩ hne
    unfold Ledger.commit
    rw [hj]
    dsimp only
    rcases hwhole.append hne with ⟨hfits, ⟨offset, hoffset⟩, hlater⟩ | ⟨⟨fault, hfault⟩, hlater⟩
    · rcases happend : j.append batch with ⟨result, j'⟩
      rw [happend] at hoffset hlater
      obtain rfl : result = .ok offset := hoffset
      have happended := hreplays.append (List.forall_mem_singleton.2 hfits)
      rw [JournalRecord.inRow_singleton] at happended
      exact ⟨j', _, _, rfl, hlater, happended⟩
    · rcases happend : j.append batch with ⟨result, j'⟩
      rw [happend] at hfault hlater
      obtain rfl : result = .error fault := hfault
      exact ⟨j', _, _, rfl, hlater, hreplays⟩

/-! ### One episode -/

theorem Replays.under (h : l.Replays path) {c : Conditions} (hcut : c.canCut = true) :
    (l.under c).Replays path := by
  obtain ⟨j, bytes, count, hj, hwhole, hreplays⟩ := h
  exact ⟨_, _, _, journal_under hj c, hwhole.under hcut, hreplays⟩

/-- What a ledger wrote is kept on the disk where its journal lies.  Writing the file does not move
it, so it can be found there again. -/
theorem Replays.keep {file : File} (h : l.Replays (Journal.pathIn config.dataDir))
    (hlies : Journal.LiesIn config.dataDir file d) : Kept config l (d.keep l) := by
  refine ⟨h, fun j hj => ?_⟩
  obtain ⟨k, bytes, count, hk, hwhole, -⟩ := h
  obtain rfl : j = k := Option.some.inj (hj.symm.trans hk)
  unfold Disk.keep
  rw [hj]
  dsimp only
  rw [hwhole.path_eq]
  exact hlies.writeFile _

namespace Kept

/-- A call keeps the journal on the disk in step with the ledger, also when writes fail.  It is the
step for calls, and the file need not be known any better than that it can be cut back. -/
theorem call (h : Kept config l d) {c : Conditions} (hcut : c.canCut = true) (call : Call) :
    Kept config (call.run (l.under c)) (d.keep (call.run (l.under c))) := by
  obtain ⟨j, _, _, hj, -, -⟩ := h.replays
  exact ((replays_keptByCommits _).run (h.replays.under hcut) call).keep (h.lies j hj)

/-- A ledger that is closed and opened again holds what it held.  The disk is as it was, and a
ledger that is opened once more will hold the same again. -/
theorem reopen (h : Kept config l d) :
    ∃ l', Turn.run config (l, d) .reopen = .ok (l', d) ∧ l'.store = l.store ∧ Kept config l' d := by
  obtain ⟨j, bytes, count, hj, hwhole, hreplays⟩ := h.replays
  have hlies := h.lies j hj
  rw [← hwhole.bytes_eq] at hreplays
  refine ⟨_, run_reopen hlies hreplays, rfl, ⟨_, _, _, rfl, Journal.whole_ofFile _ _ hwhole.canCut,
    hreplays⟩, fun k hk => ?_⟩
  cases hk
  exact hlies

end Kept

/-- A ledger that was opened on a new journal is kept by it.  It is where every life starts; an
empty journal says that the store is empty. -/
theorem kept_of_openIn (hopen : Ledger.openIn config d = (.ok l, e, log))
    (hfile : e.file? (Journal.pathIn config.dataDir) = some .empty) : Kept config l e := by
  obtain ⟨hjournal, hlies, earlier, hreplays⟩ := openIn_ok hopen hfile (.inl rfl)
  refine ⟨⟨_, _, _, hjournal, Journal.whole_ofFile _ _ rfl, hreplays⟩, fun j hj => ?_⟩
  cases hjournal.symm.trans hj
  exact hlies

end BlogLedger.Ledger
