import BlogLedger.Proofs.Ledger.Numbers

/-!
# Refused transactions that happen

A transaction is refused when its record is in the file but cannot be made safe.  The record is cut off
then.  If that fails too the journal takes no more records, but the file still holds the one that was
refused, and nothing tells it from the others.  So the transaction has happened as soon as the ledger is
opened again: from then on the ledger answers like one that accepted it.

This is why the results on ledgers that are opened again ask for a file that can be cut back.  Without
it, a user who was refused is there all the same and has the number that belongs to the first user who
is accepted.

## Main Definitions

* `Conditions.uncut` — bytes are added that can neither be made safe nor be cut off.
* `Ledger.uncutEpisodes` — a transaction meets such a file, and then the ledger is opened again.

## Main Results

* `Journal.Ends.append_uncut` — the record is refused and stays.
* `Ledger.InStep.resurfaces` — the refused transaction has happened.
* `Ledger.not_numbersOnce_uncut` — so a number can be lost to a transaction that was refused.

## Design Notes

The transaction must be one that would be accepted.  One that is refused by its handler writes no
record, and there is nothing that could come back.

Only the case is followed in which all of the record is in the file.  It is the one in which the
ledger can be opened again without complaint, and therefore the one that goes unnoticed.
-/

namespace BlogLedger

open JournalRecord (Fits frame)

/-- Bytes are added to the file in full, but they can neither be made safe nor be cut off.  A device
that has room and fails at everything else behaves like this. -/
def Conditions.uncut : Conditions := { Conditions.good with canSync := false, canCut := false }

/-! ### The record stays -/

namespace Journal

variable {path : String} {bytes : Bytes} {batch : Batch} {j : Journal}

/-- A record that can neither be made safe nor be cut off is refused and stays in the file.  The
file that is left has the same bytes as if the record had been accepted. -/
theorem Ends.append_uncut (h : j.Ends path true bytes) (hfits : Fits batch) (hne : batch ≠ []) :
    ∃ k, (j.under .uncut).append batch = (.error .syncFailed, k) ∧ k.path = path
      ∧ k.file = ⟨bytes ++ frame batch.encode, .uncut⟩ := by
  have hfile : (j.under .uncut).file = ⟨bytes, .uncut⟩ := by
    unfold Journal.under
    rw [h.file_eq]
  have hadded : (j.under .uncut).file.append (frame batch.encode)
      = (true, ⟨bytes ++ frame batch.encode, .uncut⟩) := by
    rw [hfile]
    simp [File.append, File.room, Conditions.uncut, Conditions.good]
  have hrefused : (j.under .uncut).writeRecord (frame batch.encode) = (.error .syncFailed,
      { j.under .uncut with file := ⟨bytes ++ frame batch.encode, .uncut⟩ }) := by
    unfold writeRecord
    rw [hadded]
    simp [Journal.under, h.syncs_eq, File.sync, Conditions.uncut]
  refine ⟨Journal.discardTail
    { j.under .uncut with file := ⟨bytes ++ frame batch.encode, .uncut⟩ }, ?_, h.path_eq, ?_⟩
  · have hempty : ¬ batch.isEmpty = true := by simpa using hne
    have hintact : ¬ (j.under .uncut).poisoned = true := by simp [Journal.under, h.intact]
    unfold Journal.append
    rw [if_neg hempty, if_neg hintact, JournalRecord.encode_of_fits hfits]
    dsimp only
    rw [hrefused]
  · simp [discardTail, File.cut, Conditions.uncut]

end Journal

namespace Ledger

open JournalRecord (IsReplay)

variable {config : Config} {never l : Ledger} {d : Disk} {path : String} {bytes : Bytes}
  {count : Nat} {tx : Transaction} {outcome : Outcome}

/-- A transaction that would be accepted is refused, and the file of the journal has become what it
would be.  The ledger itself does not show it: its store is as before, and so are its answers to
queries. -/
theorem Writes.deliver_uncut (h : l.Writes path true bytes)
    (hok : (l.deliver tx).result = .ok outcome) :
    ((l.under .uncut).deliver tx).result = fail (.storage .syncFailed)
      ∧ ((l.under .uncut).deliver tx).ledger.store = l.store
      ∧ ∃ batch, Fits batch ∧ l.Wrote (l.deliver tx).ledger [batch]
        ∧ ∃ k, ((l.under .uncut).deliver tx).ledger.journal = some k ∧ k.path = path
          ∧ k.file = ⟨bytes ++ frame batch.encode, .uncut⟩ := by
  cases hprepare : l.prepare tx with
  | error f =>
    obtain ⟨herror, -, -⟩ := deliver_of_prepare_error hprepare
    cases herror.symm.trans hok
  | ok prepared =>
    obtain ⟨outcome', batch⟩ := prepared
    have hne := ne_nil_of_prepare hprepare
    have hunder : (l.under .uncut).prepare tx = .ok (outcome', batch) :=
      (prepare_congr rfl tx).trans hprepare
    unfold Ledger.deliver at hok ⊢
    rw [hprepare] at hok
    rw [hunder, hprepare]
    dsimp only at hok ⊢
    -- The writes do not depend on the conditions of the file, so only the commits differ.
    rcases h.commit hne with ⟨hfits, hresult, hwrote⟩ | ⟨-, hresult, -⟩
    · obtain ⟨j, hj, hends⟩ := h
      obtain ⟨k, happend, hpath, hfile⟩ := hends.append_uncut hfits hne
      have hcommit : (l.under .uncut).commit batch = ⟨fail (.storage .syncFailed),
          { l.under .uncut with journal := some k }, []⟩ := by
        unfold Ledger.commit
        rw [journal_under hj]
        dsimp only
        rw [happend]
      rw [hresult, hcommit]
      exact ⟨rfl, rfl, batch, hfits, hwrote.trans (.nothing rfl rfl), k, rfl, hpath, hfile⟩
    · rw [hresult] at hok
      cases hok

/-! ### The transaction has happened -/

/-- A transaction whose record can neither be made safe nor be cut off, and the ledger is closed and
opened again.  Two episodes are enough, as the failure is the first thing that happens. -/
def uncutEpisodes (tx : Transaction) : List Episode :=
  [⟨.uncut, .call (.deliver tx)⟩, ⟨.good, .reopen⟩]

/-- A transaction that would be accepted is refused, and once the ledger is opened again it has
happened: the ledger cannot be told from one that accepted it. -/
theorem InStep.resurfaces (h : InStep config never l d bytes count)
    (hsyncs : config.journalFsync = true) (hok : (l.deliver tx).result = .ok outcome) :
    ((l.under .uncut).deliver tx).result = fail (.storage .syncFailed)
      ∧ ((l.under .uncut).deliver tx).ledger.store = l.store
      ∧ ∃ l' d', lived config (uncutEpisodes tx) (l, d) = .ok (l', d')
        ∧ (l'.under .good).Alike (l.deliver tx).ledger := by
  have hwrites := hsyncs ▸ h.writes
  obtain ⟨hresult, hstore, batch, hfits, hwrote, k, hk, hpath, hfile⟩ := hwrites.deliver_uncut hok
  have hlater := hwrote.journal _ _ _ hwrites
  have hkeep : d.keep ((l.under .uncut).deliver tx).ledger
      = d.writeFile (Journal.pathIn config.dataDir) ⟨bytes ++ frame batch.encode, .uncut⟩ := by
    unfold Disk.keep
    rw [hk]
    dsimp only
    rw [hpath, hfile]
  -- The record that stayed is at the end of the others, and is replayed after them.
  have hlies := h.lies.writeFile ⟨bytes ++ frame batch.encode, .uncut⟩
  have hreplays := h.replays.append (List.forall_mem_singleton.2 hfits)
  rw [JournalRecord.inRow_singleton] at hreplays
  have hcalled : lived config [⟨.uncut, .call (.deliver tx)⟩] (l, d)
      = .ok (((l.under .uncut).deliver tx).ledger,
        d.writeFile (Journal.pathIn config.dataDir) ⟨bytes ++ frame batch.encode, .uncut⟩) := by
    rw [← hkeep]
    rfl
  have hreopened := (lived_concat hcalled ⟨.good, .reopen⟩).trans (run_reopen hlies hreplays)
  refine ⟨hresult, hstore, _, _, hreopened, hwrote.store.symm, ?_, _, _, _, hlater⟩
  exact ⟨_, _, _, _, rfl, Journal.ends_ofFile _ _ (bytes ++ frame batch.encode)⟩

/-- A ledger that was opened on a new journal is in step with itself.  So the general result on
turns can start from it. -/
theorem OpenedNew.inStep {start : Ledger × Disk} (h : OpenedNew config start) :
    ∃ earlier, InStep config start.1 start.1 start.2 [] earlier := by
  obtain ⟨d, log, hopen, hfile⟩ := h
  exact inStep_of_openIn hopen hfile (.inl rfl)

/-! ### A number that is lost -/

/-- A record that was refused is not counted, also when it comes back.  The count goes by what
signers were told. -/
theorem createdIn_uncutEpisodes {f : Failure}
    (hresult : ((l.under .uncut).deliver tx).result = .error f) (kind : RecordKind) :
    createdIn config kind (uncutEpisodes tx) (l, d) = 0 := by
  have hnot : ¬ Takes kind.sequence (l.under .uncut) (.deliver tx) := by
    rintro ⟨-, outcome, hok⟩
    cases hresult.symm.trans hok
  have hnone : lived config [] (l, d) = .ok (l, d) := rfl
  have hcalled := lived_concat hnone ⟨.uncut, .call (.deliver tx)⟩
  rw [run_call _ rfl] at hcalled
  refine (createdIn_concat kind ⟨.good, .reopen⟩ hcalled).trans ?_
  refine (createdIn_concat kind ⟨.uncut, .call (.deliver tx)⟩ hnone).trans ?_
  exact (Nat.zero_add _).trans (created_of_not_takes hnot)

/-- As long as the ledger is not opened again, what a refused transaction leaves does not come back.
It is used to show that the two episodes are the beginning of a life, in which the numbers that are
taken must be known to be left. -/
theorem retractable_uncut (tx : Transaction) : Retractable [⟨.uncut, .call (.deliver tx)⟩] := by
  intro before e hfront hturn
  obtain rfl := List.mem_singleton.1 (hfront.subset List.mem_concat_self)
  cases hturn

theorem HasNext.of_store_eq {m : Ledger} {q : Sequence} (h : m.HasNext q)
    (hstore : l.store = m.store) : l.HasNext q := by
  unfold HasNext
  rw [hstore]
  exact h

/-- The life of a fresh ledger can begin like this, and any transaction can follow.  Three episodes
take three numbers at most, so none of them is the last one. -/
theorem life_uncut (hopened : OpenedNew config (l, d)) (hfresh : l.store = .empty)
    (hsyncs : config.journalFsync = true) (hok : (l.deliver tx).result = .ok outcome)
    (later : Transaction) :
    Life config (l, d) (uncutEpisodes tx ++ [⟨.good, .call (.deliver later)⟩]) := by
  have hone : 1 < UInt64.size - 1 := by decide
  have hrefused := life_of_length hopened hfresh (retractable_uncut tx) hone
  have hreopened : Life config (l, d) ([⟨.uncut, .call (.deliver tx)⟩] ++ [⟨.good, .reopen⟩]) :=
    life_concat.2 ⟨hrefused, fun _ => hopened, fun c l d q hturn => by cases hturn⟩
  refine life_concat.2 ⟨hreopened, fun _ => hopened, fun c m d' q hturn hlived _ => ?_⟩
  obtain ⟨earlier, hstep⟩ := hopened.inStep
  obtain ⟨-, -, l', d'', hlived', halike⟩ := hstep.resurfaces hsyncs hok
  cases hlived.symm.trans hlived'
  -- The store is that of a ledger with one accepted transaction.
  have hrun : l.Run [.deliver tx] := run_of_length hfresh hone
  exact (hrun.hasNext_of_length hone q).of_store_eq halike.store

/-- A user who is refused. -/
def refusedUser : Transaction := ⟨⟨100⟩, none, .createUser "maria_w" none⟩

/-- A user who is accepted after the ledger was opened again. -/
def laterUser : Transaction := ⟨⟨200⟩, none, .createUser "ada_king" none⟩

/-- The refused user could have been accepted, and the later one would be the second one then. -/
theorem exists_outcome_sample : (∃ outcome, (sampleStart.deliver refusedUser).result = .ok outcome)
    ∧ ∃ outcome, ((sampleStart.deliver refusedUser).ledger.deliver laterUser).result = .ok outcome
      ∧ outcome.id = some ⟨2⟩ := by
  have hfirst : (sampleStart.deliver refusedUser).result.toOption.bind (·.id) = some ⟨1⟩ := by
    decide +kernel
  have hsecond : ((sampleStart.deliver refusedUser).ledger.deliver laterUser).result.toOption.bind
      (·.id) = some ⟨2⟩ := by decide +kernel
  obtain ⟨outcome, hok, -⟩ := Except.exists_ok_of_bind hfirst
  exact ⟨⟨outcome, hok⟩, Except.exists_ok_of_bind hsecond⟩

/-- Without a file that can be cut back a number can be lost: the first user who is accepted gets the
second number, since a user who was refused has the first one. -/
theorem not_numbersOnce_uncut :
    ¬ ∀ config start episodes, Life config start episodes → NumbersOnce config start episodes := by
  intro h
  obtain ⟨⟨outcome, hok⟩, later, hlater, hsecond⟩ := exists_outcome_sample
  have hlife := life_uncut openedNew_sample rfl rfl hok laterUser
  obtain ⟨earlier, hstep⟩ := openedNew_sample.inStep
  obtain ⟨hrefused, -, l, d, hlived, halike⟩ := hstep.resurfaces rfl hok
  have hresult := (halike.deliver laterUser).1.trans hlater
  obtain ⟨id, hid, hcount, -⟩ := (h _ _ _ hlife).creates (uncutEpisodes refusedUser) _ laterUser l d
    later .user (List.prefix_refl _) rfl hlived hresult rfl
  rw [createdIn_uncutEpisodes hrefused] at hcount
  cases hid.symm.trans hsecond
  exact absurd hcount (by decide)

end Ledger

end BlogLedger
