import BlogLedger.Proofs.Journal.Attempts
import BlogLedger.Proofs.Ledger.Deliver

/-!
# Commits on a journal that fails

The store of a ledger takes exactly the batches that its journal acknowledged, however the operations
on the file fail.  So the file of a journal that still takes batches replays to the store.

What the journal does under failing operations is shown without a ledger.  Here a ledger is put on
top of it, and all that has to be added is that the two move together: `Ledger.commit` asks the
journal first and changes the store only when it is told that the record is there.

## Main Definitions

* `Ledger.attempt`, `Ledger.afterAttempts` — batches are committed while operations on the file fail.
* `Ledger.FollowsJournal` — what is certain of a ledger after attempts to commit.

## Main Results

* `Ledger.attempt_cases`, `Ledger.store_attempt` — one attempt, on the journal and on the store.
* `Ledger.followsJournal` — the store follows the journal through attempts in a row.
* `Ledger.attempts_keep_acknowledged` — attempts keep what they acknowledge, in the file and in the
  store.

## Design Notes

A journal that could not cut off a failed write takes no further batches.  Its file may replay to
more than the store holds then, and so the statement on the replay is made only of a journal that
still takes batches.
-/

namespace BlogLedger.Ledger

open Journal (Attempt)
open JournalRecord (IsReplay applyAll)

/-! ### Definitions -/

/-- The same ledger, while the file of its journal works under other conditions.  The conditions are
given with each attempt: a disk can be full now and have room a moment later. -/
def under (c : Conditions) (l : Ledger) : Ledger :=
  { l with journal := l.journal.map (Journal.under c) }

/-- Commit the batch of an attempt under its conditions.  Batches are given from outside and need
not come from a transaction, so what is shown holds of every caller of `Ledger.commit`. -/
def attempt (a : Attempt) (l : Ledger) : Step Unit := (l.under a.conditions).commit a.batch

/-- The ledger after attempts to commit, one after the other; those that fail are made like the
others. -/
def afterAttempts (attempts : List Attempt) (l : Ledger) : Ledger :=
  attempts.foldl (fun l a => (l.attempt a).ledger) l

/-- What is certain of a ledger with a journal on a file with initial bytes, after attempts to commit
that may have failed in any way: the store has taken what the journal acknowledged, and a journal that
still takes batches replays to the store.  A commit that fails leaves the store as it is. -/
structure FollowsJournal (l : Ledger) (j : Journal) (initial : Bytes) (attempts : List Attempt) :
    Prop where
  journal_eq : (l.afterAttempts attempts).journal = some (j.after attempts)
  store_eq : (l.afterAttempts attempts).store = applyAll (j.acknowledged attempts) l.store
  reported : ∀ a, ((l.afterAttempts attempts).attempt a).result = .ok ()
    ↔ ∃ offset, ((j.after attempts).attempt a).1 = .ok offset
  refused : ∀ a f, ((l.afterAttempts attempts).attempt a).result = .error f →
    ((l.afterAttempts attempts).attempt a).ledger.store = (l.afterAttempts attempts).store
  replayed : (j.after attempts).poisoned = false → ∀ count s, IsReplay initial count s l.store →
    IsReplay (j.after attempts).file.bytes (count + (j.acknowledged attempts).length) s
      (l.afterAttempts attempts).store

section

variable {l : Ledger} {j : Journal} (hjournal : l.journal = some j)
include hjournal

/-! ### One attempt -/

theorem journal_under (c : Conditions) : (l.under c).journal = some (j.under c) := by
  rw [under, hjournal]
  rfl

/-- The journal makes the same attempt.  If it succeeds the store takes the batch, and if it fails
that is what is reported and the store stays as it is.  All that follows rests on these two cases. -/
theorem attempt_cases (a : Attempt) :
    (l.attempt a).ledger.journal = some (j.attempt a).2
      ∧ ((∃ offset, (j.attempt a).1 = .ok offset ∧ (l.attempt a).result = .ok ()
          ∧ (l.attempt a).ledger.store = Batch.apply a.batch l.store)
        ∨ ∃ fault, (j.attempt a).1 = .error fault ∧ (l.attempt a).result = fail (.storage fault)
          ∧ (l.attempt a).ledger.store = l.store) := by
  unfold attempt commit
  rw [journal_under hjournal a.conditions]
  cases happend : j.attempt a with
  | mk result later =>
    unfold Journal.attempt at happend
    dsimp only
    rw [happend]
    cases result with
    | error fault => exact ⟨rfl, .inr ⟨fault, rfl, rfl, rfl⟩⟩
    | ok offset => exact ⟨rfl, .inl ⟨offset, rfl, rfl, rfl⟩⟩

/-- The store takes what the journal acknowledges.  An empty batch is acknowledged without being
written, and making it changes nothing, so it needs no case of its own in statements. -/
theorem store_attempt (a : Attempt) :
    (l.attempt a).ledger.store = applyAll (j.taken a) l.store := by
  rcases (attempt_cases hjournal a).2 with ⟨offset, hok, -, hstore⟩ | ⟨fault, herror, -, hstore⟩
  · rw [hstore]
    by_cases hne : a.batch = []
    · rw [hne, Journal.taken_of_nil hne]
      rfl
    · rw [Journal.taken_of_ok hok hne]
      rfl
  · rw [hstore, Journal.taken_of_error herror]
    rfl

/-! ### Attempts in a row -/

/-- The journal makes the same attempts, and the store takes what they acknowledge.  The induction
is on the attempts, each from the ledger and the journal that the one before has left. -/
theorem afterAttempts_eq (attempts : List Attempt) :
    (l.afterAttempts attempts).journal = some (j.after attempts)
      ∧ (l.afterAttempts attempts).store = applyAll (j.acknowledged attempts) l.store := by
  induction attempts generalizing l j with
  | nil => exact ⟨hjournal, rfl⟩
  | cons a attempts ih =>
    obtain ⟨hlater, hstore⟩ := ih (attempt_cases hjournal a).1
    refine ⟨hlater, hstore.trans ?_⟩
    rw [store_attempt hjournal, ← JournalRecord.applyAll_append]
    rfl

/-- The store follows the journal.  Whatever is certain of the journal after the attempts is carried
over to the store here, and nothing is shown about files again. -/
theorem followsJournal {initial : Bytes} {attempts : List Attempt}
    (h : j.KeepsAcknowledged initial attempts) : l.FollowsJournal j initial attempts := by
  obtain ⟨hafter, hstore⟩ := afterAttempts_eq hjournal attempts
  refine ⟨hafter, hstore, fun a => ?_, fun a f hresult => ?_, fun hintact count s hreplay => ?_⟩
  · rcases (attempt_cases hafter a).2 with ⟨offset, hok, hresult, -⟩ | ⟨fault, herror, hresult, -⟩
    · exact ⟨fun _ => ⟨offset, hok⟩, fun _ => hresult⟩
    · rw [hresult, herror]
      constructor
      · intro h
        cases h
      · rintro ⟨offset, h⟩
        cases h
  · rw [attempt] at hresult ⊢
    exact (commit_error hresult).2
  · rw [hstore]
    exact h.replayed hintact count s l.store hreplay

end

/-- A ledger and its journal keep what they acknowledge.  The journal is opened on a file with initial
bytes, and with every batch that is to be written the operations on the file may fail anew: the write
after any beginning of the record, the wait until it is safe, the cut, and the wait for the cut. -/
theorem attempts_keep_acknowledged (path : String) (syncs : Bool) (initial : Bytes)
    (conditions : Conditions) (attempts : List Attempt) (l : Ledger) :
    (Journal.ofFile path ⟨initial, conditions⟩ syncs).KeepsAcknowledged initial attempts
      ∧ { l with journal := some (.ofFile path ⟨initial, conditions⟩ syncs) : Ledger }.FollowsJournal
        (.ofFile path ⟨initial, conditions⟩ syncs) initial attempts := by
  have hkeeps := (Journal.keeps_ofFile path ⟨initial, conditions⟩ syncs).acknowledged attempts
  exact ⟨hkeeps, followsJournal rfl hkeeps⟩

end BlogLedger.Ledger
