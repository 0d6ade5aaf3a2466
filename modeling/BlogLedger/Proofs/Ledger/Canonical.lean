import BlogLedger.Proofs.Ledger.History
import BlogLedger.Proofs.Snapshot.Entry

/-!
# The store is canonical

Every key of the store is there for something that the ledger keeps, so calls that lead to the same
records, sequences, tasks and time lead to the same store.

Two replicas that were asked for the same things in different orders, or that took back different
things on the way, should be byte for byte the same.  For this no key may be a trace of the past:
not an index entry that has become empty, not the record of something deleted, not the place of a
task that was cancelled.  The only traces that stay are the last numbers of sequences and the time,
and the statement says of each of them when it appears.

## Main Definitions

* `Ledger.Canonical` — what the calls of a run leave in the store.

## Main Results

* `Ledger.store_canonical` — every run leaves just that.
-/

namespace BlogLedger.Ledger

/-- The calls of a run leave in the store what the ledger keeps, and no other key.  The first field
gives the whole content; the others say of the kinds of keys that are less obvious when they are
there. -/
structure Canonical (start : Ledger) (calls : List Call) : Prop where
  /-- The keys and values of the store are those of the records, numbers, tasks and time.  This is
  an equivalence, so it also says which keys are not there. -/
  get_iff : ∀ key value, (start.after calls).store.get key = some value
    ↔ (start.after calls).snapshot.Entry key value
  /-- An index has a key for every value that a record has.  A value that no record has any more has
  none. -/
  has_index_iff : ∀ b t, (b, t) ∈ (start.after calls).snapshot.tables →
    ∀ index ∈ b.indexes, ∀ value, (start.after calls).store.has (b.indexKey index.name value)
      ↔ ∃ id r, t.row id = some r ∧ index.value r = .ok (some value)
  /-- A sequence has a key once a number was given out. -/
  has_sequence_iff : ∀ q : Sequence,
    (start.after calls).store.has q.key ↔ start.Happened calls (Takes q)
  /-- The time has a key once something was committed. -/
  has_time_iff : (start.after calls).store.has timeKey ↔ start.Happened calls Commits
  /-- Other calls that lead to the same snapshot lead to the same store. -/
  store_eq : ∀ l : Ledger, l.Reachable → l.snapshot = (start.after calls).snapshot →
    l.store = (start.after calls).store

variable {start l l' : Ledger} {calls : List Call} {c : Call} {σ τ : Snapshot}

/-- The snapshot determines the store.  Stores are compared key by key, which is enough, since
entries are ordered by key and none is written twice. -/
theorem Shows.store_eq (h : l.Shows σ) (h' : l'.Shows σ) : l.store = l'.store :=
  KeySpace.eq_of_get_eq h.base h'.base (h.stored.get_eq h'.stored)

/-- The time is set by every commit and never unset.  It is a mark in the sense of
`Ledger.Run.mark_iff`, and so are the sequences. -/
theorem Effect.time_ne_unset_iff (h : Effect l σ c τ) :
    τ.time ≠ .unset ↔ σ.time ≠ .unset ∨ Commits l c := by
  cases h with
  | check tx => exact (or_iff_left id).symm
  | refused tx f result =>
    refine (or_iff_left ?_).symm
    rintro ⟨outcome, hok⟩
    cases result.symm.trans hok
  | accepted tx outcome τ result usable spare change =>
    exact iff_of_true usable.ne_unset (.inr ⟨outcome, result⟩)
  | tick now limit usable =>
    show (if _ then σ.time else now) ≠ _ ↔ _ ∨ (l.limited limit).fired now ≠ []
    by_cases hfired : (l.limited limit).fired now = []
    · rw [if_pos hfired]
      exact (or_iff_left fun hne => hne hfired).symm
    · rw [if_neg hfired]
      exact iff_of_true (usable hfired).ne_unset (.inr hfired)

/-- A sequence has a key exactly when its last number is not zero. -/
theorem Shows.has_sequence (h : l.Shows σ) (q : Sequence) :
    l.store.has q.key ↔ σ.last q ≠ 0 := by
  unfold KeySpace.has
  rw [h.stored.get_sequence q]
  by_cases hlast : σ.last q = 0
  · rw [if_pos hlast]
    exact iff_of_false Bool.false_ne_true fun hne => hne hlast
  · rw [if_neg hlast]
    exact iff_of_true rfl hlast

/-- The time has a key exactly when it is set. -/
theorem Shows.has_time (h : l.Shows σ) : l.store.has timeKey ↔ σ.time ≠ .unset := by
  unfold KeySpace.has
  rw [h.stored.time.get]
  unfold Snapshot.timeBytes
  by_cases hset : σ.time = .unset
  · rw [if_pos hset]
    exact iff_of_false Bool.false_ne_true fun hne => hne hset
  · rw [if_neg hset]
    exact iff_of_true rfl hset

/-- Every run leaves in the store what the ledger keeps, whatever the calls were. -/
theorem store_canonical (h : start.Run calls) : Canonical start calls where
  get_iff key value := h.shows.stored.get_iff
  has_index_iff b t hmem index hindex value := (h.shows.stored.holds hmem).has_indexKey hindex
  has_sequence_iff q := (h.shows.has_sequence q).trans (h.last_ne_zero_iff q)
  has_time_iff := by
    rw [h.shows.has_time]
    exact h.mark_iff (fun σ => σ.time ≠ .unset) (fun hne => hne rfl) Effect.time_ne_unset_iff
  store_eq l hl hsnapshot := by
    have hshows := hl.shows
    rw [hsnapshot] at hshows
    exact hshows.store_eq h.shows

theorem store_canonical_sample :
    volatile.Run sampleCalls ∧ sample.store.entries.length = 12 ∧ Canonical volatile sampleCalls :=
  ⟨sample_run, by decide +kernel, store_canonical sample_run⟩

end BlogLedger.Ledger
