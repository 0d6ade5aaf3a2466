import BlogLedger.Proofs.Ledger.History

/-!
# Checks predict

A check looks at a transaction only through its handler's check, and making the transaction goes
through many more stages.  On a ledger that a run leads to, none of those stages can fail.

The direction from a refused check is easy, as making a transaction begins with what the check does.
The other one is where all the soundness goes: indexes must be updated, tasks scheduled and
cancelled, numbers given out, and each of these stages has its own ways to fail.  What excludes them
is that rows, entries and the queue fit together.  Two causes remain that a check cannot foresee, a
sequence without numbers and a journal that does not take the record, and they are the hypotheses.

## Main Definitions

* `Ledger.Predicted` — a transaction is accepted or refused as its check says.

## Main Results

* `Ledger.check_predicts` — it always is, as long as the journal takes the record.
-/

namespace BlogLedger.Ledger

/-- A transaction is accepted or refused as its check says, and nothing is left of a refused one.
Store, time and journal have a field each, as a maintainer would look at each of them separately. -/
structure Predicted (l : Ledger) (tx : Transaction) : Prop where
  accepted_iff : (∃ outcome, (l.deliver tx).result = .ok outcome)
    ↔ ∃ cost, (l.check tx).result = .ok cost
  /-- The whole failure is the same, and with it the code, the message and the field. -/
  refused_iff : ∀ f, (l.deliver tx).result = .error f ↔ (l.check tx).result = .error f
  store_eq : ∀ f, (l.deliver tx).result = .error f → (l.deliver tx).ledger.store = l.store
  lastTime_eq : ∀ f, (l.deliver tx).result = .error f →
    (l.deliver tx).ledger.lastTime = l.lastTime
  journal_eq : ∀ f, (l.deliver tx).result = .error f → (l.deliver tx).ledger.journal = l.journal

variable {l : Ledger} {σ : Snapshot} {tx : Transaction}

/-- A check answers with the price of the transaction.  It counts as well, but the count is not part
of the answer. -/
theorem check_result (tx : Transaction) (l : Ledger) : (l.check tx).result = l.price tx := by
  unfold Ledger.check
  cases l.price tx <;> rfl

/-- A transaction that cannot be prepared is refused, and only the counters change.  Preparing works
on a layer, and so there is nothing to be undone. -/
theorem deliver_of_prepare_error {f : Failure} (hprepare : l.prepare tx = .error f) :
    (l.deliver tx).result = .error f ∧ (l.deliver tx).ledger.store = l.store
      ∧ (l.deliver tx).ledger.journal = l.journal := by
  unfold Ledger.deliver
  rw [hprepare]
  exact ⟨rfl, rfl, rfl⟩

/-- A transaction that is prepared is accepted once the journal has taken its record.  No stage
after the commit can fail. -/
theorem deliver_of_prepare_ok {outcome : Outcome} {batch : Batch}
    (hprepare : l.prepare tx = .ok (outcome, batch)) (hcommit : (l.commit batch).result = .ok ()) :
    (l.deliver tx).result = .ok outcome := by
  unfold Ledger.deliver
  rw [hprepare]
  dsimp only
  rw [hcommit]

/-- A transaction that is prepared fails with the journal.  The failure is handed on as it is. -/
theorem deliver_of_commit_error {outcome : Outcome} {batch : Batch} {f : Failure}
    (hprepare : l.prepare tx = .ok (outcome, batch)) (hcommit : (l.commit batch).result = .error f) :
    (l.deliver tx).result = .error f := by
  unfold Ledger.deliver
  rw [hprepare]
  dsimp only
  rw [hcommit]
  rfl

/-- On a sound snapshot the stages after the check cannot fail.  If the check refuses, the same
failure ends the preparation; if it accepts, the preparation goes through and the journal is assumed
to take the record. -/
theorem Shows.predicted (h : l.Shows σ) (hspare : σ.Spare tx.message)
    (hjournal : ∀ outcome batch, l.prepare tx = .ok (outcome, batch) →
      (l.commit batch).result = .ok ()) : l.Predicted tx := by
  cases hprice : l.price tx with
  | error f =>
    -- What the check refuses is refused before anything is written.
    obtain ⟨hresult, hstore, hkept⟩ := deliver_of_prepare_error (prepare_error hprice)
    have hcheck : (l.check tx).result = .error f := (check_result tx l).trans hprice
    refine ⟨?_, ?_, fun _ _ => hstore, fun _ _ => ?_, fun _ _ => hkept⟩
    · rw [hresult, hcheck]
      exact iff_of_false nofun nofun
    · intro g
      rw [hresult, hcheck, Except.error.injEq, Except.error.injEq]
    · unfold Ledger.lastTime
      rw [hstore]
  | ok cost =>
    -- What it accepts goes through every later stage, so the other three parts are vacuous.
    obtain ⟨-, outcome, τ, s, -, hprepare, -, -⟩ := prepare_of_price h hspare hprice
    have hresult := deliver_of_prepare_ok hprepare (hjournal outcome s.pending hprepare)
    have hcheck : (l.check tx).result = .ok cost := (check_result tx l).trans hprice
    have hnever : ∀ f, (l.deliver tx).result ≠ .error f := by
      intro f
      rw [hresult]
      exact nofun
    refine ⟨iff_of_true ⟨outcome, hresult⟩ ⟨cost, hcheck⟩, ?_, fun f herror => absurd herror
      (hnever f), fun f herror => absurd herror (hnever f), fun f herror => absurd herror
      (hnever f)⟩
    intro f
    rw [hcheck]
    exact iff_of_false (hnever f) nofun

/-- A check predicts what becomes of a transaction on the same ledger.  On another ledger it may be
wrong: what is checked is not reserved. -/
theorem check_predicts (h : l.Reachable) (hnext : ∀ q, tx.message.Takes q → l.HasNext q)
    (hjournal : ∀ outcome batch, l.prepare tx = .ok (outcome, batch) →
      (l.commit batch).result = .ok ()) : l.Predicted tx :=
  h.shows.predicted (fun q hq => (h.shows.hasNext_iff q).1 (hnext q hq)) hjournal

theorem check_predicts_sample :
    sample.Reachable ∧ (∀ q, sample.HasNext q)
      ∧ sample.Predicted ⟨⟨300⟩, some sampleOwner, .deleteArticle ⟨1⟩⟩ :=
  ⟨sample_reachable, sample_hasNext, check_predicts sample_reachable
    (fun q _ => sample_hasNext q) fun _ batch _ => commit_of_volatile sample_volatile batch⟩

end BlogLedger.Ledger
