import BlogLedger.Proofs.Journal.Place
import BlogLedger.Proofs.Ledger.Prediction
import BlogLedger.Proofs.Transition.Layers

/-!
# What calls record

On a journal that takes every record, an accepted transaction writes one record and a fired task
another one, and the store takes the same batches.  Everything else writes nothing.  What a call does
is determined by the store.

Opening a ledger again replays what the journal holds, so what the journal holds must be what was
made part of the store.  The two are written in one place, `Ledger.commit`, but a call reaches it in
several ways and a tick many times.  `Ledger.Wrote` follows both at once: the batches that went to
the file are, in the same order, those that went to the store.  It is composed along a call like the
call itself, and its list of batches is what the counts of records are compared with.

A ledger that was closed and opened again differs from one that was not, in its counters and in the
offset and the count of its journal.  `Ledger.Alike` says that this cannot be noticed: all that a
call reads is the store, and whether a record fits depends on the record alone.

## Main Definitions

* `Ledger.Writes` — a ledger has a journal whose file is in good condition.
* `Ledger.Wrote` — from one ledger to another one, batches were written and made part of the store.
* `Ledger.recordCount` — how many records a call writes.
* `Ledger.firedOn` — what a fired task leaves on a layer of its own.
* `Ledger.Alike` — two ledgers with one store.

## Main Results

* `Ledger.Writes.run` — every call writes as many records as it should.
* `Ledger.length_tick` — a tick that goes through reports as many tasks as it fires.
* `Ledger.Alike.check`, `Ledger.Alike.deliver`, `Ledger.Alike.tick` — ledgers with one store answer
  every call alike.
-/

namespace BlogLedger

open JournalRecord (Fits applyAll inRow)

/-- A write on a layer is pending there, also one that writes what the key holds already.  So a
batch that notes the time is never empty, and an empty batch is the only one that the journal skips. -/
theorem KeySpace.pending_set_ne_nil {s t : KeySpace} (hs : s.parent? = some t)
    (key value : Bytes) : (s.set key value).pending ≠ [] := by
  cases s with
  | base entries => cases hs
  | layer parent writes =>
    have hfound : (writes.insert key (some value)).find? key = some (some value) := by simp
    intro hnil
    have hempty : (writes.insert key (some value)).entries = [] := List.map_eq_nil_iff.1 hnil
    unfold ByteMap.find? at hfound
    rw [hempty] at hfound
    cases hfound

namespace Ledger

/-- The ledger has a journal whose file is in good condition and holds the given bytes.  Only where
no operation on the file fails can the number of records be told from the calls. -/
def Writes (l : Ledger) (path : String) (syncs : Bool) (bytes : Bytes) : Prop :=
  ∃ j, l.journal = some j ∧ j.Ends path syncs bytes

/-- From one ledger to another one, batches were written to the journal and made part of the store,
in one order.  The journal is spoken of through `Ledger.Writes`, for any path, so that the same fact
serves a ledger that has none. -/
structure Wrote (l m : Ledger) (batches : List Batch) : Prop where
  fits : ∀ batch ∈ batches, Fits batch
  store : m.store = applyAll batches l.store
  journal : ∀ path syncs bytes, l.Writes path syncs bytes →
    m.Writes path syncs (bytes ++ inRow batches)

variable {l m n : Ledger} {path : String} {syncs : Bool} {bytes : Bytes} {batch : Batch}
  {first second : List Batch} {tx : Transaction} {now : Timestamp} {id : TaskId} {task : Task}

namespace Wrote

/-- Where store and journal are the same, nothing was written.  It covers refusals, checks and the
counts that are kept along the way. -/
theorem nothing (hstore : m.store = l.store) (hjournal : m.journal = l.journal) :
    l.Wrote m [] := by
  refine ⟨List.forall_mem_nil _, hstore, fun path syncs bytes h => ?_⟩
  obtain ⟨j, hj, hends⟩ := h
  refine ⟨j, hjournal.trans hj, ?_⟩
  rw [JournalRecord.inRow_nil, List.append_nil]
  exact hends

theorem trans (hlm : l.Wrote m first) (hmn : m.Wrote n second) : l.Wrote n (first ++ second) where
  fits := List.forall_mem_append.2 ⟨hlm.fits, hmn.fits⟩
  store := by rw [JournalRecord.applyAll_append, ← hlm.store, hmn.store]
  journal path syncs bytes h := by
    rw [JournalRecord.inRow_append, ← List.append_assoc]
    exact hmn.journal _ _ _ (hlm.journal _ _ _ h)

/-- Only store and journal matter.  The counters that a step adds afterwards are passed over with
it. -/
theorem congr {batches : List Batch} (h : l.Wrote m batches) (hstore : n.store = m.store)
    (hjournal : n.journal = m.journal) : l.Wrote n batches := by
  have hwrote := h.trans (.nothing hstore hjournal)
  rwa [List.append_nil] at hwrote

end Wrote

/-! ### Committing -/

/-- A batch is committed, unless it has no record; then nothing is written.  The journal works, so a
batch of more than 4 GiB is all that it refuses. -/
theorem Writes.commit (h : l.Writes path syncs bytes) (hne : batch ≠ []) :
    Fits batch ∧ (l.commit batch).result = .ok () ∧ l.Wrote (l.commit batch).ledger [batch]
      ∨ ¬ Fits batch ∧ (l.commit batch).result = fail (.storage .oversized)
        ∧ l.Wrote (l.commit batch).ledger [] := by
  obtain ⟨j, hj, hends⟩ := h
  unfold Ledger.commit
  rw [hj]
  dsimp only
  rcases hends.append hne with ⟨hfits, ⟨offset, hoffset⟩, -⟩ | ⟨hfits, happend⟩
  · rcases happend : j.append batch with ⟨result, j'⟩
    obtain rfl : result = .ok offset := by rw [← hoffset, happend]
    refine .inl ⟨hfits, rfl, by simpa using hfits, rfl, fun path syncs bytes hwrites => ?_⟩
    obtain ⟨k, hk, hends'⟩ := hwrites
    -- There is one journal, so what is said of its file is said of the file that was written to.
    obtain rfl : j = k := Option.some.inj (hj.symm.trans hk)
    rcases hends'.append hne with ⟨-, -, hlater⟩ | ⟨hnot, -⟩
    · rw [happend] at hlater
      refine ⟨j', rfl, ?_⟩
      rw [JournalRecord.inRow_singleton]
      exact hlater
    · exact absurd hfits hnot
  · rw [happend]
    exact .inr ⟨hfits, rfl, .nothing rfl hj.symm⟩

/-- Counting writes nothing. -/
theorem Writes.count (h : l.Writes path syncs bytes) (f : Counters → Counters) :
    (l.count f).Writes path syncs bytes := h

/-! ### Transactions -/

/-- A transaction that is prepared writes something, the time at least.  Otherwise the journal would
skip it, and an accepted transaction would have no record. -/
theorem ne_nil_of_prepare {outcome : Outcome} (h : l.prepare tx = .ok (outcome, batch)) :
    batch ≠ [] := by
  unfold prepare at h
  obtain ⟨_, -, h⟩ := Except.bind_eq_ok.1 h
  obtain ⟨handler, -, h⟩ := Except.bind_eq_ok.1 h
  have hstays := Handler.stays_deliver tx.context tx.message handler l.store.cover
  rcases hrun : (handler.deliver tx.context tx.message).run l.store.cover with ⟨outcome | f, s⟩
  · rw [hrun] at h
    cases h
  · rw [hrun] at h hstays
    cases h
    exact KeySpace.pending_set_ne_nil hstays _ _

/-- An accepted transaction writes one record, a refused one none.  So the records of a journal can
be matched with the transactions that were accepted. -/
theorem Writes.deliver (h : l.Writes path syncs bytes) (tx : Transaction) :
    (∃ outcome batch, (l.deliver tx).result = .ok outcome
        ∧ l.Wrote (l.deliver tx).ledger [batch])
      ∨ ∃ f, (l.deliver tx).result = .error f ∧ l.Wrote (l.deliver tx).ledger [] := by
  cases hprepare : l.prepare tx with
  | error f =>
    obtain ⟨hresult, hstore, hjournal⟩ := deliver_of_prepare_error hprepare
    exact .inr ⟨f, hresult, .nothing hstore hjournal⟩
  | ok prepared =>
    obtain ⟨outcome, batch⟩ := prepared
    unfold Ledger.deliver
    rw [hprepare]
    dsimp only
    rcases h.commit (ne_nil_of_prepare hprepare) with ⟨-, hresult, hwrote⟩ | ⟨-, hresult, hwrote⟩
    · rw [hresult]
      exact .inl ⟨outcome, batch, rfl, hwrote.trans (.nothing rfl rfl)⟩
    · rw [hresult]
      exact .inr ⟨_, rfl, hwrote.trans (.nothing rfl rfl)⟩

/-! ### Fired tasks -/

/-- What a fired task leaves on a layer of its own, and how it goes, unless it stops the tick.  It
depends on the store alone, and firing the task is this and one commit.  A message that fails
without being fatal is part of it: the layer then only takes the task out. -/
def firedOn (now : Timestamp) (id : TaskId) (task : Task) (s : KeySpace) :
    Except Failure (Firing × KeySpace) :=
  match (Schedule.take id).run s.cover with
  | (.error f, _) => .error f
  | (.ok _, s) =>
    match prepareTask now id task.message s with
    | .ok (_, batch) =>
      .ok (⟨id, task.runAt, task.message.path, none⟩, writeTime now (batch.apply s))
    | .error f =>
      if f.isFatal then .error f
      else .ok (⟨id, task.runAt, task.message.path, some f.display⟩, writeTime now s)

/-- A task that stops the tick writes nothing.  Its failure is fatal and comes before anything is
committed. -/
theorem fire_of_firedOn_error {f : Failure} (h : firedOn now id task l.store = .error f) :
    (l.fire now id task).result = .error f ∧ (l.fire now id task).ledger.store = l.store
      ∧ (l.fire now id task).ledger.journal = l.journal := by
  unfold firedOn at h
  unfold Ledger.fire
  rcases hrun : (Schedule.take id).run l.store.cover with ⟨g | taken, s⟩
  · rw [hrun] at h
    cases h
    exact ⟨rfl, rfl, rfl⟩
  · rw [hrun] at h
    dsimp only at h ⊢
    cases hprepare : prepareTask now id task.message s with
    | ok prepared =>
      rw [hprepare] at h
      cases h
    | error g =>
      rw [hprepare] at h
      dsimp only at h ⊢
      by_cases hfatal : g.isFatal = true
      · rw [if_pos hfatal] at h ⊢
        cases h
        exact ⟨rfl, rfl, rfl⟩
      · rw [if_neg hfatal] at h
        cases h

/-- A task that goes through, or fails alone, commits what it left on its layer.  The counters
differ between the two, and that is all that is left open. -/
theorem fire_of_firedOn_ok {firing : Firing} {s : KeySpace}
    (h : firedOn now id task l.store = .ok (firing, s)) :
    ∃ counts, (l.fire now id task).result
        = ((l.count counts).commit s.pending).result.map (fun _ => firing)
      ∧ (l.fire now id task).ledger = ((l.count counts).commit s.pending).ledger := by
  unfold firedOn at h
  unfold Ledger.fire
  rcases hrun : (Schedule.take id).run l.store.cover with ⟨g | taken, t⟩
  · rw [hrun] at h
    cases h
  · rw [hrun] at h
    dsimp only at h ⊢
    cases hprepare : prepareTask now id task.message t with
    | ok prepared =>
      rw [hprepare] at h
      cases h
      exact ⟨Counters.countDelivery prepared.1 ∘ Counters.countFiring, rfl, rfl⟩
    | error g =>
      rw [hprepare] at h
      dsimp only at h ⊢
      by_cases hfatal : g.isFatal = true
      · rw [if_pos hfatal] at h
        cases h
      · rw [if_neg hfatal] at h ⊢
        cases h
        exact ⟨Counters.countFailure ∘ Counters.countFiring, rfl, rfl⟩

/-- A task that goes through, or fails alone, writes something, the time at least.  A task whose
message fails is removed by such a record, so it is not fired again after the ledger was opened
again. -/
theorem ne_nil_of_firedOn {firing : Firing} {s t : KeySpace}
    (h : firedOn now id task s = .ok (firing, t)) : t.pending ≠ [] := by
  have hstays := Schedule.stays_take id s.cover
  unfold firedOn at h
  split at h
  · cases h
  · next hrun =>
    rw [hrun] at hstays
    split at h
    · cases h
      exact KeySpace.pending_set_ne_nil ((KeySpace.parent?_apply _ _).trans hstays) _ _
    · split at h
      · cases h
      · cases h
        exact KeySpace.pending_set_ne_nil hstays _ _

/-- A task that is fired writes one record, one that stops the tick none.  A task whose message
fails is fired in this sense. -/
theorem Writes.fire (h : l.Writes path syncs bytes) (now : Timestamp) (id : TaskId) (task : Task) :
    (∃ firing batch, (l.fire now id task).result = .ok firing
        ∧ l.Wrote (l.fire now id task).ledger [batch])
      ∨ ∃ f, (l.fire now id task).result = .error f ∧ l.Wrote (l.fire now id task).ledger [] := by
  cases hfired : firedOn now id task l.store with
  | error f =>
    obtain ⟨hresult, hstore, hjournal⟩ := fire_of_firedOn_error hfired
    exact .inr ⟨f, hresult, .nothing hstore hjournal⟩
  | ok left =>
    obtain ⟨firing, s⟩ := left
    obtain ⟨counts, hresult, hledger⟩ := fire_of_firedOn_ok hfired
    have hcount : l.Wrote (l.count counts) [] := .nothing rfl rfl
    rw [hresult, hledger]
    rcases (h.count counts).commit (ne_nil_of_firedOn hfired)
      with ⟨-, hcommit, hwrote⟩ | ⟨-, hcommit, hwrote⟩
    · rw [hcommit]
      exact .inl ⟨firing, s.pending, rfl, hcount.trans hwrote⟩
    · rw [hcommit]
      exact .inr ⟨_, rfl, hcount.trans hwrote⟩

/-- Tasks in a row write one record each, up to the one that stops the tick.  The induction is on
the tasks, each on the ledger and the bytes that the one before has left. -/
theorem Writes.fireAll (h : l.Writes path syncs bytes) (now : Timestamp)
    (due : List (TaskId × Task)) :
    ∃ batches, batches.length = (l.firedOf now due).length
      ∧ l.Wrote (l.fireAll now due).ledger batches := by
  induction due generalizing l bytes with
  | nil => exact ⟨[], rfl, .nothing rfl rfl⟩
  | cons x rest ih =>
    obtain ⟨id, task⟩ := x
    rcases h.fire now id task with ⟨firing, batch, hok, hwrote⟩ | ⟨f, herror, hwrote⟩
    · obtain ⟨batches, hlength, hrest⟩ := ih (hwrote.journal _ _ _ h)
      rw [fireAll_cons_ok hok, firedOf_cons_ok hok]
      exact ⟨batch :: batches, congrArg Nat.succ hlength, hwrote.trans hrest⟩
    · rw [fireAll_cons_error herror, firedOf_cons_error herror]
      exact ⟨[], rfl, hwrote⟩

/-! ### Calls -/

/-- How many records a call writes: one for a transaction that is accepted, and one for each task
that is fired.  It is read off the answers alone, without looking at the journal. -/
def recordCount (l : Ledger) : Call → Nat
  | .check _ => 0
  | .deliver tx =>
    match (l.deliver tx).result with
    | .ok _ => 1
    | .error _ => 0
  | .tick now limit => ((l.limited limit).fired now).length

theorem Writes.tick (h : l.Writes path syncs bytes) (now : Timestamp) :
    ∃ batches, batches.length = (l.fired now).length ∧ l.Wrote (l.tick now).ledger batches := by
  unfold Ledger.tick fired
  cases l.dueTasks now with
  | error f => exact ⟨[], rfl, .nothing rfl rfl⟩
  | ok due =>
    obtain ⟨batches, hlength, hwrote⟩ := h.fireAll now due
    refine ⟨batches, hlength, ?_⟩
    dsimp only
    cases (l.fireAll now due).result <;> exact hwrote

/-- A call writes as many records as it should.  It is the step lemma for whatever is said about a
journal over a run. -/
theorem Writes.run (h : l.Writes path syncs bytes) (c : Call) :
    ∃ batches, batches.length = l.recordCount c ∧ l.Wrote (c.run l) batches := by
  cases c with
  | check tx =>
    refine ⟨[], rfl, .nothing (store_check tx l) ?_⟩
    show (l.check tx).ledger.journal = l.journal
    unfold Ledger.check
    cases l.price tx <;> rfl
  | deliver tx =>
    rcases h.deliver tx with ⟨outcome, batch, hok, hwrote⟩ | ⟨f, herror, hwrote⟩
    · exact ⟨[batch], by simp only [recordCount, hok, List.length_singleton], hwrote⟩
    · exact ⟨[], by simp only [recordCount, herror, List.length_nil], hwrote⟩
  | tick now limit =>
    have hlimited : (l.limited limit).Writes path syncs bytes := h
    obtain ⟨batches, hlength, hwrote⟩ := hlimited.tick now
    have hlimit : l.Wrote (l.limited limit) [] := .nothing rfl rfl
    exact ⟨batches, hlength, hlimit.trans hwrote⟩

/-- A tick that goes through reports every task that it fires.  Only of a tick that goes through is
there a report to compare. -/
theorem length_fireAll {due : List (TaskId × Task)} {firings : List Firing}
    (h : (l.fireAll now due).result = .ok firings) :
    firings.length = (l.firedOf now due).length := by
  induction due generalizing l firings with
  | nil =>
    cases h
    rfl
  | cons x rest ih =>
    obtain ⟨id, task⟩ := x
    cases hfire : (l.fire now id task).result with
    | error f =>
      rw [fireAll_cons_error hfire] at h
      cases h
    | ok firing =>
      rw [fireAll_cons_ok hfire] at h
      rw [firedOf_cons_ok hfire]
      obtain ⟨others, hothers, rfl⟩ := Except.map_eq_ok.1 h
      exact congrArg Nat.succ (ih hothers)

/-- The report of a tick names as many tasks as were fired. -/
theorem length_tick {report : TickReport} (h : (l.tick now).result = .ok report) :
    report.fired.length = (l.fired now).length := by
  unfold Ledger.tick at h
  unfold fired
  cases hdue : l.dueTasks now with
  | error f =>
    rw [hdue] at h
    cases h
  | ok due =>
    rw [hdue] at h
    dsimp only at h ⊢
    cases hall : (l.fireAll now due).result with
    | error f =>
      rw [hall] at h
      cases h
    | ok firings =>
      rw [hall] at h
      cases h
      exact length_fireAll hall

/-! ### Ledgers with one store -/

/-- Two ledgers have one store, and a journal each whose file is in good condition.  Nothing is said
about what the journals hold, where they lie or whether they sync. -/
structure Alike (l m : Ledger) : Prop where
  store : l.store = m.store
  first : ∃ path syncs bytes, l.Writes path syncs bytes
  second : ∃ path syncs bytes, m.Writes path syncs bytes

namespace Alike

/-- They stay alike when they write the same batches, since the store takes what is written. -/
theorem wrote {l' m' : Ledger} {batches : List Batch} (h : l.Alike m) (hl : l.Wrote l' batches)
    (hm : m.Wrote m' batches) : l'.Alike m' where
  store := by rw [hl.store, hm.store, h.store]
  first := by
    obtain ⟨path, syncs, bytes, hfirst⟩ := h.first
    exact ⟨path, syncs, _, hl.journal _ _ _ hfirst⟩
  second := by
    obtain ⟨path, syncs, bytes, hsecond⟩ := h.second
    exact ⟨path, syncs, _, hm.journal _ _ _ hsecond⟩

/-- What is committed on one of them is committed on the other one.  That is not a matter of course:
a journal could refuse it on one side only, and this is where it is used that both work. -/
theorem commit (h : l.Alike m) (hne : batch ≠ []) :
    (l.commit batch).result = (m.commit batch).result
      ∧ ∃ batches, l.Wrote (l.commit batch).ledger batches
        ∧ m.Wrote (m.commit batch).ledger batches := by
  obtain ⟨_, _, _, hfirst⟩ := h.first
  obtain ⟨_, _, _, hsecond⟩ := h.second
  -- Whether the record fits depends on the batch alone.
  rcases hfirst.commit hne with ⟨hfits, hl, hwrote⟩ | ⟨hfits, hl, hwrote⟩ <;>
    rcases hsecond.commit hne with ⟨hfits', hm, hwrote'⟩ | ⟨hfits', hm, hwrote'⟩
  · exact ⟨hl.trans hm.symm, _, hwrote, hwrote'⟩
  · exact absurd hfits hfits'
  · exact absurd hfits' hfits
  · exact ⟨hl.trans hm.symm, _, hwrote, hwrote'⟩

/-- Checks answer alike. -/
theorem check (h : l.Alike m) (tx : Transaction) :
    (l.check tx).result = (m.check tx).result
      ∧ (l.check tx).ledger.Alike (m.check tx).ledger := by
  have hprice := price_congr h.store tx
  refine ⟨by rw [check_result, check_result, hprice], ?_⟩
  unfold Ledger.check
  rw [hprice]
  cases m.price tx <;> exact ⟨h.store, h.first, h.second⟩

/-- Transactions are answered alike, and write the same records.  The preparation reads nothing but
the store, so the two ledgers prepare the same batch. -/
theorem deliver (h : l.Alike m) (tx : Transaction) :
    (l.deliver tx).result = (m.deliver tx).result
      ∧ ∃ batches, l.Wrote (l.deliver tx).ledger batches
        ∧ m.Wrote (m.deliver tx).ledger batches := by
  unfold Ledger.deliver
  rw [prepare_congr h.store]
  cases hm : m.prepare tx with
  | error f => exact ⟨rfl, [], .nothing rfl rfl, .nothing rfl rfl⟩
  | ok prepared =>
    obtain ⟨outcome, batch⟩ := prepared
    obtain ⟨hcommit, batches, hwrote, hwrote'⟩ := h.commit (ne_nil_of_prepare hm)
    dsimp only
    rw [hcommit]
    cases (m.commit batch).result <;>
      exact ⟨rfl, batches, hwrote.congr rfl rfl, hwrote'.congr rfl rfl⟩

theorem fire (h : l.Alike m) (now : Timestamp) (id : TaskId) (task : Task) :
    (l.fire now id task).result = (m.fire now id task).result
      ∧ (l.fire now id task).ledger.Alike (m.fire now id task).ledger := by
  cases hm : firedOn now id task m.store with
  | error f =>
    obtain ⟨hresult, hstore, hjournal⟩ := fire_of_firedOn_error (h.store ▸ hm)
    obtain ⟨hresult', hstore', hjournal'⟩ := fire_of_firedOn_error hm
    exact ⟨hresult.trans hresult'.symm,
      h.wrote (.nothing hstore hjournal) (.nothing hstore' hjournal')⟩
  | ok left =>
    obtain ⟨firing, s⟩ := left
    obtain ⟨counts, hresult, hledger⟩ := fire_of_firedOn_ok (l := l) (h.store ▸ hm)
    obtain ⟨counts', hresult', hledger'⟩ := fire_of_firedOn_ok hm
    have hcounted : (l.count counts).Alike (m.count counts') := ⟨h.store, h.first, h.second⟩
    obtain ⟨hcommit, _, hwrote, hwrote'⟩ := hcounted.commit (ne_nil_of_firedOn hm)
    rw [hresult, hresult', hledger, hledger', hcommit]
    exact ⟨rfl, hcounted.wrote hwrote hwrote'⟩

/-- Tasks in a row are fired alike, and the same ones.  The tasks are known beforehand; what has to
be carried through the induction is that the ledgers stay alike. -/
theorem fireAll (h : l.Alike m) (now : Timestamp) (due : List (TaskId × Task)) :
    (l.fireAll now due).result = (m.fireAll now due).result
      ∧ l.firedOf now due = m.firedOf now due
      ∧ (l.fireAll now due).ledger.Alike (m.fireAll now due).ledger := by
  induction due generalizing l m with
  | nil => exact ⟨rfl, rfl, h⟩
  | cons x rest ih =>
    obtain ⟨id, task⟩ := x
    obtain ⟨hresult, halike⟩ := h.fire now id task
    cases hm : (m.fire now id task).result with
    | error f =>
      have hl := hresult.trans hm
      rw [fireAll_cons_error hl, fireAll_cons_error hm, firedOf_cons_error hl,
        firedOf_cons_error hm]
      exact ⟨rfl, rfl, halike⟩
    | ok firing =>
      have hl := hresult.trans hm
      obtain ⟨hothers, hfired, hlater⟩ := ih halike
      rw [fireAll_cons_ok hl, fireAll_cons_ok hm, firedOf_cons_ok hl, firedOf_cons_ok hm, hfired]
      exact ⟨congrArg (Except.map (firing :: ·)) hothers, rfl, hlater⟩

/-- Ticks under one limit answer alike.  The limit has to be one, as it is a setting of the ledger
and not in the store. -/
theorem tick (h : l.Alike m) (now : Timestamp) (limit : Nat) :
    ((l.limited limit).tick now).result = ((m.limited limit).tick now).result
      ∧ (l.limited limit).fired now = (m.limited limit).fired now
      ∧ ((l.limited limit).tick now).ledger.Alike ((m.limited limit).tick now).ledger := by
  have hlimited : (l.limited limit).Alike (m.limited limit) := ⟨h.store, h.first, h.second⟩
  have hdue : (l.limited limit).dueTasks now = (m.limited limit).dueTasks now := by
    unfold dueTasks
    rw [ensureTime_congr hlimited.store, hlimited.store]
    rfl
  unfold Ledger.tick fired
  rw [hdue]
  cases (m.limited limit).dueTasks now with
  | error f => exact ⟨rfl, rfl, hlimited⟩
  | ok due =>
    obtain ⟨hresult, hfired, halike⟩ := hlimited.fireAll now due
    dsimp only
    rw [hresult]
    cases ((m.limited limit).fireAll now due).result with
    | error f => exact ⟨rfl, hfired, halike⟩
    | ok firings =>
      unfold pendingTasks
      dsimp only
      rw [halike.store]
      exact ⟨rfl, hfired, halike⟩

/-- Calls leave ledgers alike, and write as many records on both.  A run that is interrupted by
opening the ledger again is compared call by call with one that is not. -/
theorem run (h : l.Alike m) (c : Call) :
    (c.run l).Alike (c.run m) ∧ l.recordCount c = m.recordCount c := by
  cases c with
  | check tx => exact ⟨(h.check tx).2, rfl⟩
  | deliver tx =>
    obtain ⟨hresult, _, hwrote, hwrote'⟩ := h.deliver tx
    exact ⟨h.wrote hwrote hwrote', by simp only [recordCount, hresult]⟩
  | tick now limit =>
    obtain ⟨-, hfired, halike⟩ := h.tick now limit
    exact ⟨halike, congrArg List.length hfired⟩

end Alike

end Ledger

end BlogLedger
