import BlogLedger.Proofs.KeySpace.Layers
import BlogLedger.Proofs.Transition.Delivery

/-!
# Transactions

A transaction that its check accepts makes its change on a layer, and the layer becomes part of the
store unless the journal refuses it.  A transaction that is refused leaves the store as it is.

Most of what lies above this module speaks of snapshots: a ledger shows one, a transaction exchanges
it for another one, and which keys were written along the way no longer matters.  A result that
needs the writes themselves, such as the one on journal records, starts again from the cases that a
commit and a transaction can come to.

## Main Definitions

* `Ledger.Shows` — the store of a ledger holds a sound snapshot.

## Main Results

* `Ledger.commit_cases`, `Ledger.deliver_cases` — what a commit and a transaction can come to.
* `Ledger.prepare_of_price` — an accepted transaction is prepared in full.
* `Ledger.prepare_error` — a refused one is refused in the same words.
* `Ledger.Shows.deliver_ok` — after a transaction that is made the store holds the changed snapshot.
* `Ledger.store_of_deliver_error` — after one that fails the store is as it was.
-/

namespace BlogLedger.Ledger

/-- The store of a ledger lies on nothing and holds a sound snapshot.  Soundness is part of it
because it is what makes a change go through: on an unsound store a deletion can meet an index entry
that is missing and fail where its check succeeded. -/
structure Shows (l : Ledger) (σ : Snapshot) : Prop where
  base : l.store.parent? = none
  stored : σ.Stored l.store
  sound : σ.Sound

variable {l : Ledger} {σ : Snapshot} {tx : Transaction}

/-- Only the store matters.  Counters, limits and the journal change from call to call, and what a
ledger shows is carried over such changes by this. -/
theorem Shows.of_store_eq {l' : Ledger} (h : l.Shows σ) (hstore : l'.store = l.store) :
    l'.Shows σ := by
  obtain ⟨hbase, hstored, hsound⟩ := h
  rw [← hstore] at hbase hstored
  exact ⟨hbase, hstored, hsound⟩

/-! ### Time -/

theorem Shows.lastTime (h : l.Shows σ) : l.lastTime = .ok σ.time := by
  unfold Ledger.lastTime
  rw [h.stored.time.get]
  unfold Snapshot.timeBytes
  by_cases hset : σ.time = .unset
  · rw [if_pos hset, hset]
  · rw [if_neg hset]
    simp only [Timestamp.ofKey?_key]

theorem ensureTime_congr {l' : Ledger} (hstore : l'.store = l.store) (t : Timestamp) :
    l'.ensureTime t = l.ensureTime t := by
  unfold ensureTime Ledger.lastTime
  rw [hstore]

/-- A time that is not refused can be the time of a transition: it is positive and the calendar can
show it.  Both are needed later, positive times for the stored time to be told from none, and times
that can be shown for the bound of what is due. -/
theorem usable_of_ensureTime {t : Timestamp} (h : l.ensureTime t = .ok ()) : t.Usable := by
  unfold ensureTime at h
  by_cases hpositive : t ≤ .unset
  · rw [if_pos hpositive] at h
    cases h
  · rw [if_neg hpositive] at h
    by_cases hshown : t.IsRepresentable
    · refine ⟨?_, hshown⟩
      rw [Timestamp.le_iff] at hpositive
      rw [Timestamp.lt_iff]
      omega
    · rw [if_pos hshown] at h
      cases h

/-! ### Committing -/

/-- What a commit can come to: there is no journal and the store takes the batch, or the journal
refuses it, or journal and store take it.  There is no case in which only one of them does, as far
as the ledger can see. -/
theorem commit_cases (batch : Batch) (l : Ledger) :
    l.journal = none
        ∧ l.commit batch = ⟨.ok (), { l with store := batch.apply l.store }, []⟩
      ∨ (∃ j k fault, l.journal = some j ∧ j.append batch = (.error fault, k)
        ∧ l.commit batch = ⟨fail (.storage fault), { l with journal := some k }, []⟩)
      ∨ ∃ j k offset log, l.journal = some j ∧ j.append batch = (.ok offset, k)
        ∧ l.commit batch = ⟨.ok (), { l.count Counters.countRecord with
            store := batch.apply l.store, journal := some k }, log⟩ := by
  unfold Ledger.commit
  cases l.journal with
  | none => exact .inl ⟨rfl, rfl⟩
  | some j =>
    rcases happend : j.append batch with ⟨fault | offset, k⟩
    · exact .inr (.inl ⟨j, k, fault, rfl, happend, by simp only [happend]⟩)
    · exact .inr (.inr ⟨j, k, offset, _, rfl, happend, by simp only [happend]; rfl⟩)

/-- A batch that is committed goes to the store. -/
theorem store_commit {batch : Batch} (hok : (l.commit batch).result = .ok ()) :
    (l.commit batch).ledger.store = batch.apply l.store := by
  rcases commit_cases batch l with ⟨-, h⟩ | ⟨j, k, fault, -, -, h⟩ | ⟨j, k, offset, log, -, -, h⟩
  · rw [h]
  · rw [h] at hok
    cases hok
  · rw [h]

/-- What a layer on the store shows is what the store shows once the journal has taken the layer.
So an edit is analysed on the layer it runs on, and nothing has to be said again about the store. -/
theorem get_commit {s : KeySpace} (hparent : s.parent? = some l.store)
    (hok : (l.commit s.pending).result = .ok ()) (key : Bytes) :
    (l.commit s.pending).ledger.store.get key = s.get key := by
  rw [store_commit hok]
  exact KeySpace.get_apply_pending hparent key

/-- Without a journal every batch is taken. -/
theorem commit_of_volatile (h : l.journal = none) (batch : Batch) :
    (l.commit batch).result = .ok () := by
  unfold Ledger.commit
  rw [h]

/-- A write to the journal that fails is a storage fault and leaves the store as it is.  The file
may hold bytes of the record all the same; nothing here speaks of it. -/
theorem commit_error {batch : Batch} {f : Failure} (herror : (l.commit batch).result = .error f) :
    (∃ fault, f = .of (.storage fault)) ∧ (l.commit batch).ledger.store = l.store := by
  rcases commit_cases batch l with ⟨-, h⟩ | ⟨j, k, fault, -, -, h⟩ | ⟨j, k, offset, log, -, -, h⟩
  · rw [h] at herror
    cases herror
  · rw [h] at herror ⊢
    cases herror
    exact ⟨⟨fault, rfl⟩, rfl⟩
  · rw [h] at herror
    cases herror

theorem parent?_commit (hbase : l.store.parent? = none) (batch : Batch) :
    (l.commit batch).ledger.store.parent? = none := by
  have happlied : (batch.apply l.store).parent? = none :=
    (KeySpace.parent?_apply batch l.store).trans hbase
  rcases commit_cases batch l with ⟨-, h⟩ | ⟨j, k, fault, -, -, h⟩ | ⟨j, k, offset, log, -, -, h⟩
  · rw [h]
    exact happlied
  · rw [h]
    exact hbase
  · rw [h]
    exact happlied

/-- A layer that stores a sound snapshot is committed.  This is the only place where a snapshot
moves from a layer to the store, for transactions and for fired tasks alike. -/
theorem Shows.commit (h : l.Shows σ) {s : KeySpace} {τ : Snapshot}
    (hparent : s.parent? = some l.store) (hs : τ.Stored s) (hτ : τ.Sound)
    (hok : (l.commit s.pending).result = .ok ()) : (l.commit s.pending).ledger.Shows τ :=
  ⟨parent?_commit h.base _, hs.congr (get_commit hparent hok), hτ⟩

/-! ### Transactions -/

/-- What a transaction is priced at: its time is checked first, and then its message by the handler
of its kind.  Routing has disappeared, since every kind of message that can be submitted has a
handler. -/
theorem price_eq (tx : Transaction) (l : Ledger) :
    l.price tx = l.ensureTime tx.time >>= fun _ =>
      (Handler.submitted tx.message.kind).check tx.context tx.message l.store := by
  unfold price
  rw [Routes.submitted_route]
  rfl

theorem price_congr {l' : Ledger} (hstore : l'.store = l.store) (tx : Transaction) :
    l'.price tx = l.price tx := by
  rw [price_eq, price_eq, ensureTime_congr hstore, hstore]

theorem prepare_congr {l' : Ledger} (hstore : l'.store = l.store) (tx : Transaction) :
    l'.prepare tx = l.prepare tx := by
  unfold prepare
  rw [ensureTime_congr hstore, hstore]

/-- The edit of the handler runs on a layer of its own, and the writes on it are the prepared ones
together with the time.  The time is written last, and so a transaction that changes no record still
writes something. -/
theorem prepare_of_run (hensure : l.ensureTime tx.time = .ok ()) {outcome : Outcome} {s : KeySpace}
    (hrun : ((Handler.submitted tx.message.kind).deliver tx.context tx.message).run l.store.cover
      = (.ok outcome, s)) :
    l.prepare tx = .ok (outcome, (writeTime tx.time s).pending) := by
  unfold prepare
  rw [hensure, Routes.submitted_route]
  simp only [bind, Except.bind, hrun]
  rfl

theorem prepare_of_run_error (hensure : l.ensureTime tx.time = .ok ()) {f : Failure} {s : KeySpace}
    (hrun : ((Handler.submitted tx.message.kind).deliver tx.context tx.message).run l.store.cover
      = (.error f, s)) : l.prepare tx = .error f := by
  unfold prepare
  rw [hensure, Routes.submitted_route]
  simp only [bind, Except.bind, hrun]

/-- A refused transaction is refused in the same words when it is to be made.  The handlers check
again before they write, and this says that the second check is the first one. -/
theorem prepare_error {f : Failure} (hprice : l.price tx = .error f) : l.prepare tx = .error f := by
  rw [price_eq] at hprice
  cases htime : l.ensureTime tx.time with
  | error g =>
    rw [htime] at hprice
    cases hprice
    unfold prepare
    rw [htime]
    rfl
  | ok _ =>
    rw [htime] at hprice
    have hcheck : (Handler.submitted tx.message.kind).check tx.context tx.message l.store.cover
        = .error f := (Handler.check_cover _ _ _ _).trans hprice
    exact prepare_of_run_error htime (Handler.deliver_error hcheck)

/-- An accepted transaction is prepared in full: the layer that is to be committed stores the
changed snapshot at the new time.  A handler can fail after its check only on an unsound store, or
when a sequence has run out, which `hspare` excludes. -/
theorem prepare_of_price (h : l.Shows σ) (hspare : σ.Spare tx.message) {cost : Nat}
    (hprice : l.price tx = .ok cost) :
    tx.time.Usable ∧ ∃ outcome τ s, Snapshot.Change tx.context σ tx.message outcome τ
      ∧ l.prepare tx = .ok (outcome, s.pending) ∧ s.parent? = some l.store
      ∧ { τ with time := tx.time }.Stored s := by
  rw [price_eq] at hprice
  obtain ⟨_, hensure, hcheck⟩ := Except.bind_eq_ok.1 hprice
  have htime : tx.time.Usable := usable_of_ensureTime hensure
  rw [← Handler.check_cover] at hcheck
  obtain ⟨outcome, τ, hchange, s, hrun, hparent, hs⟩ :=
    Handler.deliver_yields h.stored.cover h.sound hspare htime hcheck
  exact ⟨htime, outcome, τ, writeTime tx.time s, hchange, prepare_of_run hensure hrun,
    (KeySpace.parent?_set _ _ s).trans hparent, hs.writeTime htime.ne_unset⟩

/-- What making a transaction can come to: it is not prepared, or what it writes is not committed,
or it is made.  The cases differ in the counters too, and later proofs about counters split along
them. -/
theorem deliver_cases (tx : Transaction) (l : Ledger) :
    (∃ f, l.prepare tx = .error f ∧ (l.deliver tx).result = .error f
        ∧ (l.deliver tx).ledger = l.count Counters.countRejection)
      ∨ ∃ outcome batch, l.prepare tx = .ok (outcome, batch)
        ∧ ((∃ f, (l.commit batch).result = .error f ∧ (l.deliver tx).result = .error f
            ∧ (l.deliver tx).ledger = (l.commit batch).ledger.count Counters.countRejection)
          ∨ (l.commit batch).result = .ok () ∧ (l.deliver tx).result = .ok outcome
            ∧ (l.deliver tx).ledger
              = (l.commit batch).ledger.count (Counters.countDelivery outcome)) := by
  unfold deliver
  cases l.prepare tx with
  | error f => exact .inl ⟨f, rfl, rfl, rfl⟩
  | ok prepared =>
    obtain ⟨outcome, batch⟩ := prepared
    refine .inr ⟨outcome, batch, rfl, ?_⟩
    dsimp only
    cases (l.commit batch).result with
    | error f => exact .inl ⟨f, rfl, rfl, rfl⟩
    | ok _ => exact .inr ⟨rfl, rfl, rfl⟩

/-- A transaction that fails leaves the store as it is, also when it fails at the journal.  No
assumption on the store is made, so it holds of damaged ones as well. -/
theorem store_of_deliver_error {f : Failure} (herror : (l.deliver tx).result = .error f) :
    (l.deliver tx).ledger.store = l.store := by
  rcases deliver_cases tx l with ⟨g, -, -, hledger⟩
    | ⟨outcome, batch, -, ⟨g, hcommit, -, hledger⟩ | ⟨-, hresult, -⟩⟩
  · rw [hledger]
    rfl
  · rw [hledger]
    exact (commit_error hcommit).2
  · cases hresult.symm.trans herror

/-- A transaction that is made exchanges the snapshot for the one that its message asks for.  With
`Ledger.store_of_deliver_error` for the other case this is all that runs need to know of a
transaction. -/
theorem Shows.deliver_ok (h : l.Shows σ) (hspare : σ.Spare tx.message) {outcome : Outcome}
    (hok : (l.deliver tx).result = .ok outcome) :
    tx.time.Usable ∧ ∃ τ, Snapshot.Change tx.context σ tx.message outcome τ
      ∧ (l.deliver tx).ledger.Shows { τ with time := tx.time } := by
  unfold deliver at hok ⊢
  cases hprice : l.price tx with
  | error f =>
    rw [prepare_error hprice] at hok
    cases hok
  | ok cost =>
    obtain ⟨htime, outcome', τ, s, hchange, hprepare, hparent, hs⟩ :=
      prepare_of_price h hspare hprice
    rw [hprepare] at hok ⊢
    dsimp only at hok ⊢
    cases hcommit : (l.commit s.pending).result with
    | error f =>
      rw [hcommit] at hok
      cases hok
    | ok _ =>
      rw [hcommit] at hok
      cases hok
      have hshows := h.commit hparent hs ((hchange.sound htime h.sound hspare).withTime tx.time)
        hcommit
      exact ⟨htime, τ, hchange, hshows.of_store_eq rfl⟩

end BlogLedger.Ledger
