import BlogLedger.Proofs.Ledger.Chronology
import BlogLedger.Proofs.Ledger.Lives

/-!
# Numbers of records

The records of a kind are numbered from one in the order in which they are created, and a number is
never given out twice, whatever is refused, deleted, cancelled or fired in between, and however often
the ledger is closed and opened again.  Creating a record overwrites whatever stands under its number,
so this is all that keeps an old record from being lost.

The statement starts from a count that has nothing to do with the store: how many accepted
transactions have asked for a record of a kind.  The invariant is that the last number of the kind's
sequence is this count.  A call moves both by the same, and opening the ledger again moves neither.
So the three statements on numbers (the next one, nothing else moves it, no old record has it) come
from one induction.

## Main Definitions

* `Ledger.created`, `Ledger.createdIn` — how many records of a kind are created.
* `Ledger.Life` — episodes in the life of a fresh ledger.
* `Ledger.Retractable` — what refused records leave in the file can be cut off.
* `Ledger.Standing` — what is known where a life has led.
* `Ledger.NumbersOnce` — no number is given out twice.

## Main Results

* `Ledger.Life.standing` — a life leads somewhere, and its sequences count what was created.
* `Ledger.numbers_given_once` — no number is given out twice as long as refused records can be cut off.

## Design Notes

A write that fails may leave all of its record in the file: the bytes are there, but they could not be
made safe.  The journal then cuts the file back.  If that fails as well, it takes no further record, but
the one that was refused stays where it is, and it is a record like any other when the ledger is opened
the next time.  The transaction that its signer saw refused then has happened after all, and the number
of its record is gone.  A record of which only a part is left does not come back; the ledger cannot be
opened until it is removed.

Nothing else that fails is harmful, so `Ledger.Retractable` asks for this alone, and only before the
ledger is opened again.  It is kept apart from `Ledger.Life`, since a life can go without it.
-/

namespace BlogLedger.Ledger

/-! ### Definitions -/

/-- How many records of a kind a turn creates: one, if it is an accepted transaction that asks for
it.  It is read off the message and the answer, and not off the store. -/
def created (kind : RecordKind) (l : Ledger) : Turn → Nat
  | .call (.deliver tx) =>
    if tx.message.creates? = some kind ∧ (l.deliver tx).result.isOk then 1 else 0
  | _ => 0

/-- How many records of a kind episodes in a row create.  Each one is looked at on the ledger that
those before it have led to; once an episode fails, nothing is counted any more. -/
def createdIn (config : Config) (kind : RecordKind) : List Episode → Ledger × Disk → Nat
  | [], _ => 0
  | e :: rest, place =>
    created kind (place.1.under e.conditions) e.turn +
      match e.run config place with
      | .ok next => createdIn config kind rest next
      | .error _ => 0

/-- A ledger was opened on a disk, and its journal is empty.  So there is a journal, and opening the
ledger again finds the same file. -/
def OpenedNew (config : Config) (start : Ledger × Disk) : Prop :=
  ∃ d log, Ledger.openIn config d = (.ok start.1, start.2, log)
    ∧ start.2.file? (Journal.pathIn config.dataDir) = some .empty

/-- Episodes in the life of a fresh ledger.  It has a journal if it is opened again, and it never takes
a number from a sequence that has none left.  Nothing is said about what fails meanwhile. -/
structure Life (config : Config) (start : Ledger × Disk) (episodes : List Episode) : Prop where
  fresh : start.1.store = .empty
  opened : (∃ e ∈ episodes, e.turn = .reopen) → OpenedNew config start
  spare : ∀ before e c l d q, before ++ [e] <+: episodes → e.turn = .call c →
    lived config before start = .ok (l, d) → Takes q (l.under e.conditions) c → l.HasNext q

/-- Before a ledger is opened again, the file of its journal could be cut back whenever a record was
refused.  Everything else that is done to the file may fail.  What happens after the ledger was
opened for the last time does not matter, as nothing reads the file any more. -/
def Retractable (episodes : List Episode) : Prop :=
  ∀ before e, before ++ [e] <+: episodes → e.turn = .reopen →
    ∀ e' ∈ before, e'.conditions.canCut = true

/-- No number is given out twice in a life.  The fields are about any two points of the life and
about any episode in it, and not only about its end. -/
structure NumbersOnce (config : Config) (start : Ledger × Disk) (episodes : List Episode) :
    Prop where
  /-- Nothing ends the life; the ledger can be opened again at any time.  It is part of the
  statement because the other parts are about where a life has led, and would say nothing of a
  ledger that cannot be opened. -/
  leads : ∀ before, before <+: episodes → ∃ l d, lived config before start = .ok (l, d)
  /-- An accepted transaction that creates a record gives it the number after those of all records of
  its kind that were created before.  There was never a record with that number. -/
  creates : ∀ before e tx l d outcome kind, before ++ [e] <+: episodes →
    e.turn = .call (.deliver tx) → lived config before start = .ok (l, d) →
    ((l.under e.conditions).deliver tx).result = .ok outcome → tx.message.creates? = some kind →
      ∃ id, outcome.id = some id ∧ id.number.toNat = createdIn config kind before start + 1
        ∧ (∀ earlier m d', earlier <+: before → lived config earlier start = .ok (m, d') →
          kind.bucket.exists? id m.store = false)
        ∧ kind.bucket.exists? id ((l.under e.conditions).deliver tx).ledger.store = true
  /-- Everything else leaves the sequence as it is: transactions that are refused or ask for
  something else, checks, ticks, and opening the ledger again.  This is stated for every sequence,
  so that of the tasks is included. -/
  keeps : ∀ before e l d m d' q, before ++ [e] <+: episodes →
    lived config before start = .ok (l, d) → lived config (before ++ [e]) start = .ok (m, d') →
    (∀ c, e.turn = .call c → ¬ Takes q (l.under e.conditions) c) →
      m.store.get q.key = l.store.get q.key
  /-- The stored last number of a bucket is at least the number of every record that was ever there,
  also of those that have been deleted since.  It is what keeps a new record off the place of an old
  one. -/
  bounds : ∀ earlier later l d m d' (kind : RecordKind) (id : RecordId),
    earlier <+: later → later <+: episodes →
    lived config earlier start = .ok (l, d) → lived config later start = .ok (m, d') →
    kind.bucket.exists? id l.store = true →
      ∃ last : RecordId, m.store.get kind.bucket.sequenceKey = some last.key
        ∧ id.number ≤ last.number

/-- What is known where episodes in the life of a fresh ledger have led.  The field on the journal
is conditional: only a life that goes on with opening the ledger again has to have one. -/
structure Standing (config : Config) (start : Ledger × Disk) (episodes : List Episode)
    (l : Ledger) (d : Disk) : Prop where
  shows : l.Shows l.snapshot
  kept : OpenedNew config start → (∀ e ∈ episodes, e.conditions.canCut = true) → Kept config l d
  counted : ∀ kind, (l.snapshot.last kind.sequence).toNat = createdIn config kind episodes start
  few : ∀ q, (l.snapshot.last q).toNat ≤ episodes.length

variable {config : Config} {start place : Ledger × Disk} {episodes before : List Episode}
  {e : Episode} {l m : Ledger} {d d' : Disk} {σ τ : Snapshot} {c : Call} {kind : RecordKind}
  {id : RecordId}

/-! ### Counting -/

theorem created_of_takes (h : Takes kind.sequence l c) : created kind l (.call c) = 1 := by
  cases c with
  | deliver tx =>
    obtain ⟨htakes, outcome, hok⟩ := h
    refine if_pos ⟨Message.takes_sequence_iff.1 htakes, ?_⟩
    rw [hok]
    rfl
  | check | tick => exact h.elim

theorem created_of_not_takes (h : ¬ Takes kind.sequence l c) : created kind l (.call c) = 0 := by
  cases c with
  | deliver tx =>
    refine if_neg fun hcreated => h ⟨Message.takes_sequence_iff.2 hcreated.1, ?_⟩
    cases hresult : (l.deliver tx).result with
    | ok outcome => exact ⟨outcome, rfl⟩
    | error f =>
      rw [hresult] at hcreated
      cases hcreated.2
  | check | tick => rfl

/-- A call moves the last number of a kind up by what it creates.  Of all cases of an effect, only
an accepted transaction that creates a record changes the sequence of a bucket, and it was assumed
to have a number left. -/
theorem Effect.last_created (h : Effect l σ c τ) (kind : RecordKind) :
    (τ.last kind.sequence).toNat = (σ.last kind.sequence).toNat + created kind l (.call c) := by
  rcases h.last kind.sequence with ⟨htakes, hlast⟩ | ⟨htakes, hlast⟩
  · rw [hlast, created_of_takes htakes]
  · rw [hlast, created_of_not_takes htakes, Nat.add_zero]

theorem createdIn_append (kind : RecordKind) (more : List Episode)
    (h : lived config before start = .ok place) :
    createdIn config kind (before ++ more) start
      = createdIn config kind before start + createdIn config kind more place := by
  induction before generalizing start with
  | nil =>
    cases h
    exact (Nat.zero_add _).symm
  | cons e rest ih =>
    unfold lived at h
    rw [List.foldlM_cons] at h
    obtain ⟨next, hnext, hrest⟩ := Except.bind_eq_ok.1 h
    rw [List.cons_append, createdIn, createdIn, hnext]
    dsimp only
    rw [ih hrest, Nat.add_assoc]

theorem createdIn_concat (kind : RecordKind) (e : Episode)
    (h : lived config before start = .ok (l, d)) :
    createdIn config kind (before ++ [e]) start
      = createdIn config kind before start + created kind (l.under e.conditions) e.turn := by
  rw [createdIn_append kind [e] h, createdIn]
  cases e.run config (l, d) <;> rfl

/-! ### Lives -/

theorem Retractable.of_prefix (h : Retractable episodes) (hfront : before <+: episodes) :
    Retractable before :=
  fun first e' hfirst => h first e' (hfirst.trans hfront)

/-- A file that can always be cut back can be cut back before the ledger is opened again.  It is the
form in which the condition is met by a working disk. -/
theorem retractable_of_canCut (h : ∀ e ∈ episodes, e.conditions.canCut = true) :
    Retractable episodes := by
  intro first e' hfront _ e'' hmem
  exact h e'' (hfront.subset (List.mem_append_left _ hmem))

/-- A longer life is a shorter one and a last episode.  The two conditions of a life are about
single episodes, so they split at its end. -/
theorem life_concat : Life config start (before ++ [e]) ↔ Life config start before
    ∧ (e.turn = .reopen → OpenedNew config start)
    ∧ ∀ c l d q, e.turn = .call c → lived config before start = .ok (l, d) →
      Takes q (l.under e.conditions) c → l.HasNext q := by
  constructor
  · rintro ⟨hfresh, hopened, hspare⟩
    have hearlier : (∃ e' ∈ before, e'.turn = .reopen) → OpenedNew config start :=
      fun ⟨e', hmem, hreopen⟩ => hopened ⟨e', List.mem_append_left _ hmem, hreopen⟩
    refine ⟨⟨hfresh, hearlier, fun first e' c l d q hfront => ?_⟩,
      fun hreopen => hopened ⟨e, List.mem_append_right _ (List.mem_singleton_self e), hreopen⟩,
      fun c l d q => hspare before e c l d q (List.prefix_refl _)⟩
    exact hspare first e' c l d q (hfront.trans (List.prefix_append _ _))
  · rintro ⟨⟨hfresh, hearlier, hspare⟩, hopened, hlast⟩
    refine ⟨hfresh, ?_, fun first e' c l d q hfront => ?_⟩
    · rintro ⟨e', hmem, hreopen⟩
      rcases List.mem_append.1 hmem with hmem | hmem
      · exact hearlier ⟨e', hmem, hreopen⟩
      · exact hopened (List.mem_singleton.1 hmem ▸ hreopen)
    rcases List.prefix_concat_iff.1 hfront with heq | hshorter
    · obtain ⟨rfl, he⟩ := List.append_inj' heq rfl
      obtain rfl := List.singleton_inj.1 he
      exact hlast c l d q
    · exact hspare first e' c l d q hshorter

/-- The first episodes of a life are a life.  Statements about earlier points of a life are got from
those about its end in this way. -/
theorem Life.of_prefix (h : Life config start episodes) (hfront : before <+: episodes) :
    Life config start before := by
  obtain ⟨rest, rfl⟩ := hfront
  induction rest using List.reverseRecOn with
  | nil => rwa [List.append_nil] at h
  | append_singleton rest e ih =>
    rw [← List.append_assoc] at h
    exact ih (life_concat.1 h).1

/-- A ledger that was opened on a new journal is kept by it.  A life that has a reopening in it
starts from such a ledger. -/
theorem OpenedNew.kept (h : OpenedNew config start) : Kept config start.1 start.2 := by
  obtain ⟨d, log, hopen, hfile⟩ := h
  exact kept_of_openIn hopen hfile

theorem standing_nil (hfresh : start.1.store = .empty) :
    Standing config start [] start.1 start.2 := by
  have hshows := shows_of_fresh hfresh
  have hsnapshot := hshows.snapshot_eq
  refine ⟨?_, fun hopened _ => hopened.kept, fun kind => ?_, fun q => ?_⟩
  · rw [hsnapshot]
    exact hshows
  · rw [hsnapshot]
    cases kind <;> rfl
  · rw [hsnapshot]
    cases q <;> rfl

namespace Standing

/-- A call has its effect, whatever the conditions are.  They decide whether a record is taken, and
that is one of the cases of an effect already. -/
theorem effect (h : Standing config start before l d) (conditions : Conditions)
    (hspare : ∀ q, Takes q (l.under conditions) c → l.HasNext q) :
    ∃ τ, Effect (l.under conditions) l.snapshot c τ ∧ (c.run (l.under conditions)).Shows τ := by
  have hunder : (l.under conditions).Shows l.snapshot := h.shows.of_store_eq rfl
  exact hunder.run c hspare

/-- A call moves every sequence up by what it creates.  It keeps the journal in step as well if the
file can be cut back, and nothing is claimed of the journal if it cannot. -/
theorem call (h : Standing config start before l d) (hlived : lived config before start = .ok (l, d))
    (hturn : e.turn = .call c)
    (hspare : ∀ q, Takes q (l.under e.conditions) c → l.HasNext q) :
    Standing config start (before ++ [e]) (c.run (l.under e.conditions))
      (d.keep (c.run (l.under e.conditions))) := by
  obtain ⟨τ, heffect, hτ⟩ := h.effect e.conditions hspare
  have hsnapshot := hτ.snapshot_eq
  refine ⟨?_, fun hopened hcut => ?_, fun kind => ?_, fun q => ?_⟩
  · rw [hsnapshot]
    exact hτ
  · obtain ⟨hbefore, hlast⟩ := List.forall_mem_append.1 hcut
    exact (h.kept hopened hbefore).call (hlast e (List.mem_singleton_self e)) c
  · rw [hsnapshot, heffect.last_created, h.counted, createdIn_concat kind e hlived, hturn]
  · have hfew := h.few q
    rw [hsnapshot, List.length_append, List.length_singleton]
    rcases heffect.last q with ⟨-, hlast⟩ | ⟨-, hlast⟩
    · omega
    · rw [hlast]
      omega

/-- Opening a ledger again leaves every sequence as it is.  The store of the opened ledger is that
of the closed one, because every record that was refused is gone from the file. -/
theorem reopen (h : Standing config start before l d)
    (hlived : lived config before start = .ok (l, d)) (hturn : e.turn = .reopen)
    (hopened : OpenedNew config start) (hcut : ∀ e' ∈ before, e'.conditions.canCut = true) :
    ∃ l', e.run config (l, d) = .ok (l', d) ∧ l'.store = l.store
      ∧ Standing config start (before ++ [e]) l' d := by
  obtain ⟨l', hrun, hstore, hkept⟩ := (h.kept hopened hcut).reopen
  have hshows : l'.Shows l.snapshot := h.shows.of_store_eq hstore
  have hsnapshot := hshows.snapshot_eq
  refine ⟨l', ?_, hstore, ?_, fun _ _ => hkept, fun kind => ?_, fun q => ?_⟩
  · unfold Episode.run
    rw [hturn]
    exact hrun
  · rw [hsnapshot]
    exact hshows
  · rw [hsnapshot, h.counted, createdIn_concat kind e hlived, hturn]
    rfl
  · rw [hsnapshot, List.length_append]
    exact Nat.le_add_right_of_le (h.few q)

end Standing

/-- A life leads somewhere, and there the last number of a kind says how many records of the kind were
created.  Where the ledger is opened again, this needs the journal to say what the ledger held, and so
it needs every refused record to be gone. -/
theorem Life.standing (h : Life config start episodes) (hretract : Retractable episodes) :
    ∃ l d, lived config episodes start = .ok (l, d) ∧ Standing config start episodes l d := by
  induction episodes using List.reverseRecOn with
  | nil => exact ⟨start.1, start.2, rfl, standing_nil h.fresh⟩
  | append_singleton before e ih =>
    obtain ⟨hbefore, hopened, hspare⟩ := life_concat.1 h
    obtain ⟨l, d, hlived, hstanding⟩ := ih hbefore (hretract.of_prefix (List.prefix_append _ _))
    rw [lived_concat hlived]
    cases hturn : e.turn with
    | call c =>
      exact ⟨_, _, run_call e hturn l d, hstanding.call hlived hturn fun q =>
        hspare c l d q hturn hlived⟩
    | reopen =>
      have hcut := hretract before e (List.prefix_refl _) hturn
      obtain ⟨l', hrun, -, hlater⟩ := hstanding.reopen hlived hturn (hopened hturn) hcut
      exact ⟨l', d, hrun, hlater⟩

/-! ### Numbers -/

/-- A number has a record exactly when the snapshot has a row.  With it, what is said about records
of a kind can be proved about rows. -/
theorem Shows.exists?_eq (h : l.Shows σ) (kind : RecordKind) (id : RecordId) :
    kind.bucket.exists? id l.store = ((σ.records kind).row id.number).isSome :=
  (h.stored.records kind).exists?_eq id

/-- A record has a number that was given out.  Soundness bounds the numbers of rows by the last
number of their sequence. -/
theorem Shows.number_le (h : l.Shows σ) (hexists : kind.bucket.exists? id l.store = true) :
    id.number ≠ 0 ∧ id.number ≤ σ.last kind.sequence := by
  rw [h.exists?_eq] at hexists
  obtain ⟨r, hrow⟩ := Option.isSome_iff_exists.1 hexists
  rw [← Snapshot.last_records]
  exact h.sound.records_numbered kind _ r hrow

/-- An accepted transaction that creates a record adds it under the next number.  It puts together
three facts about one change: the number in the outcome, the number in the sequence, and where the
row is added. -/
theorem Effect.adds {tx : Transaction} {outcome : Outcome} (h : Effect l σ (.deliver tx) τ)
    (hok : (l.deliver tx).result = .ok outcome) (hcreates : tx.message.creates? = some kind) :
    ∃ id r, outcome.id = some id ∧ id.number.toNat = (σ.last kind.sequence).toNat + 1
      ∧ (τ.records kind).row id.number = some r := by
  cases h with
  | refused tx f result => cases result.symm.trans hok
  | accepted tx outcome' τ' result usable spare change =>
    obtain rfl : outcome' = outcome := Except.ok.inj (result.symm.trans hok)
    have htakes := Message.takes_sequence_iff.2 hcreates
    obtain ⟨hid, r, hadd⟩ := change.adds htakes
    refine ⟨_, r, hid, ?_, ?_⟩
    · rw [Snapshot.next_records]
      exact toNat_add_one (spare _ htakes)
    · rw [Snapshot.records_withTime, hadd, Table.row_add_next]

/-- What is known where the first episodes of a life have led.  Where they have led is determined,
so it is known of the given ledger and not only of some ledger. -/
theorem Life.standing_of (h : Life config start episodes) (hretract : Retractable episodes)
    (hfront : before <+: episodes) (hlived : lived config before start = .ok (l, d)) :
    Standing config start before l d := by
  obtain ⟨l', d', hlived', hstanding⟩ :=
    (h.of_prefix hfront).standing (hretract.of_prefix hfront)
  cases hlived.symm.trans hlived'
  exact hstanding

/-- A record has a number up to how many records of its kind were created.  It compares a row with
the count, and from here on the sequence itself is not needed any more. -/
theorem Standing.number_le (h : Standing config start before l d)
    (hexists : kind.bucket.exists? id l.store = true) :
    id.number ≠ 0 ∧ id.number.toNat ≤ createdIn config kind before start := by
  obtain ⟨hne, hle⟩ := h.shows.number_le hexists
  rw [UInt64.le_iff_toNat_le, h.counted] at hle
  exact ⟨hne, hle⟩

/-- The count of created records never goes down.  Records may be deleted, but that they were
created stays counted. -/
theorem createdIn_le {earlier : List Episode} (kind : RecordKind) (hfront : earlier <+: before)
    (hlived : lived config earlier start = .ok place) :
    createdIn config kind earlier start ≤ createdIn config kind before start := by
  obtain ⟨more, rfl⟩ := hfront
  rw [createdIn_append kind more hlived]
  exact Nat.le_add_right _ _

/-- A number that was given out in a life is never the number of an earlier record.  At an earlier
point the count was smaller or the same, and every record had a number up to that. -/
theorem Life.not_exists_earlier (h : Life config start episodes) (hretract : Retractable episodes)
    {earlier : List Episode} (hbefore : before <+: episodes) (hearlier : earlier <+: before)
    (hlived : lived config earlier start = .ok (l, d))
    (hnumber : id.number.toNat = createdIn config kind before start + 1) :
    kind.bucket.exists? id l.store = false := by
  refine Bool.eq_false_iff.2 fun hexists => ?_
  -- The record has a number up to the count then, which was no larger than it is now.
  have hold := ((h.standing_of hretract (hearlier.trans hbefore) hlived).number_le hexists).2
  have hcount := createdIn_le kind hearlier hlived
  omega

/-- An accepted transaction that creates a record gives it the next number.  It is the count and not
the sequence that is used to say which number is the next one. -/
theorem Life.exists_number (h : Life config start (before ++ [e]))
    (hretract : Retractable before) {tx : Transaction} {outcome : Outcome}
    (hturn : e.turn = .call (.deliver tx))
    (hlived : lived config before start = .ok (l, d))
    (hok : ((l.under e.conditions).deliver tx).result = .ok outcome)
    (hcreates : tx.message.creates? = some kind) :
    ∃ id, outcome.id = some id ∧ id.number.toNat = createdIn config kind before start + 1
      ∧ kind.bucket.exists? id ((l.under e.conditions).deliver tx).ledger.store = true := by
  obtain ⟨hbefore, -, hspare⟩ := life_concat.1 h
  have hstanding := hbefore.standing_of hretract (List.prefix_refl before) hlived
  obtain ⟨τ, heffect, hτ⟩ := hstanding.effect e.conditions fun q => hspare _ l d q hturn hlived
  obtain ⟨id, r, hid, hnumber, hrow⟩ := heffect.adds hok hcreates
  have hexists := hτ.exists?_eq kind id
  rw [hrow] at hexists
  exact ⟨id, hid, hnumber.trans (congrArg Nat.succ (hstanding.counted kind)), hexists⟩

/-- An episode that takes no number from a sequence leaves the sequence as it is.  For calls this is
a fact about effects; opening the ledger again gives back the same store. -/
theorem Life.get_sequence (h : Life config start (before ++ [e]))
    (hretract : Retractable (before ++ [e])) {q : Sequence}
    (hlived : lived config before start = .ok (l, d)) (hrun : e.run config (l, d) = .ok (m, d'))
    (hnot : ∀ c, e.turn = .call c → ¬ Takes q (l.under e.conditions) c) :
    m.store.get q.key = l.store.get q.key := by
  obtain ⟨hbefore, hopened, hspare⟩ := life_concat.1 h
  have hstanding := h.standing_of hretract (List.prefix_append _ _) hlived
  cases hturn : e.turn with
  | call c =>
    obtain ⟨τ, heffect, hτ⟩ := hstanding.effect e.conditions fun q => hspare c l d q hturn hlived
    rcases heffect.last q with ⟨htakes, -⟩ | ⟨-, hlast⟩
    · exact absurd htakes (hnot c hturn)
    · cases (run_call e hturn l d).symm.trans hrun
      rw [hτ.stored.get_sequence, hstanding.shows.stored.get_sequence, hlast]
  | reopen =>
    have hcut := hretract before e (List.prefix_refl _) hturn
    obtain ⟨l', hrun', hstore, -⟩ := hstanding.reopen hlived hturn (hopened hturn) hcut
    cases hrun'.symm.trans hrun
    rw [hstore]

/-- The key of the sequence of a kind holds at least every number up to the count of created
records.  The key is missing only if no record was ever created, and then there is no such number. -/
theorem Standing.exists_last (h : Standing config start before l d) (hne : id.number ≠ 0)
    (hle : id.number.toNat ≤ createdIn config kind before start) :
    ∃ last : RecordId, l.store.get kind.bucket.sequenceKey = some last.key
      ∧ id.number ≤ last.number := by
  rw [← h.counted, ← UInt64.le_iff_toNat_le] at hle
  have hgiven : l.snapshot.last kind.sequence ≠ 0 := by
    intro hzero
    rw [hzero] at hle
    exact hne (UInt64.le_zero_iff.1 hle)
  refine ⟨⟨l.snapshot.last kind.sequence⟩, ?_, hle⟩
  rw [← RecordKind.key_sequence, h.shows.stored.get_sequence, if_neg hgiven]
  rfl

/-- No number is given out twice in the life of a fresh ledger, if refused records can be cut off.
Without the second condition it would be false, since a transaction can happen that was refused. -/
theorem numbers_given_once (h : Life config start episodes) (hretract : Retractable episodes) :
    NumbersOnce config start episodes where
  leads before hfront := by
    obtain ⟨l, d, hlived, -⟩ := (h.of_prefix hfront).standing (hretract.of_prefix hfront)
    exact ⟨l, d, hlived⟩
  creates before e tx l d outcome kind hfront hturn hlived hok hcreates := by
    have hbefore := (List.prefix_append before [e]).trans hfront
    obtain ⟨id, hid, hnumber, hexists⟩ :=
      (h.of_prefix hfront).exists_number (hretract.of_prefix hbefore) hturn hlived hok hcreates
    exact ⟨id, hid, hnumber, fun earlier m d' hearlier hm =>
      h.not_exists_earlier hretract hbefore hearlier hm hnumber, hexists⟩
  keeps before e l d m d' q hfront hlived hnext hnot :=
    (h.of_prefix hfront).get_sequence (hretract.of_prefix hfront) hlived
      ((lived_concat hlived e).symm.trans hnext) hnot
  bounds earlier later l d m d' kind id hfront hlater hl hm hexists := by
    obtain ⟨hne, hle⟩ :=
      (h.standing_of hretract (hfront.trans hlater) hl).number_le hexists
    exact (h.standing_of hretract hlater hm).exists_last hne (hle.trans (createdIn_le kind hfront hl))

/-! ### A sample -/

/-- Fewer than 2⁶⁴ - 1 episodes find every number they take.  An episode takes one number from a
sequence at most, so the length of a life bounds what is used up; with it the condition on numbers
can be checked without running the life. -/
theorem life_of_length (hopened : OpenedNew config start) (hfresh : start.1.store = .empty)
    (hretract : Retractable episodes) (hlength : episodes.length < UInt64.size - 1) :
    Life config start episodes := by
  induction episodes using List.reverseRecOn with
  | nil => exact ⟨hfresh, fun _ => hopened, fun before e c l d q hfront => by simp at hfront⟩
  | append_singleton before e ih =>
    rw [List.length_append, List.length_singleton] at hlength
    have hearlier := hretract.of_prefix (List.prefix_append before [e])
    have hshorter := ih hearlier (by omega)
    refine life_concat.2 ⟨hshorter, fun _ => hopened, fun c l d q hturn hlived htakes => ?_⟩
    have hstanding := hshorter.standing_of hearlier (List.prefix_refl before) hlived
    exact hstanding.shows.hasNext_of_lt (Nat.lt_of_le_of_lt (hstanding.few q) (by omega))

/-- A user is registered; the journal has room for a beginning of the next record only, so that user
is refused; the ledger is closed and opened again, and a third user is registered. -/
def sampleLife : List Episode := [
  ⟨.good, .call (.deliver ⟨⟨100⟩, none, .createUser "maria_w" none⟩)⟩,
  ⟨{ Conditions.good with capacity := some 600 },
    .call (.deliver ⟨⟨150⟩, none, .createUser "nikola_t" none⟩)⟩,
  ⟨.good, .reopen⟩,
  ⟨.good, .call (.deliver ⟨⟨200⟩, none, .createUser "ada_king" none⟩)⟩]

theorem openedNew_sample : OpenedNew sampleConfig (sampleStart, sampleDisk) :=
  ⟨.within [], _, Prod.ext openIn_sample rfl, rfl⟩

theorem numbers_given_once_sample :
    Life sampleConfig (sampleStart, sampleDisk) sampleLife
      ∧ Retractable sampleLife
      ∧ createdIn sampleConfig .user (sampleLife.take 2) (sampleStart, sampleDisk) = 1
      ∧ NumbersOnce sampleConfig (sampleStart, sampleDisk) sampleLife := by
  have hretract : Retractable sampleLife := retractable_of_canCut (by decide)
  have hlife : Life sampleConfig (sampleStart, sampleDisk) sampleLife :=
    life_of_length openedNew_sample rfl hretract (by decide)
  exact ⟨hlife, hretract, by decide +kernel, numbers_given_once hlife hretract⟩

end BlogLedger.Ledger
