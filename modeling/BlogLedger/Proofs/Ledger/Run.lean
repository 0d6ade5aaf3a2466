import BlogLedger.Proofs.Ledger.Tick
import Mathlib.Data.List.Induction

/-!
# Runs

A run starts from an empty store and makes calls in any order: transactions are checked and made,
whether they are accepted or not, and ticks fire tasks under any limit.  The journal may refuse
records at any time.

What is proved of a ledger is proved of every run.  There are many calls and few effects on the
snapshot, so results are not shown by induction over calls: `Ledger.Run.induct` takes a property of
snapshots from effect to effect, and `Ledger.Run.effect` hands out the effect of any call on the
way.

## Main Definitions

* `Call` — a call of the ledger.
* `Ledger.after` — the ledger after calls.
* `Ledger.gathered` — what calls in a row give, one after the other.
* `Ledger.Made` — a call that is made on the way.
* `Ledger.Takes`, `Ledger.HasNext` — what a call takes from a sequence, and whether it is there.
* `Ledger.Run`, `Ledger.Reachable` — calls that find every number they take, and where they lead.
* `Ledger.snapshot` — what the reads of the ledger say.
* `Ledger.Effect` — what a call does to the snapshot.

## Main Results

* `Ledger.Shows.run` — every call has its effect.
* `Ledger.Run.induct` — what every effect keeps holds after every run.
* `Ledger.Run.shows` — every run leads to a sound snapshot.
* `Ledger.Run.effect` — every call of a run has its effect.

## Design Notes

A transaction may ask for a number when its sequence has given out the last one.  That takes 2⁶⁴ - 1
records or tasks, and nothing is said of what comes after it.  A run therefore says with
`Ledger.Run.spare` that it does not come to this.  It is a condition on the calls that are made and
not on how many there are, and `Ledger.run_of_length` shows that every run of a realistic length
meets it.
-/

namespace BlogLedger

/-- The ledger with another limit for its ticks.  The limit is a setting that is fixed when a ledger
is opened; runs take it with each tick, and so they cover all settings and changes between them. -/
def Ledger.limited (limit : Nat) (l : Ledger) : Ledger := { l with maxTasks := limit }

/-- A call of the ledger.  Queries are left out, since they change nothing. -/
inductive Call where
  | check (tx : Transaction)
  | deliver (tx : Transaction)
  /-- A tick that may fire so many tasks. -/
  | tick (now : Timestamp) (limit : Nat)

/-- The ledger after a call. -/
def Call.run (l : Ledger) : Call → Ledger
  | .check tx => (l.check tx).ledger
  | .deliver tx => (l.deliver tx).ledger
  | .tick now limit => ((l.limited limit).tick now).ledger

namespace Ledger

/-- The ledger after calls in a row.  Calls that fail are part of it: they leave their counts
behind, and a tick may have fired tasks before it failed. -/
def after (calls : List Call) (l : Ledger) : Ledger := calls.foldl Call.run l

/-- What calls in a row give, one after the other.  It is how a result speaks of things that are
spread over a run, such as the tasks it fired or the records it wrote. -/
def gathered {α : Type} (give : Ledger → Call → List α) : Ledger → List Call → List α
  | _, [] => []
  | l, c :: rest => give l c ++ gathered give (c.run l) rest

/-- Among the calls is one that is made on a ledger.  The ledger is the one that the calls before
have led to, so this names a moment of a run together with the call that follows. -/
def Made (start : Ledger) (calls : List Call) (l : Ledger) (c : Call) : Prop :=
  ∃ before, before ++ [c] <+: calls ∧ l = start.after before

/-- A sequence has a number left: it has not given out the last one that fits in 64 bits.  It is
said of the stored bytes, so that it makes sense of any store. -/
def HasNext (l : Ledger) (q : Sequence) : Prop :=
  l.store.get q.key ≠ some (Bytes.big64 (UInt64.ofNat (UInt64.size - 1)))

/-- A call makes a transaction that takes a number from a sequence.  A transaction that is refused
takes none, and neither do checks and ticks. -/
def Takes (q : Sequence) (l : Ledger) : Call → Prop
  | .deliver tx => tx.message.Takes q ∧ ∃ outcome, (l.deliver tx).result = .ok outcome
  | _ => False

/-- Calls on a fresh ledger that never take a number from a sequence that has none left.  Nothing is
asked of the journal; it may be missing, and it may refuse records at any time. -/
structure Run (start : Ledger) (calls : List Call) : Prop where
  fresh : start.store = .empty
  spare : ∀ l c q, start.Made calls l c → Takes q l c → l.HasNext q

/-- A run leads here.  What holds of reachable ledgers is what can be relied on in use, as opposed
to a store that a damaged or foreign journal has left. -/
def Reachable (l : Ledger) : Prop := ∃ start calls, Run start calls ∧ l = start.after calls

/-- The last number of a sequence; zero when none was given out.  No record has the number zero, so
that zero can stand for none. -/
def lastNumber (key : Bytes) (s : KeySpace) : UInt64 :=
  ((s.get key).bind Bytes.ofBig64?).getD 0

/-- What the reads of a ledger say.  It is computed from the store, so a result on it says something
about what a user sees, and `Ledger.Shows.snapshot_eq` turns it into the snapshot that the proofs
carry. -/
def snapshot (l : Ledger) : Snapshot where
  users := ⟨fun n => (Users.get ⟨n⟩ l.store).toOption.join,
    lastNumber Sequence.users.key l.store⟩
  blogs := ⟨fun n => (Blogs.get ⟨n⟩ l.store).toOption.join,
    lastNumber Sequence.blogs.key l.store⟩
  articles := ⟨fun n => (Articles.get ⟨n⟩ l.store).toOption.join,
    lastNumber Sequence.articles.key l.store⟩
  tasks := ⟨fun n => (Schedule.task? ⟨n⟩ l.store).toOption.join,
    lastNumber Sequence.tasks.key l.store⟩
  time := l.lastTime.toOption.getD .unset

/-! ### Calls in a row -/

theorem after_concat (calls : List Call) (c : Call) (l : Ledger) :
    l.after (calls ++ [c]) = c.run (l.after calls) := by
  unfold after
  rw [List.foldl_append]
  rfl

theorem after_append (calls later : List Call) (l : Ledger) :
    l.after (calls ++ later) = (l.after calls).after later :=
  List.foldl_append

theorem gathered_concat {α : Type} (give : Ledger → Call → List α) (calls : List Call) (c : Call)
    (l : Ledger) : l.gathered give (calls ++ [c]) = l.gathered give calls ++ give (l.after calls) c := by
  induction calls generalizing l with
  | nil => exact List.append_nil _
  | cons d rest ih =>
    show give l d ++ gathered give (d.run l) (rest ++ [c])
      = give l d ++ gathered give (d.run l) rest ++ give ((d.run l).after rest) c
    rw [ih, List.append_assoc]

variable {start l : Ledger} {calls : List Call} {σ : Snapshot}

theorem made_nil {c : Call} : ¬ start.Made [] l c := by
  rintro ⟨before, hfront, -⟩
  simpa using List.prefix_nil.1 hfront

/-- The calls of a longer run are those of the shorter one and the last. -/
theorem made_concat {c d : Call} :
    start.Made (calls ++ [c]) l d ↔ start.Made calls l d ∨ l = start.after calls ∧ d = c := by
  unfold Made
  simp only [List.prefix_concat_iff]
  constructor
  · rintro ⟨before, hlast | hfront, hl⟩
    · obtain ⟨rfl, hcall⟩ := List.append_inj' hlast rfl
      exact .inr ⟨hl, List.singleton_inj.1 hcall⟩
    · exact .inl ⟨before, hfront, hl⟩
  · rintro (⟨before, hfront, hl⟩ | ⟨hl, rfl⟩)
    · exact ⟨before, .inr hfront, hl⟩
    · exact ⟨calls, .inl rfl, hl⟩

theorem run_nil (hfresh : start.store = .empty) : start.Run [] :=
  ⟨hfresh, fun _ _ _ hmade => absurd hmade made_nil⟩

/-- A longer run is a shorter one and a last call that finds the numbers it takes.  Runs are always
taken apart at the end, since what a call does depends on what came before. -/
theorem run_concat {c : Call} :
    start.Run (calls ++ [c]) ↔ start.Run calls
      ∧ ∀ q, Takes q (start.after calls) c → (start.after calls).HasNext q := by
  constructor
  · rintro ⟨hfresh, hspare⟩
    refine ⟨⟨hfresh, fun l d q hmade => hspare l d q (made_concat.2 (.inl hmade))⟩, ?_⟩
    exact fun q => hspare _ c q (made_concat.2 (.inr ⟨rfl, rfl⟩))
  · rintro ⟨⟨hfresh, hspare⟩, hlast⟩
    refine ⟨hfresh, fun l d q hmade => ?_⟩
    rcases made_concat.1 hmade with hmade | ⟨rfl, rfl⟩
    · exact hspare l d q hmade
    · exact hlast q

/-- The first calls of a run are a run.  A result on a moment of a run is one on the run that ends
there. -/
theorem Run.of_prefix {before : List Call} (h : start.Run calls) (hfront : before <+: calls) :
    start.Run before := by
  refine ⟨h.fresh, fun l c q hmade => h.spare l c q ?_⟩
  obtain ⟨first, hfirst, hl⟩ := hmade
  exact ⟨first, hfirst.trans hfront, hl⟩

/-! ### What a run leads to -/

theorem lastNumber_eq {α : Type} {t : Table α} {key : Bytes} {s : KeySpace}
    (h : s.Single key t.lastBytes) : lastNumber key s = t.last := by
  unfold lastNumber
  rw [h.get]
  unfold Table.lastBytes
  by_cases hlast : t.last = 0
  · rw [if_pos hlast, hlast]
    rfl
  · rw [if_neg hlast]
    show (Bytes.ofBig64? (Bytes.big64 t.last)).getD 0 = _
    rw [Bytes.ofBig64?_big64]
    rfl

/-- Reads that show the rows of a table, and its last number, give the table.  It is the step from
reads to rows for each of the four tables. -/
theorem readTable_eq {α : Type} {t : Table α} {key : Bytes} {s : KeySpace}
    {read : UInt64 → Except Failure (Option α)} (hread : ∀ n, read n = .ok (t.row n))
    (hlast : s.Single key t.lastBytes) :
    (⟨fun n => (read n).toOption.join, lastNumber key s⟩ : Table α) = t := by
  refine Table.ext (fun n => ?_) (lastNumber_eq hlast)
  show (read n).toOption.join = _
  rw [hread]
  rfl

/-- The reads of a ledger say which snapshot its store holds.  So there is only one, and statements
can use `Ledger.snapshot` instead of claiming that one exists. -/
theorem Shows.snapshot_eq (h : l.Shows σ) : l.snapshot = σ := by
  have husers : l.snapshot.users = σ.users :=
    readTable_eq (fun n => h.stored.getUser ⟨n⟩) h.stored.users.sequence
  have hblogs : l.snapshot.blogs = σ.blogs :=
    readTable_eq (fun n => h.stored.getBlog ⟨n⟩) h.stored.blogs.sequence
  have harticles : l.snapshot.articles = σ.articles :=
    readTable_eq (fun n => h.stored.getArticle ⟨n⟩) h.stored.articles.sequence
  have htasks : l.snapshot.tasks = σ.tasks :=
    readTable_eq (fun n => h.stored.getTask ⟨n⟩) h.stored.schedule.sequence
  have htime : l.snapshot.time = σ.time := by
    show l.lastTime.toOption.getD .unset = _
    rw [h.lastTime]
    rfl
  exact Snapshot.ext husers hblogs harticles htasks htime

/-- A sequence has a number left exactly when the number after its last one is not zero again.
Proofs use the second form, as it is what 64-bit addition gives. -/
theorem Shows.hasNext_iff (h : l.Shows σ) (q : Sequence) : l.HasNext q ↔ σ.last q + 1 ≠ 0 := by
  unfold HasNext
  rw [h.stored.get_sequence q]
  have hmax : (UInt64.ofNat (UInt64.size - 1)) ≠ 0 := by decide
  rw [add_one_ne_zero_iff]
  by_cases hlast : σ.last q = 0
  · rw [if_pos hlast, hlast]
    exact iff_of_true (by simp) (Ne.symm hmax)
  · rw [if_neg hlast, ne_eq, Option.some.injEq, Bytes.big64_inj]

/-- A sequence has a number left as long as its last one is small enough.  A count of calls bounds
the last number, and this turns the bound into `Ledger.HasNext`. -/
theorem Shows.hasNext_of_lt (h : l.Shows σ) {q : Sequence}
    (hlt : (σ.last q).toNat < UInt64.size - 1) : l.HasNext q := by
  refine (h.hasNext_iff q).2 fun hq => ?_
  have hsize : UInt64.size = 2 ^ 64 := rfl
  have hsum := congrArg UInt64.toNat hq
  rw [UInt64.toNat_add] at hsum
  have hone : (1 : UInt64).toNat = 1 := rfl
  have hzero : (0 : UInt64).toNat = 0 := rfl
  omega

/-- A check changes no key, so it leaves the snapshot and every later answer as they are. -/
theorem store_check (tx : Transaction) (l : Ledger) : (l.check tx).ledger.store = l.store := by
  unfold check
  cases l.price tx <;> rfl

/-- An empty store holds the empty snapshot. -/
theorem shows_of_fresh (hfresh : start.store = .empty) : start.Shows .empty := by
  refine ⟨by rw [hfresh]; rfl, ?_, .empty⟩
  rw [hfresh]
  exact Snapshot.stored_empty

/-- What a call does to the snapshot that a ledger shows.  There is one case for a transaction that
is refused and one for one that is accepted; checks have no effect at all, and a tick is told by the
tasks that it fires. -/
inductive Effect (l : Ledger) (σ : Snapshot) : Call → Snapshot → Prop where
  | check (tx : Transaction) : Effect l σ (.check tx) σ
  | refused (tx : Transaction) (f : Failure) (result : (l.deliver tx).result = .error f) :
    Effect l σ (.deliver tx) σ
  | accepted (tx : Transaction) (outcome : Outcome) (τ : Snapshot)
      (result : (l.deliver tx).result = .ok outcome) (usable : tx.time.Usable)
      (spare : σ.Spare tx.message)
      (change : Snapshot.Change tx.context σ tx.message outcome τ) :
    Effect l σ (.deliver tx) { τ with time := tx.time }
  | tick (now : Timestamp) (limit : Nat)
      (usable : (l.limited limit).fired now ≠ [] → now.Usable) :
    Effect l σ (.tick now limit) (σ.afterFiring now ((l.limited limit).fired now))

/-- Nothing is fired at a time that is refused.  It gives the time of a tick what an accepted
transaction knows of its own time. -/
theorem ensureTime_of_fired {now : Timestamp} (h : l.fired now ≠ []) :
    l.ensureTime now = .ok () := by
  cases hensure : l.ensureTime now with
  | error f => exact absurd (tick_error hensure).2 h
  | ok _ => rfl

/-- Every call has its effect and leads to a sound snapshot again.  This is the step lemma of the
development: the invariant is that the store holds a sound snapshot, and it is kept by every call
under every condition of the journal. -/
theorem Shows.run (h : l.Shows σ) (c : Call) (hspare : ∀ q, Takes q l c → l.HasNext q) :
    ∃ τ, Effect l σ c τ ∧ (c.run l).Shows τ := by
  cases c with
  | check tx => exact ⟨σ, .check tx, h.of_store_eq (store_check tx l)⟩
  | deliver tx =>
    cases hresult : (l.deliver tx).result with
    | error f =>
      exact ⟨σ, .refused tx f hresult, h.of_store_eq (store_of_deliver_error hresult)⟩
    | ok outcome =>
      have hnext : σ.Spare tx.message :=
        fun q hq => (h.hasNext_iff q).1 (hspare q ⟨hq, outcome, hresult⟩)
      obtain ⟨htime, τ, hchange, hτ⟩ := h.deliver_ok hnext hresult
      exact ⟨_, .accepted tx outcome τ hresult htime hnext hchange, hτ⟩
  | tick now limit =>
    have hlimit : (l.limited limit).Shows σ := h.of_store_eq rfl
    exact ⟨_, .tick now limit fun hfired => usable_of_ensureTime (ensureTime_of_fired hfired), hlimit.tick now⟩

/-- What holds of an empty store and is kept by every effect holds after every run.  The motive sees
the calls, the ledger and the snapshot, so that counts over a run can be part of what is kept. -/
theorem Run.induct {motive : List Call → Ledger → Snapshot → Prop}
    (fresh : motive [] start .empty)
    (step : ∀ calls l σ c τ, motive calls l σ → l.Shows σ → Effect l σ c τ →
      motive (calls ++ [c]) (c.run l) τ)
    (h : start.Run calls) :
    motive calls (start.after calls) (start.after calls).snapshot
      ∧ (start.after calls).Shows (start.after calls).snapshot := by
  induction calls using List.reverseRecOn with
  | nil =>
    have hshows : (start.after []).Shows .empty := shows_of_fresh h.fresh
    rw [hshows.snapshot_eq]
    exact ⟨fresh, hshows⟩
  | append_singleton calls c ih =>
    -- The run without its last call leads to a sound snapshot, and the last call to the next one.
    obtain ⟨hrun, hspare⟩ := run_concat.1 h
    obtain ⟨hmotive, hshows⟩ := ih hrun
    obtain ⟨τ, heffect, hτ⟩ := hshows.run c hspare
    rw [after_concat, hτ.snapshot_eq]
    exact ⟨step calls _ _ c τ hmotive hshows heffect, hτ⟩

/-- Every run leads to the snapshot that the reads of the ledger say, and it is sound.  The
induction over runs has been made here once and for all. -/
theorem Run.shows (h : start.Run calls) :
    (start.after calls).Shows (start.after calls).snapshot :=
  (h.induct (motive := fun _ _ _ => True) trivial fun _ _ _ _ _ _ _ _ => trivial).2

/-- Every call of a run is made on a sound snapshot and has its effect on it.  Results on one moment
of a run begin with this and need no induction of their own. -/
theorem Run.effect {c : Call} (h : start.Run calls) (hmade : start.Made calls l c) :
    l.Shows l.snapshot ∧ Effect l l.snapshot c (c.run l).snapshot
      ∧ (c.run l).Shows (c.run l).snapshot := by
  obtain ⟨before, hfront, rfl⟩ := hmade
  obtain ⟨hrun, hspare⟩ := run_concat.1 (h.of_prefix hfront)
  obtain ⟨τ, heffect, hτ⟩ := hrun.shows.run c hspare
  rw [hτ.snapshot_eq]
  exact ⟨hrun.shows, heffect, hτ⟩

theorem Reachable.shows (h : l.Reachable) : l.Shows l.snapshot := by
  obtain ⟨start, calls, hrun, rfl⟩ := h
  exact hrun.shows

end Ledger

end BlogLedger
