import BlogLedger.Proofs.Ledger.Run

/-!
# What happened in a run

Which calls of a run had an effect of some kind.  Some marks in the store appear exactly when
something of a kind has happened, and numbers are given out one by one.

An effect speaks of one call, and many results speak of what has happened at any time before.  Where
a trace of it stays in the store the two can be compared: the trace is there exactly when something
of the kind has happened.  `Ledger.Run.mark_iff` is that argument, and the last numbers of the
sequences and the stored time are such traces.

## Main Definitions

* `Ledger.Happened` — some call of a run did something.
* `Ledger.Commits` — a call commits something.

## Main Results

* `Ledger.Run.mark_iff` — a mark that is never taken back.
* `Ledger.run_of_length` — fewer than 2⁶⁴ - 1 calls find every number they take.
-/

namespace BlogLedger.Ledger

/-- Some call of a run did something to the ledger that it was made on.  The event sees the ledger
before the call, since whether a call does anything depends on it. -/
def Happened (start : Ledger) (calls : List Call) (event : Ledger → Call → Prop) : Prop :=
  ∃ l c, start.Made calls l c ∧ event l c

/-- A call commits something: a transaction or a fired task.  It is what leaves a time in the store. -/
def Commits (l : Ledger) : Call → Prop
  | .check _ => False
  | .deliver tx => ∃ outcome, (l.deliver tx).result = .ok outcome
  | .tick now limit => (l.limited limit).fired now ≠ []

variable {start l : Ledger} {calls : List Call} {c : Call} {σ τ : Snapshot}

theorem not_happened_nil {event : Ledger → Call → Prop} : ¬ start.Happened [] event := by
  rintro ⟨l, c, hmade, -⟩
  exact made_nil hmade

/-- In a longer run happened what happened in the shorter one, and what its last call did. -/
theorem happened_concat {event : Ledger → Call → Prop} :
    start.Happened (calls ++ [c]) event
      ↔ start.Happened calls event ∨ event (start.after calls) c := by
  unfold Happened
  simp only [made_concat]
  constructor
  · rintro ⟨l, d, hmade | ⟨rfl, rfl⟩, hevent⟩
    · exact .inl ⟨l, d, hmade, hevent⟩
    · exact .inr hevent
  · rintro (⟨l, d, hmade, hevent⟩ | hevent)
    · exact ⟨l, d, .inl hmade, hevent⟩
    · exact ⟨_, c, .inr ⟨rfl, rfl⟩, hevent⟩

/-- A mark that calls of a kind make and no call takes back is there exactly when something of that
kind has happened.  It needs to be shown for one effect at a time only. -/
theorem Run.mark_iff (mark : Snapshot → Prop) {event : Ledger → Call → Prop}
    (hempty : ¬ mark .empty)
    (hstep : ∀ {l σ c τ}, Effect l σ c τ → (mark τ ↔ mark σ ∨ event l c))
    (h : start.Run calls) :
    mark (start.after calls).snapshot ↔ start.Happened calls event := by
  have hinvariant := h.induct
    (motive := fun calls l σ => l = start.after calls ∧ (mark σ ↔ start.Happened calls event))
    ⟨rfl, iff_of_false hempty not_happened_nil⟩ ?_
  · exact hinvariant.1.2
  · rintro calls l σ c τ ⟨rfl, hmark⟩ - heffect
    rw [after_concat, happened_concat, hstep heffect, hmark]
    exact ⟨rfl, Iff.rfl⟩

/-! ### Numbers -/

/-- A call leaves the last number of a sequence as it is, or moves it up by one when it takes a
number.  That no third thing can happen is why numbers can be counted. -/
theorem Effect.last (h : Effect l σ c τ) (q : Sequence) :
    Takes q l c ∧ (τ.last q).toNat = (σ.last q).toNat + 1
      ∨ ¬ Takes q l c ∧ τ.last q = σ.last q := by
  cases h with
  | check tx => exact .inr ⟨id, rfl⟩
  | refused tx f result =>
    refine .inr ⟨?_, rfl⟩
    rintro ⟨-, outcome, hok⟩
    cases result.symm.trans hok
  | accepted tx outcome τ result usable spare change =>
    have htime : ∀ q, { τ with time := tx.time }.last q = τ.last q := by
      intro q
      cases q <;> rfl
    rcases change.last q with ⟨htakes, hlast⟩ | ⟨htakes, hlast⟩
    · refine .inl ⟨⟨htakes, outcome, result⟩, ?_⟩
      rw [htime, hlast]
      exact toNat_add_one (spare q htakes)
    · exact .inr ⟨fun htaken => htakes htaken.1, (htime q).trans hlast⟩
  | tick now limit usable =>
    refine .inr ⟨id, ?_⟩
    cases q <;> rfl

/-- Sequences never move back, not even when records are deleted.  So a number that was given out
once stays below the last one. -/
theorem Effect.last_le (h : Effect l σ c τ) (q : Sequence) : σ.last q ≤ τ.last q := by
  rcases h.last q with ⟨-, hlast⟩ | ⟨-, hlast⟩
  · rw [UInt64.le_iff_toNat_le, hlast]
    exact Nat.le_succ _
  · exact UInt64.le_of_eq hlast.symm

/-- A number of a sequence was given out exactly when a call has taken one. -/
theorem Run.last_ne_zero_iff (h : start.Run calls) (q : Sequence) :
    (start.after calls).snapshot.last q ≠ 0 ↔ start.Happened calls (Takes q) := by
  refine h.mark_iff (fun σ => σ.last q ≠ 0) ?_ ?_
  · cases q <;> exact fun hne => hne rfl
  · intro l σ c τ heffect
    have hzero : ∀ n : UInt64, n = 0 ↔ n.toNat = 0 := fun n => (UInt64.toNat_inj (b := 0)).symm
    rcases heffect.last q with ⟨htakes, hlast⟩ | ⟨htakes, hlast⟩
    · refine iff_of_true ?_ (.inr htakes)
      rw [ne_eq, hzero]
      omega
    · rw [hlast, or_iff_left htakes]

/-- A run gives out at most one number of a sequence a call.  It bounds the last number by something
that a caller knows. -/
theorem Run.last_le_length (h : start.Run calls) (q : Sequence) :
    ((start.after calls).snapshot.last q).toNat ≤ calls.length := by
  refine (h.induct (motive := fun calls _ σ => (σ.last q).toNat ≤ calls.length) ?_ ?_).1
  · cases q <;> exact Nat.le_refl 0
  · intro calls l σ c τ hle _ heffect
    rw [List.length_append, List.length_singleton]
    rcases heffect.last q with ⟨-, hlast⟩ | ⟨-, hlast⟩
    · omega
    · rw [hlast]
      omega

/-- After fewer than 2⁶⁴ - 1 calls every sequence has a number left, whatever the calls were. -/
theorem Run.hasNext_of_length (h : start.Run calls) (hlength : calls.length < UInt64.size - 1)
    (q : Sequence) : (start.after calls).HasNext q :=
  h.shows.hasNext_of_lt (Nat.lt_of_le_of_lt (h.last_le_length q) hlength)

/-- Fewer than 2⁶⁴ - 1 calls find every number they take.  A witness or an example meets the
condition of `Ledger.Run` with this, without looking at its calls. -/
theorem run_of_length (hfresh : start.store = .empty) (hlength : calls.length < UInt64.size - 1) :
    start.Run calls := by
  induction calls using List.reverseRecOn with
  | nil => exact run_nil hfresh
  | append_singleton calls c ih =>
    rw [List.length_append, List.length_singleton] at hlength
    have hrun := ih (by omega)
    exact run_concat.2 ⟨hrun, fun q _ => hrun.hasNext_of_length (by omega) q⟩

/-! ### A short run -/

/-- Somebody who owns a blog. -/
def sampleOwner : Address := ⟨List.replicate 20 1, rfl⟩

/-- A blog, and in it an article that is to be deleted and one that stays.  Several results are
tried on it: it has a task, an owner and two articles to tell apart. -/
def sampleCalls : List Call := [
  .deliver ⟨⟨100⟩, some sampleOwner, .createBlog "Field Notes" "Walks and weather"⟩,
  .deliver ⟨⟨200⟩, some sampleOwner, .createArticle ⟨1⟩ "First Frost" "It was cold." ⟨900⟩⟩,
  .deliver ⟨⟨200⟩, some sampleOwner, .createArticle ⟨1⟩ "Thaw" "It was mild." .unset⟩]

/-- The ledger after the short run. -/
def sample : Ledger := volatile.after sampleCalls

theorem sample_run : volatile.Run sampleCalls := run_of_length rfl (by decide)

theorem sample_reachable : sample.Reachable := ⟨volatile, sampleCalls, sample_run, rfl⟩

theorem sample_hasNext : ∀ q, sample.HasNext q := sample_run.hasNext_of_length (by decide)

theorem sample_volatile : sample.journal = none :=
  Option.isNone_iff_eq_none.1 (by decide +kernel)

end BlogLedger.Ledger
