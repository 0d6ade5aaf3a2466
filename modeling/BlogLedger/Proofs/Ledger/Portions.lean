import BlogLedger.Proofs.Ledger.Canonical
import BlogLedger.Proofs.Ledger.Chronology

/-!
# Ticks in portions

A tick may fire only so many tasks, and what is left is fired by the next one.  However small the
portions are, the same tasks are fired in the same order, and the store ends up the same.

What is due is one list, the queue up to the given time, and a tick under a limit takes a beginning
of it.  So the proof is about a list and its pieces: after `k` ticks the first `k * limit` tasks are
gone and the rest of the list is what is due now.  Two things make this work.  Firing tasks never
makes another one due, and the time that a tick notes does not keep the next tick at the same time
from being made.

## Main Definitions

* `Ledger.ticks` — ticks in a row, at one time and under one limit.
* `Ledger.reportedBy` — the firings that a call reports.
* `Ledger.Faultless` — the journal takes every record of a tick.
* `Ledger.FiredInPortions` — ticks in a row do together what one tick does.

## Main Results

* `Snapshot.afterFiring_append` — tasks that are fired in two portions.
* `Schedule.Lists.drop` — what is due when the first tasks were fired.
* `Ledger.Shows.ticks` — what ticks in a row leave behind and report.
* `Ledger.fired_in_portions` — the limit does not matter in the end.
-/

namespace BlogLedger

/-! ### Firing in two portions -/

/-- What is left out first and what is left out then are left out together.  Each table after firing
is given by such a choice, so that the two portions can be joined without looking at the tasks. -/
theorem ite_none_ite_none {α : Type} {p q r : Prop} [Decidable p] [Decidable q] [Decidable r]
    (h : r ↔ p ∨ q) (o : Option α) :
    (if q then none else if p then none else o) = if r then none else o := by
  by_cases hp : p <;> by_cases hq : q <;> simp [h, hp, hq]

/-- Tasks that are fired one portion after the other are fired together.  On snapshots the order of
firing does not matter, only which tasks were fired, and whether there were any. -/
theorem Snapshot.afterFiring_append (σ : Snapshot) (now : Timestamp)
    (first rest : List (TaskId × Task)) :
    (σ.afterFiring now first).afterFiring now rest = σ.afterFiring now (first ++ rest) := by
  have hsplit : ∀ p : TaskId × Task → Prop,
      (∃ x ∈ first ++ rest, p x) ↔ (∃ x ∈ first, p x) ∨ ∃ x ∈ rest, p x := by
    intro p
    simp only [List.mem_append, or_and_right, exists_or]
  refine Snapshot.ext rfl rfl ?_ ?_ ?_
  · exact Table.ext (fun n => ite_none_ite_none (hsplit _) _) rfl
  · exact Table.ext (fun n => ite_none_ite_none (hsplit _) _) rfl
  · show (if rest = [] then (if first = [] then σ.time else now) else now)
      = if first ++ rest = [] then σ.time else now
    cases first <;> cases rest <;> rfl

theorem Schedule.Before.asymm {x y : TaskId × Task} (h : Before x y) : ¬ Before y x := by
  rintro (hlt | ⟨htime, hlt⟩)
  · rcases h with h | ⟨htime, -⟩
    · rw [Timestamp.lt_iff] at *
      omega
    · rw [htime, Timestamp.lt_iff] at hlt
      omega
  · rcases h with h | ⟨-, h⟩
    · rw [htime, Timestamp.lt_iff] at h
      omega
    · exact UInt64.lt_irrefl _ (UInt64.lt_trans h hlt)

namespace Schedule.Lists

variable {t : Table Task} {p : Task → Prop} {due due' : List (TaskId × Task)}

/-- The tasks with a property have one list.  The order of the queue is strict, so membership and
order determine it; it lets a list that is known be put in the place of one that a lemma gives. -/
theorem unique (h : Lists t p due) (h' : Lists t p due') : due = due' := by
  have hnodup : ∀ {tasks}, Lists t p tasks → tasks.Nodup := fun h => h.ordered.imp Before.ne
  have hperm : due.Perm due' := (List.perm_ext_iff_of_nodup (hnodup h) (hnodup h')).2
    fun x => (h.mem_iff x.1 x.2).trans (h'.mem_iff x.1 x.2).symm
  refine hperm.eq_of_pairwise (fun x y _ _ hxy hyx => ?_) h.ordered h'.ordered
  exact absurd hyx (Before.asymm hxy)

/-- When the first tasks of the list were fired, the others are listed.  It is what carries the
invariant from one portion to the next. -/
theorem drop {σ : Snapshot} (h : Lists σ.tasks p due) (now : Timestamp) (count : Nat) :
    Lists (σ.afterFiring now (due.take count)).tasks p (due.drop count) where
  ordered := h.ordered.sublist (List.drop_sublist _ _)
  mem_iff := by
    intro id task
    have hdistinct := h.distinct
    rw [← List.take_append_drop count due, List.pairwise_append] at hdistinct
    have hwhole : (id, task) ∈ due ↔ (id, task) ∈ due.take count ∨ (id, task) ∈ due.drop count := by
      rw [← List.mem_append, List.take_append_drop]
    have hrow : (σ.afterFiring now (due.take count)).tasks.row id.number
        = if ∃ x ∈ due.take count, x.1 = id then none else σ.tasks.row id.number := rfl
    rw [hrow]
    by_cases hfired : ∃ x ∈ due.take count, x.1 = id
    · rw [if_pos hfired]
      obtain ⟨x, hx, rfl⟩ := hfired
      refine iff_of_false (fun hleft => ?_) nofun
      exact hdistinct.2.2 x hx _ hleft rfl
    · rw [if_neg hfired, ← h.mem_iff, hwhole]
      exact (or_iff_right fun hx => hfired ⟨_, hx, rfl⟩).symm

end Schedule.Lists

namespace Ledger

/-- Ticks in a row, at one time and under one limit.  It is a list of calls, so that what is known
of runs applies to it. -/
def ticks (now : Timestamp) (limit count : Nat) : List Call :=
  List.replicate count (.tick now limit)

/-- The firings that a call reports.  A tick that fails reports nothing, though it may have fired
some tasks before. -/
def reportedBy (l : Ledger) : Call → List Firing
  | .tick now limit => (((l.limited limit).tick now).result.toOption.map TickReport.fired).getD []
  | .check _ | .deliver _ => []

/-- The journal, where the only storage faults are, takes every record of a tick.  It speaks of the
answer to the tick and not of the file, so a ledger without a journal has the property. -/
def Faultless (l : Ledger) (now : Timestamp) (limit : Nat) : Prop :=
  ∀ fault, ((l.limited limit).tick now).result ≠ .error (.of (.storage fault))

/-- Ticks under a limit do together what one tick does whose limit is not met.  The tick that it is
compared with is made on the ledger from before, and not after the others. -/
structure FiredInPortions (l : Ledger) (now : Timestamp) (limit : Nat)
    (due : List (TaskId × Task)) : Prop where
  /-- The tasks that are due, by time and then by number.  The number of portions is computed from
  its length. -/
  lists_due : Schedule.Lists l.snapshot.tasks (fun task => task.runAt ≤ now) due
  /-- Every tick goes through, also those that come when nothing is due any more. -/
  goes_through : ∀ k, ∃ report,
    (((l.after (ticks now limit k)).limited limit).tick now).result = .ok report
  /-- Only the first ticks fire tasks, as many as there are portions.  Each one of them does fire
  some: a portion is empty only if everything before was enough. -/
  fires_iff : ∀ k, (l.after (ticks now limit k)).reportedBy (.tick now limit) ≠ []
    ↔ k < (due.length + limit - 1) / limit
  /-- One tick reports what the portions report in a row.  The order is part of it, as the reports
  are lists. -/
  reported : ∀ large, due.length ≤ large → l.Faultless now large →
    ∃ report, ((l.limited large).tick now).result = .ok report
      ∧ l.gathered reportedBy (ticks now limit ((due.length + limit - 1) / limit)) = report.fired
  /-- One tick leaves behind what the portions leave behind, and what further ticks do.  The stores
  are equal as such, and so is the time that is stored in them. -/
  store_eq : ∀ large k, due.length ≤ large → l.Faultless now large →
    (due.length + limit - 1) / limit ≤ k →
      (l.after (ticks now limit k)).store = ((l.limited large).tick now).ledger.store

variable {l : Ledger} {σ : Snapshot} {now : Timestamp} {limit k : Nat}
  {due : List (TaskId × Task)}

theorem after_ticks_succ (l : Ledger) (now : Timestamp) (limit k : Nat) :
    l.after (ticks now limit (k + 1))
      = (((l.after (ticks now limit k)).limited limit).tick now).ledger := by
  unfold ticks
  rw [List.replicate_succ', after_concat]
  rfl

/-! ### One tick -/

/-- A tick that the journal takes fires the first tasks that are due and reports them.  It is the
exactness of a tick, with a list of what is due that is fixed beforehand. -/
theorem Shows.tick_take (h : l.Shows σ) (hensure : l.ensureTime now = .ok ())
    (hdue : Schedule.Lists σ.tasks (fun task => task.runAt ≤ now) due)
    (hjournal : l.Faultless now limit) :
    (∃ report, ((l.limited limit).tick now).result = .ok report
        ∧ report.fired = (due.take limit).map Firing.success)
      ∧ ((l.limited limit).tick now).ledger.Shows (σ.afterFiring now (due.take limit)) := by
  have hlimited : (l.limited limit).Shows σ := h.of_store_eq rfl
  obtain ⟨due', hdue', -, hafter, ⟨hok, hfired⟩ | ⟨fault, herror⟩⟩ := hlimited.tick_due hensure
  · obtain rfl := hdue'.unique hdue
    rw [hfired] at hafter
    exact ⟨⟨_, hok, rfl⟩, hafter⟩
  · exact absurd herror (hjournal fault)

theorem Snapshot.time_afterFiring_le {fired : List (TaskId × Task)} (hle : σ.time ≤ now) :
    (σ.afterFiring now fired).time ≤ now := by
  show (if fired = [] then σ.time else now) ≤ now
  split
  · exact hle
  · exact Timestamp.le_refl now

/-! ### Ticks in a row -/

theorem reportedBy_tick {report : TickReport}
    (hok : ((l.limited limit).tick now).result = .ok report) :
    l.reportedBy (.tick now limit) = report.fired := by
  simp only [reportedBy, hok]
  rfl

/-- After the first portions a tick fires the next one.  The list that is due for this tick is what
is left of the first list, and the time that was noted meanwhile is not later than the time of the
tick. -/
theorem Shows.portion (h : l.Shows σ) (hensure : l.ensureTime now = .ok ())
    (hdue : Schedule.Lists σ.tasks (fun task => task.runAt ≤ now) due)
    (hafter : (l.after (ticks now limit k)).Shows (σ.afterFiring now (due.take (k * limit))))
    (hjournal : (l.after (ticks now limit k)).Faultless now limit) :
    (∃ report, (((l.after (ticks now limit k)).limited limit).tick now).result = .ok report
        ∧ report.fired = ((due.drop (k * limit)).take limit).map Firing.success)
      ∧ (l.after (ticks now limit (k + 1))).Shows
        (σ.afterFiring now (due.take ((k + 1) * limit))) := by
  obtain ⟨husable, hle⟩ := h.ensureTime_iff.1 hensure
  have hensure' : (l.after (ticks now limit k)).ensureTime now = .ok () :=
    hafter.ensureTime_iff.2 ⟨husable, Snapshot.time_afterFiring_le hle⟩
  obtain ⟨hreport, hnext⟩ := hafter.tick_take hensure' (hdue.drop now (k * limit)) hjournal
  rw [Snapshot.afterFiring_append, ← List.take_add, ← Nat.succ_mul] at hnext
  rw [after_ticks_succ]
  exact ⟨hreport, hnext⟩

/-- Ticks in a row that the journal takes fire one portion after the other.  The induction is on the
number of ticks; the snapshot and what was reported are carried along together. -/
theorem Shows.ticks (h : l.Shows σ) (hensure : l.ensureTime now = .ok ())
    (hdue : Schedule.Lists σ.tasks (fun task => task.runAt ≤ now) due)
    (hjournal : ∀ j < k, (l.after (Ledger.ticks now limit j)).Faultless now limit) :
    (l.after (Ledger.ticks now limit k)).Shows (σ.afterFiring now (due.take (k * limit)))
      ∧ l.gathered reportedBy (Ledger.ticks now limit k)
        = (due.take (k * limit)).map Firing.success := by
  induction k with
  | zero =>
    rw [Nat.zero_mul, List.take_zero, Snapshot.afterFiring_nil]
    exact ⟨h, rfl⟩
  | succ k ih =>
    obtain ⟨hafter, hgathered⟩ := ih fun j hj => hjournal j (Nat.lt_succ_of_lt hj)
    obtain ⟨⟨report, hok, hfired⟩, hnext⟩ := h.portion hensure hdue hafter (hjournal k (Nat.lt_succ_self k))
    refine ⟨hnext, ?_⟩
    unfold Ledger.ticks at hgathered hok ⊢
    rw [List.replicate_succ', gathered_concat, hgathered, reportedBy_tick hok, hfired,
      ← List.map_append, ← List.take_add, ← Nat.succ_mul]

/-- There are as many portions as are needed to hold everything.  It is the only arithmetic of the
module. -/
theorem lt_portions_iff (hlimit : 0 < limit) (n : Nat) :
    k < (n + limit - 1) / limit ↔ k * limit < n := by
  rw [Nat.lt_iff_add_one_le, Nat.le_div_iff_mul_le hlimit, Nat.succ_mul]
  omega

/-- The limit does not matter in the end: ticks in portions do together what one tick does.  Two
stores that show the same snapshot are equal, so it is enough to compare snapshots. -/
theorem fired_in_portions (h : l.Reachable) (hensure : l.ensureTime now = .ok ())
    (hlimit : 0 < limit) (hjournal : ∀ k, (l.after (ticks now limit k)).Faultless now limit) :
    ∃ due, l.FiredInPortions now limit due := by
  obtain ⟨due, hdue, -⟩ := h.shows.tick_due hensure
  have hticks := fun k => h.shows.ticks (k := k) hensure hdue fun j _ => hjournal j
  have hportion := fun k => h.shows.portion hensure hdue (hticks k).1 (hjournal k)
  have hall : ∀ k, (due.length + limit - 1) / limit ≤ k → due.take (k * limit) = due := by
    intro k hk
    rw [← not_lt, lt_portions_iff hlimit, not_lt] at hk
    exact List.take_of_length_le hk
  refine ⟨due, hdue, fun k => ?_, fun k => ?_, fun large hlarge hfaultless => ?_,
    fun large k hlarge hfaultless hk => ?_⟩
  · obtain ⟨⟨report, hok, -⟩, -⟩ := hportion k
    exact ⟨report, hok⟩
  · obtain ⟨⟨report, hok, hfired⟩, -⟩ := hportion k
    rw [reportedBy_tick hok, hfired, lt_portions_iff hlimit, ne_eq, List.map_eq_nil_iff,
      List.take_eq_nil_iff, List.drop_eq_nil_iff]
    omega
  · obtain ⟨⟨report, hok, hfired⟩, -⟩ := h.shows.tick_take hensure hdue hfaultless
    rw [List.take_of_length_le hlarge] at hfired
    refine ⟨report, hok, ?_⟩
    rw [(hticks _).2, hall _ (Nat.le_refl _), hfired]
  · obtain ⟨-, hafter⟩ := h.shows.tick_take hensure hdue hfaultless
    have hlast := (hticks k).1
    rw [List.take_of_length_le hlarge] at hafter
    rw [hall k hk] at hlast
    exact hlast.store_eq hafter

/-! ### A sample -/

/-- When nothing is due a tick does nothing.  The time is not noted either, so the ledger is the
same and not only its store. -/
theorem tick_of_none_due (h : l.dueTasks now = .ok []) :
    (l.tick now).result = .ok ⟨now, [], l.pendingTasks⟩ ∧ (l.tick now).ledger = l := by
  unfold Ledger.tick
  rw [h]
  exact ⟨rfl, rfl⟩

theorem faultless_of_isOk (h : ((l.limited limit).tick now).result.isOk = true) :
    l.Faultless now limit := by
  intro fault herror
  rw [herror] at h
  cases h

/-- Once nothing is due the journal is not written to any more.  It turns a condition on all ticks
into one on finitely many, which can be checked. -/
theorem faultless_of_none_due {count : Nat}
    (hnone : ((l.after (ticks now limit count)).limited limit).dueTasks now = .ok [])
    (hjournal : ∀ k < count, (l.after (ticks now limit k)).Faultless now limit) (k : Nat) :
    (l.after (ticks now limit k)).Faultless now limit := by
  obtain ⟨hok, hsame⟩ := tick_of_none_due hnone
  have hstays : ∀ more, (l.after (ticks now limit (count + more))).limited limit
      = (l.after (ticks now limit count)).limited limit := by
    intro more
    induction more with
    | zero => rfl
    | succ more ih =>
      rw [← Nat.add_assoc, after_ticks_succ, ih, hsame]
      rfl
  rcases Nat.lt_or_ge k count with hk | hk
  · exact hjournal k hk
  · obtain ⟨more, rfl⟩ := Nat.exists_eq_add_of_le hk
    intro fault
    rw [hstays more, hok]
    exact nofun

/-- Three articles, the last of which is to be deleted first. -/
def portionCalls : List Call := [
  .deliver ⟨⟨100⟩, some sampleOwner, .createBlog "Field Notes" "Walks and weather"⟩,
  .deliver ⟨⟨200⟩, some sampleOwner, .createArticle ⟨1⟩ "First Frost" "It was cold." ⟨900⟩⟩,
  .deliver ⟨⟨200⟩, some sampleOwner, .createArticle ⟨1⟩ "Thaw" "It was mild." ⟨900⟩⟩,
  .deliver ⟨⟨300⟩, some sampleOwner, .createArticle ⟨1⟩ "Spring" "It was warm." ⟨800⟩⟩]

/-- The ledger with the three articles. -/
def portionSample : Ledger := volatile.after portionCalls

theorem fired_in_portions_sample :
    portionSample.Reachable ∧ portionSample.ensureTime ⟨900⟩ = .ok () ∧ 0 < 2
      ∧ (∀ k, (portionSample.after (ticks ⟨900⟩ 2 k)).Faultless ⟨900⟩ 2)
      ∧ (portionSample.gathered reportedBy (ticks ⟨900⟩ 2 2)).map Firing.id = [⟨3⟩, ⟨1⟩, ⟨2⟩]
      ∧ ∃ due, portionSample.FiredInPortions ⟨900⟩ 2 due := by
  have hreachable : portionSample.Reachable :=
    ⟨volatile, portionCalls, run_of_length rfl (by decide), rfl⟩
  obtain ⟨hensure, hgoes, hnone, hids⟩ :
      portionSample.ensureTime ⟨900⟩ = .ok ()
        ∧ (∀ k < 2, (((portionSample.after (ticks ⟨900⟩ 2 k)).limited 2).tick ⟨900⟩).result.isOk)
        ∧ ((portionSample.after (ticks ⟨900⟩ 2 2)).limited 2).dueTasks ⟨900⟩ = .ok []
        ∧ (portionSample.gathered reportedBy (ticks ⟨900⟩ 2 2)).map Firing.id
          = [⟨3⟩, ⟨1⟩, ⟨2⟩] := by
    decide +kernel
  have hjournal := faultless_of_none_due hnone fun k hk => faultless_of_isOk (hgoes k hk)
  exact ⟨hreachable, hensure, Nat.two_pos, hjournal, hids,
    fired_in_portions hreachable hensure Nat.two_pos hjournal⟩

end Ledger

end BlogLedger
