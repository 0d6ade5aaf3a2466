import BlogLedger.Proofs.Schedule.Due
import Mathlib.Data.List.Nodup

/-!
# Handles

A handle is given out when a task is scheduled, and it is used up when the task is cancelled or
fired.

Numbers ascend and are never given out again, so a handle that was used up stays so.  What a ledger
says of its handles is carried along by this invariant, in which the schedule is seen only as a
table.

## Main Definitions

* `Schedule.Accounts` — the handles that were given out and used up account for the tasks.

## Main Results

* `Schedule.Accounts.give`, `Schedule.Accounts.use` — they do so when a handle is given out, and when
  handles are used up.
-/

namespace BlogLedger.Schedule

/-- The tasks of a table are those whose handle was given out and was not used up.  Handles that
were given out are at most the last number, which keeps the next one new, and used ones were given
out before. -/
structure Accounts (t : Table Task) (given used : List TaskId) : Prop where
  ascending : given.Pairwise fun x y => x.number < y.number
  le_last : ∀ handle ∈ given, handle.number ≤ t.last
  once : used.Nodup
  given_of_used : ∀ handle ∈ used, handle ∈ given
  live_iff : ∀ handle, (∃ task, t.row handle.number = some task) ↔ handle ∈ given ∧ handle ∉ used

namespace Accounts

variable {t : Table Task} {given used more : List TaskId}

theorem empty : Accounts .empty [] [] where
  ascending := .nil
  le_last := nofun
  once := .nil
  given_of_used := nofun
  live_iff := by
    intro handle
    refine iff_of_false ?_ nofun
    rintro ⟨task, hrow⟩
    cases hrow

variable (h : Accounts t given used)

include h

/-- The next handle was never given out.  It is greater than all that were. -/
theorem not_given_next (hnext : t.HasNext) : ⟨t.next⟩ ∉ given := by
  intro hgiven
  exact UInt64.not_le.2 (Table.last_lt_next hnext) (h.le_last _ hgiven)

/-- A task is scheduled, and the next handle is given out for it.  No handle is used up by this. -/
theorem give (hnext : t.HasNext) (task : Task) :
    Accounts (t.add task) (given ++ [⟨t.next⟩]) used where
  ascending := by
    refine List.pairwise_append.2 ⟨h.ascending, List.pairwise_singleton _ _, ?_⟩
    intro x hx y hy
    obtain rfl : y = ⟨t.next⟩ := List.mem_singleton.1 hy
    exact UInt64.lt_of_le_of_lt (h.le_last x hx) (Table.last_lt_next hnext)
  le_last := by
    intro handle hhandle
    rcases List.mem_append.1 hhandle with hold | hnew
    · exact UInt64.le_trans (h.le_last _ hold) (UInt64.le_of_lt (Table.last_lt_next hnext))
    · obtain rfl : handle = ⟨t.next⟩ := List.mem_singleton.1 hnew
      exact UInt64.le_refl _
  once := h.once
  given_of_used handle hused := List.mem_append_left _ (h.given_of_used handle hused)
  live_iff := by
    intro handle
    rw [List.mem_append, List.mem_singleton, Table.row_add]
    by_cases hnew : handle = ⟨t.next⟩
    · subst hnew
      rw [if_pos rfl]
      refine iff_of_true ⟨task, rfl⟩ ⟨.inr rfl, fun hused => ?_⟩
      exact h.not_given_next hnext (h.given_of_used _ hused)
    · rw [if_neg fun hnumber => hnew (congrArg TaskId.mk hnumber), or_iff_left hnew]
      exact h.live_iff handle

/-- Live tasks go, and their handles are used up.  The table may have lost rows in any way, as long
as exactly these are gone and the last number has not changed. -/
theorem use {u : Table Task} (hmore : more.Nodup)
    (hlive : ∀ handle ∈ more, ∃ task, t.row handle.number = some task)
    (hrow : ∀ handle task, u.row handle.number = some task
      ↔ t.row handle.number = some task ∧ handle ∉ more)
    (hlast : u.last = t.last) : Accounts u given (used ++ more) where
  ascending := h.ascending
  le_last := by
    rw [hlast]
    exact h.le_last
  once := by
    refine h.once.append hmore fun handle hused hhandle => ?_
    exact ((h.live_iff handle).1 (hlive handle hhandle)).2 hused
  given_of_used := by
    intro handle hhandle
    rcases List.mem_append.1 hhandle with hold | hnew
    · exact h.given_of_used handle hold
    · exact ((h.live_iff handle).1 (hlive handle hnew)).1
  live_iff := by
    intro handle
    simp only [hrow, exists_and_right, h.live_iff, List.mem_append, not_or, and_assoc]

end Accounts

end BlogLedger.Schedule
