import BlogLedger.Proofs.Snapshot.Kinds
import Mathlib.Data.Set.Card

/-!
# Sizes

How many rows a table has, and what a message does to the number of records and of scheduled tasks.

Counters go up by one for what an outcome reports, and never look at the store.  To compare them
with the store, it has to be known how many rows there are, and how an outcome tells of the rows
that came and went.  The equations are written with sums on both sides, since a difference of
natural numbers would lose what it is below zero.

## Main Definitions

* `Table.size` — the number of rows.
* `Snapshot.recordCount` — the number of users, blogs and articles.

## Main Results

* `Table.size_add`, `Table.size_put`, `Table.size_drop` — a row comes, is exchanged, and goes.
* `Table.length_eq_size` — a list that names every row once is as long as there are rows.
* `Snapshot.Change.tasks_size`, `Snapshot.Change.recordCount` — what a message does to the sizes
  stands in its outcome.
-/

namespace BlogLedger

instance finite_uint64 : Finite UInt64 :=
  Finite.of_injective UInt64.toFin fun _ _ => UInt64.toFin_inj.1

namespace Table

variable {α β : Type} {t : Table α} {n : UInt64} {a old : α}

/-- The numbers that have a row.  There are finitely many, as numbers have 64 bits. -/
def rows (t : Table α) : Set UInt64 := {n | (t.row n).isSome}

/-- How many rows there are.  It is a definition for statements only, as a table cannot be counted
by going through it. -/
noncomputable def size (t : Table α) : Nat := t.rows.ncard

theorem mem_rows_of_row (h : t.row n = some a) : n ∈ t.rows := by
  show (t.row n).isSome = true
  rw [h]
  rfl

theorem size_empty : (Table.empty : Table α).size = 0 := by
  have hrows : (Table.empty : Table α).rows = ∅ := Set.eq_empty_of_forall_notMem fun _ => nofun
  unfold size
  rw [hrows, Set.ncard_empty]

theorem size_map (f : α → β) (t : Table α) : (t.map f).size = t.size := by
  have hrows : (t.map f).rows = t.rows := by
    ext n
    show ((t.row n).map f).isSome ↔ (t.row n).isSome
    rw [Option.isSome_map]
  unfold size
  rw [hrows]

/-- A new row is one more.  It must not take the place of another, and for numbered tables it does
not. -/
theorem size_add (hnext : t.row t.next = none) (a : α) : (t.add a).size = t.size + 1 := by
  have hrows : (t.add a).rows = insert t.next t.rows := by
    ext n
    show ((t.add a).row n).isSome ↔ n = t.next ∨ (t.row n).isSome
    rw [row_add]
    by_cases hn : n = t.next <;> simp [hn]
  have hnew : t.next ∉ t.rows := by
    show ¬ (t.row t.next).isSome = true
    rw [hnext]
    exact nofun
  unfold size
  rw [hrows, Set.ncard_insert_of_notMem hnew]

/-- A row that takes the place of another changes nothing. -/
theorem size_put (hrow : t.row n = some old) (a : α) : (t.put n a).size = t.size := by
  have hrows : (t.put n a).rows = t.rows := by
    ext m
    show ((t.put n a).row m).isSome ↔ (t.row m).isSome
    rw [row_put]
    by_cases hm : m = n
    · rw [if_pos hm, hm, hrow]
      rfl
    · rw [if_neg hm]
  unfold size
  rw [hrows]

/-- A row that goes is one less. -/
theorem size_drop (hrow : t.row n = some a) : (t.drop n).size + 1 = t.size := by
  have hrows : (t.drop n).rows = t.rows \ {n} := by
    ext m
    show ((t.drop n).row m).isSome ↔ (t.row m).isSome ∧ m ≠ n
    rw [row_drop]
    by_cases hm : m = n <;> simp [hm]
  unfold size
  rw [hrows, Set.ncard_sdiff_singleton_add_one (mem_rows_of_row hrow)]

/-- A list that names every number that has a row once is as long as there are rows.  With it the
length of an answer is the number of rows. -/
theorem length_eq_size {ι : Type} {items : List ι} (number : ι → UInt64)
    (hdistinct : items.Pairwise fun x y => number x ≠ number y)
    (hmem : ∀ n, (∃ x ∈ items, number x = n) ↔ ∃ a, t.row n = some a) :
    items.length = t.size := by
  have hnodup : (items.map number).Nodup := List.pairwise_map.2 hdistinct
  have hrows : t.rows = ((items.map number).toFinset : Set UInt64) := by
    ext n
    rw [Finset.mem_coe, List.mem_toFinset, List.mem_map, hmem]
    exact Option.isSome_iff_exists
  unfold size
  rw [hrows, Set.ncard_coe_finset, List.toFinset_card_of_nodup hnodup, List.length_map]

end Table

namespace Snapshot

variable {σ τ : Snapshot} {ctx : Context} {m : Message} {outcome : Outcome}

/-- How many users, blogs and articles there are. -/
noncomputable def recordCount (σ : Snapshot) : Nat :=
  σ.users.size + σ.blogs.size + σ.articles.size

/-- A task that is given up is one less.  An article may have no task, and then nothing changes. -/
theorem Sound.size_tasksWithout (h : σ.Sound) {n : UInt64} {article : Article}
    (hrow : σ.articles.row n = some article) :
    (σ.tasksWithout article.deletion).size + Counters.one article.deletion = σ.tasks.size := by
  cases hdeletion : article.deletion with
  | none => rfl
  | some task =>
    obtain ⟨deadline, -, htask⟩ := h.scheduled n article task hrow hdeletion
    exact Table.size_drop htask

/-- The tasks after a change, with the one that was cancelled, are those before, with the one that
was scheduled.  No change does both. -/
theorem Change.tasks_size (h : Change ctx σ m outcome τ) (hσ : σ.Sound) (hspare : σ.Spare m) :
    τ.tasks.size + Counters.one outcome.cancelled
      = σ.tasks.size + Counters.one outcome.scheduled := by
  cases h with
  | createUser | createBlog | changeBlogOwner | createArticle => rfl
  | scheduleArticle id title content deleteAt blog valid row signed set later =>
    exact Table.size_add (hσ.tasks_numbered.row_next (hspare .tasks set)) _
  | deleteArticle id article valid row signed => exact hσ.size_tasksWithout row
  | cancelDeletion id article task valid row signed waiting =>
    have hsize := hσ.size_tasksWithout row
    rw [waiting] at hsize
    exact hsize

/-- The records after a change, with the one that was deleted, are those before, with the one that
was created.  It is one equation for all messages, so that a sum over a run needs no cases. -/
theorem Change.recordCount (h : Change ctx σ m outcome τ) (hσ : σ.Sound) (hspare : σ.Spare m) :
    τ.recordCount + (if outcome.effect = .deleted then 1 else 0)
      = σ.recordCount + (if m.creates?.isSome then 1 else 0) := by
  unfold Snapshot.recordCount
  cases h with
  | createUser =>
    have hsize := Table.size_add (hσ.users_numbered.row_next (hspare .users trivial))
    simp only [hsize, Outcome.on, Message.creates?, Option.isSome_some, reduceCtorEq, if_true,
      if_false]
    omega
  | createBlog =>
    have hsize := Table.size_add (hσ.blogs_numbered.row_next (hspare .blogs trivial))
    simp only [hsize, Outcome.on, Message.creates?, Option.isSome_some, reduceCtorEq, if_true,
      if_false]
    omega
  | createArticle | scheduleArticle =>
    have hsize := Table.size_add (hσ.articles_numbered.row_next (hspare .articles trivial))
    simp only [hsize, Outcome.on, Message.creates?, Option.isSome_some, reduceCtorEq, if_true,
      if_false]
    omega
  | changeBlogOwner id newOwner owner blog valid named row signed =>
    simp only [Table.size_put row, Outcome.on, Message.creates?, Option.isSome_none, reduceCtorEq,
      Bool.false_eq_true, if_false]
  | cancelDeletion id article task valid row signed waiting =>
    simp only [Table.size_put row, Outcome.on, Message.creates?, Option.isSome_none, reduceCtorEq,
      Bool.false_eq_true, if_false]
  | deleteArticle id article valid row signed =>
    have hsize := Table.size_drop row
    simp only [Snapshot.without, Outcome.on, Message.creates?, Option.isSome_none,
      Bool.false_eq_true, if_true, if_false]
    omega

end Snapshot

end BlogLedger
