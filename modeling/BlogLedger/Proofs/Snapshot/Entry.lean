import BlogLedger.Proofs.Bucket.Keys
import BlogLedger.Proofs.Schedule.Due
import BlogLedger.Proofs.Snapshot.Stored

/-!
# Entries of a snapshot

A snapshot determines every key of the store and its value, so nothing in the store depends on how
the snapshot came about.

What the store holds of a part is known from the invariants of the parts, and here it is put
together.  With the entries listed it can be seen at once which of them depend on the last numbers
and the time, and that all others depend on rows only.

## Main Definitions

* `Snapshot.tables` — the buckets and what is in them.
* `Snapshot.Entry` — the keys and values that a snapshot stands for.
* `Snapshot.SameRows` — snapshots that differ in their last numbers and times only.

## Main Results

* `Snapshot.Stored.get_iff` — a key space that stores a snapshot has exactly its entries.
* `Snapshot.Stored.get_eq_of_rows` — snapshots with the same rows are stored alike.
-/

namespace BlogLedger

/-- The buckets, each with its table of records.  They are treated alike from here on. -/
def Snapshot.tables (σ : Snapshot) : List (Bucket × Table Record) :=
  [(.users, σ.users.map .user), (.blogs, σ.blogs.map .blog), (.articles, σ.articles.map .article)]

theorem Snapshot.mem_tables {σ : Snapshot} {b : Bucket} {t : Table Record} :
    (b, t) ∈ σ.tables ↔ (b = .users ∧ t = σ.users.map .user)
      ∨ (b = .blogs ∧ t = σ.blogs.map .blog) ∨ (b = .articles ∧ t = σ.articles.map .article) := by
  simp [tables]

/-- The keys and values that a snapshot stands for.  It is a relation and not a map, as the entries
of an index are described and not computed. -/
inductive Snapshot.Entry (σ : Snapshot) : Bytes → Bytes → Prop where
  | table (b : Bucket) (t : Table Record) (mem : (b, t) ∈ σ.tables) {key value : Bytes}
      (entry : b.Entry t key value) : Entry σ key value
  | task (id : TaskId) (task : Task) (row : σ.tasks.row id.number = some task) :
    Entry σ (Schedule.taskKey id) task.encode
  | queue (id : TaskId) (task : Task) (row : σ.tasks.row id.number = some task) :
    Entry σ (Schedule.queueKey task.runAt id) []
  | sequence (given : σ.tasks.last ≠ 0) :
    Entry σ Schedule.sequenceKey (TaskId.key ⟨σ.tasks.last⟩)
  | time (set : σ.time ≠ .unset) : Entry σ Ledger.timeKey σ.time.key

/-- The entries of a bucket are those of its rows, apart from the last number.  An index lists rows,
so it does not see which numbers were given out and are gone. -/
theorem Bucket.Entry.of_rows {b : Bucket} {t u : Table Record} {key value : Bytes}
    (h : b.Entry t key value) (hrow : t.row = u.row) (hlast : key = b.sequenceKey → t.last = u.last) :
    b.Entry u key value := by
  cases h with
  | record id r row => exact .record id r (hrow ▸ row)
  | sequence given =>
    rw [hlast rfl] at given ⊢
    exact .sequence given
  | index index value ids mem some_id lists =>
    rw [hrow] at lists
    exact .index index value ids mem some_id lists

/-- Two snapshots have the same rows in every table.  They may have come about differently, so that
one has used up more numbers. -/
structure Snapshot.SameRows (σ τ : Snapshot) : Prop where
  users : σ.users.row = τ.users.row
  blogs : σ.blogs.row = τ.blogs.row
  articles : σ.articles.row = τ.articles.row
  tasks : σ.tasks.row = τ.tasks.row

theorem Snapshot.SameRows.symm {σ τ : Snapshot} (h : σ.SameRows τ) : τ.SameRows σ :=
  ⟨h.users.symm, h.blogs.symm, h.articles.symm, h.tasks.symm⟩

/-- The rows stay the same as records of any kind.  The tables of a bucket are got in this way from
those of a snapshot. -/
theorem Table.row_map_congr {α β : Type} {t u : Table α} (h : t.row = u.row) (f : α → β) :
    (t.map f).row = (u.map f).row :=
  funext fun n => congrArg (Option.map f) (congrFun h n)

/-- The entries of a snapshot are those of its rows, apart from the last numbers and the time.
Equality of these is asked at their own keys only, so it can be left out at every other. -/
theorem Snapshot.Entry.of_rows {σ τ : Snapshot} {key value : Bytes} (h : σ.Entry key value)
    (hrows : σ.SameRows τ) (hlast : ∀ q : Sequence, key = q.key → σ.last q = τ.last q)
    (htime : key = Ledger.timeKey → σ.time = τ.time) : τ.Entry key value := by
  cases h with
  | table b t mem entry =>
    rcases mem_tables.1 mem with ⟨rfl, rfl⟩ | ⟨rfl, rfl⟩ | ⟨rfl, rfl⟩
    · exact .table .users _ (by simp [tables])
        (entry.of_rows (Table.row_map_congr hrows.users _) (hlast .users))
    · exact .table .blogs _ (by simp [tables])
        (entry.of_rows (Table.row_map_congr hrows.blogs _) (hlast .blogs))
    · exact .table .articles _ (by simp [tables])
        (entry.of_rows (Table.row_map_congr hrows.articles _) (hlast .articles))
  | task id task row => exact .task id task (hrows.tasks ▸ row)
  | queue id task row => exact .queue id task (hrows.tasks ▸ row)
  | sequence given =>
    have hsame : σ.tasks.last = τ.tasks.last := hlast .tasks rfl
    rw [hsame] at given ⊢
    exact .sequence given
  | time set =>
    rw [htime rfl] at set ⊢
    exact .time set

namespace Snapshot.Stored

variable {σ : Snapshot} {s : KeySpace} {key value : Bytes}

/-- Every bucket holds its table.  So what is shown for one bucket is used for all three. -/
theorem holds (h : σ.Stored s) {b : Bucket} {t : Table Record} (hmem : (b, t) ∈ σ.tables) :
    b.Holds t s := by
  rcases mem_tables.1 hmem with ⟨rfl, rfl⟩ | ⟨rfl, rfl⟩ | ⟨rfl, rfl⟩
  · exact h.users
  · exact h.blogs
  · exact h.articles

/-- Every entry of the snapshot is stored.  This is the half that reads. -/
theorem get_of_entry (h : σ.Stored s) (hentry : σ.Entry key value) : s.get key = some value := by
  cases hentry with
  | table b t mem entry => exact (h.holds mem).get_of_entry entry
  | task id task row =>
    exact (h.schedule.tasks.get id.number).trans
      (Table.rowBytes_eq_some_iff.2 ⟨task, row, rfl⟩)
  | queue id task row =>
    have hstart := Schedule.queueStart_le_queueKey task.runAt id
    exact (h.schedule.get_queue hstart).2 ⟨rfl, id, task, row, rfl⟩
  | sequence given =>
    rw [h.schedule.sequence.get]
    exact if_neg given
  | time set =>
    rw [h.time.get]
    exact if_neg set

/-- Every key of the schedule is an entry of the snapshot.  The cases are the three starts of such
keys. -/
theorem entry_of_get_schedule (h : σ.Stored s) (hkey : Bytes.Under Schedule.starts key)
    (hget : s.get key = some value) : σ.Entry key value := by
  obtain ⟨start, hmem, hstart⟩ := hkey
  have hcases : start = Schedule.taskStart ∨ start = Schedule.queueStart
      ∨ start = Schedule.sequenceKey := by
    simpa [Schedule.starts] using hmem
  rcases hcases with rfl | rfl | rfl
  · obtain ⟨n, rfl, hbytes⟩ := h.schedule.tasks.of_get hstart hget
    obtain ⟨task, hrow, rfl⟩ := Table.rowBytes_eq_some_iff.1 hbytes
    exact .task ⟨n⟩ task hrow
  · obtain ⟨rfl, id, task, hrow, rfl⟩ := (h.schedule.get_queue hstart).1 hget
    exact .queue id task hrow
  · obtain ⟨rfl, hbytes⟩ := h.schedule.sequence.of_get hstart hget
    obtain ⟨hgiven, rfl⟩ := Table.lastBytes_eq_some_iff.1 hbytes
    exact .sequence hgiven

/-- A key space that stores a snapshot has exactly the entries of the snapshot.  A key either
belongs to a part, which knows its keys, or there is nothing under it. -/
theorem get_iff (h : σ.Stored s) : s.get key = some value ↔ σ.Entry key value := by
  refine ⟨fun hget => ?_, h.get_of_entry⟩
  by_cases hkey : ∃ p : Part, Bytes.Under p.starts key
  · obtain ⟨p, hp⟩ := hkey
    cases p with
    | users => exact .table .users _ List.mem_cons_self (h.users.entry_of_get hp hget)
    | blogs =>
      exact .table .blogs _ (List.mem_cons_of_mem _ List.mem_cons_self)
        (h.blogs.entry_of_get hp hget)
    | articles =>
      exact .table .articles _ (List.mem_of_mem_getLast? rfl) (h.articles.entry_of_get hp hget)
    | schedule => exact h.entry_of_get_schedule hp hget
    | time =>
      obtain ⟨start, hmem, hstart⟩ := hp
      obtain rfl : start = Ledger.timeKey := List.mem_singleton.1 hmem
      obtain ⟨rfl, hbytes⟩ := h.time.of_get hstart hget
      unfold timeBytes at hbytes
      split at hbytes
      · cases hbytes
      · next hset =>
        cases hbytes
        exact .time hset
  · rw [h.nothing key fun p hp => hkey ⟨p, hp⟩] at hget
    cases hget

/-- Stores of snapshots with the same rows show the same under every key that is not that of a
sequence or a time in which the snapshots differ.  It is enough to show one direction, as the
snapshots can be exchanged. -/
theorem get_eq_of_rows {τ : Snapshot} {u : KeySpace} (h : σ.Stored s) (hu : τ.Stored u)
    (hrows : σ.SameRows τ) (hlast : ∀ q : Sequence, key = q.key → σ.last q = τ.last q)
    (htime : key = Ledger.timeKey → σ.time = τ.time) : s.get key = u.get key := by
  apply Option.ext
  intro value
  rw [h.get_iff, hu.get_iff]
  exact ⟨fun hentry => hentry.of_rows hrows hlast htime, fun hentry =>
    hentry.of_rows hrows.symm (fun q hq => (hlast q hq).symm) fun ht => (htime ht).symm⟩

/-- Two stores of one snapshot show the same.  So the bytes depend on what is stored and not on how
it got there. -/
theorem get_eq {u : KeySpace} (h : σ.Stored s) (hu : σ.Stored u) (key : Bytes) :
    s.get key = u.get key := by
  apply Option.ext
  intro value
  rw [h.get_iff, hu.get_iff]

end Snapshot.Stored

end BlogLedger
