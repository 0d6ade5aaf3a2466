import BlogLedger.Proofs.Snapshot.Change
import BlogLedger.Proofs.Snapshot.Entry

/-!
# Records of any kind

Users, blogs and articles are kept in the same way, so what is said of the records of one kind is
said once, of the kind.

For what concerns numbers and times of creation it does not matter which kind it is, and a proof
that went through the three kinds would say everything three times.

## Main Definitions

* `RecordKind.bucket`, `RecordKind.sequence` — where the records of a kind are kept, and where their
  numbers come from.
* `Record.createdAt` — when a record was created.
* `Message.creates?` — the kind of the record that a message creates.
* `Snapshot.records` — the table of the records of a kind.
* `Snapshot.RecordsChange` — what a message may do to the records of a kind.

## Main Results

* `Snapshot.Stored.records` — the bucket of a kind holds its table.
* `Snapshot.Change.records` — a change does to the records of a kind what a message may do.
* `Snapshot.Change.adds` — a message that creates a record adds a row and reports its number.
* `Snapshot.RecordsChange.origin` — where a record comes from.
-/

namespace BlogLedger

/-- The bucket of the records of a kind. -/
def RecordKind.bucket : RecordKind → Bucket
  | .user => .users
  | .blog => .blogs
  | .article => .articles

/-- The sequence from which the records of a kind are numbered. -/
def RecordKind.sequence : RecordKind → Sequence
  | .user => .users
  | .blog => .blogs
  | .article => .articles

/-- When a record was created. -/
def Record.createdAt : Record → Timestamp
  | .user u => u.registeredAt
  | .blog b => b.createdAt
  | .article a => a.createdAt

/-- The kind of the record that a message creates, if it creates one.  A task is not a record, so it
is not counted here. -/
def Message.creates? : Message → Option RecordKind
  | .createUser .. => some .user
  | .createBlog .. => some .blog
  | .createArticle .. => some .article
  | .changeBlogOwner .. | .deleteArticle _ | .cancelDeletion _ => none

/-- A message takes a number from the sequence of a kind exactly when it creates such a record. -/
theorem Message.takes_sequence_iff {m : Message} {kind : RecordKind} :
    m.Takes kind.sequence ↔ m.creates? = some kind := by
  cases m <;> cases kind <;> simp [Takes, RecordKind.sequence, creates?]

theorem RecordKind.key_sequence (kind : RecordKind) :
    kind.sequence.key = kind.bucket.sequenceKey := by
  cases kind <;> rfl

namespace Snapshot

/-- The table of the records of a kind.  The rows are records of any kind here, as they are in a
bucket. -/
def records (σ : Snapshot) : RecordKind → Table Record
  | .user => σ.users.map .user
  | .blog => σ.blogs.map .blog
  | .article => σ.articles.map .article

variable {σ τ : Snapshot} {s : KeySpace} {kind : RecordKind} {n : UInt64} {r : Record}

theorem last_records (σ : Snapshot) (kind : RecordKind) :
    (σ.records kind).last = σ.last kind.sequence := by
  cases kind <;> rfl

theorem records_withTime (σ : Snapshot) (time : Timestamp) (kind : RecordKind) :
    { σ with time }.records kind = σ.records kind := by
  cases kind <;> rfl

theorem next_records (σ : Snapshot) (kind : RecordKind) :
    (σ.records kind).next = σ.last kind.sequence + 1 := by
  rw [Table.next, last_records]

/-- The bucket of a kind holds its table. -/
theorem Stored.records (h : σ.Stored s) (kind : RecordKind) :
    kind.bucket.Holds (σ.records kind) s := by
  cases kind with
  | user => exact h.users
  | blog => exact h.blogs
  | article => exact h.articles

/-- Every record has a number that was given out.  So the next number is free. -/
theorem Sound.records_numbered (h : σ.Sound) (kind : RecordKind) : (σ.records kind).Numbered := by
  cases kind with
  | user => exact h.users_numbered.map _
  | blog => exact h.blogs_numbered.map _
  | article => exact h.articles_numbered.map _

/-- What a message may do to the records of a kind: a record comes under the next number, is
exchanged for one that was created when it was, or goes.  It says less than a change does, but it
says the same for all kinds, and one message makes one such step at most. -/
inductive RecordsChange (ctx : Context) (m : Message) (kind : RecordKind) (t : Table Record) :
    Table Record → Prop where
  | kept : RecordsChange ctx m kind t t
  | created (r : Record) (taken : m.Takes kind.sequence) (createdAt_eq : r.createdAt = ctx.time) :
    RecordsChange ctx m kind t (t.add r)
  | edited (n : UInt64) (old r : Record) (row : t.row n = some old)
      (createdAt_eq : r.createdAt = old.createdAt) : RecordsChange ctx m kind t (t.put n r)
  | deleted (n : UInt64) : RecordsChange ctx m kind t (t.drop n)

namespace Change

variable {ctx : Context} {m : Message} {outcome : Outcome}

/-- A change does to the records of every kind what a message may do to them.  The cases are the
changes, and for each the kind that it concerns is set apart from the others. -/
theorem records (h : Change ctx σ m outcome τ) (kind : RecordKind) :
    RecordsChange ctx m kind (σ.records kind) (τ.records kind) := by
  -- Each change concerns the records of one kind and keeps those of the others.
  cases h with
  | createUser username bio valid =>
    cases kind with
    | user =>
      dsimp only [Snapshot.records]
      rw [Table.map_add]
      exact .created _ trivial rfl
    | blog | article => exact .kept
  | createBlog title description owner valid signed =>
    cases kind with
    | blog =>
      dsimp only [Snapshot.records]
      rw [Table.map_add]
      exact .created _ trivial rfl
    | user | article => exact .kept
  | changeBlogOwner id newOwner owner old valid named row signed =>
    cases kind with
    | blog =>
      dsimp only [Snapshot.records]
      rw [Table.map_put]
      exact .edited _ (.blog old) _ (Option.map_eq_some_iff.2 ⟨old, row, rfl⟩) rfl
    | user | article => exact .kept
  | createArticle | scheduleArticle =>
    cases kind with
    | article =>
      dsimp only [Snapshot.records]
      rw [Table.map_add]
      exact .created _ trivial rfl
    | user | blog => exact .kept
  | deleteArticle id article valid row signed =>
    cases kind with
    | article =>
      dsimp only [Snapshot.records, Snapshot.without]
      rw [Table.map_drop]
      exact .deleted _
    | user | blog => exact .kept
  | cancelDeletion id article task valid row signed waiting =>
    cases kind with
    | article =>
      dsimp only [Snapshot.records]
      rw [Table.map_put]
      exact .edited _ (.article article) _ (Option.map_eq_some_iff.2 ⟨article, row, rfl⟩) rfl
    | user | blog => exact .kept

/-- A message that takes a number from the sequence of a kind adds a record of the kind and reports
its number.  The number that a caller gets is therefore the one under which the record is found. -/
theorem adds (h : Change ctx σ m outcome τ) (htakes : m.Takes kind.sequence) :
    outcome.id = some ⟨(σ.records kind).next⟩
      ∧ ∃ r, τ.records kind = (σ.records kind).add r := by
  cases h with
  | createUser =>
    cases kind with
    | user => exact ⟨rfl, _, Table.map_add _ _ _⟩
    | blog | article => exact htakes.elim
  | createBlog =>
    cases kind with
    | blog => exact ⟨rfl, _, Table.map_add _ _ _⟩
    | user | article => exact htakes.elim
  | createArticle | scheduleArticle =>
    cases kind with
    | article => exact ⟨rfl, _, Table.map_add _ _ _⟩
    | user | blog => exact htakes.elim
  | changeBlogOwner | deleteArticle | cancelDeletion => cases kind <;> exact htakes.elim

end Change

/-- A record was there before, created when it was, or it was created now under the next number.
This is the step for whatever is shown of all records of a run by looking back at where they come
from. -/
theorem RecordsChange.origin {ctx : Context} {m : Message} {t t' : Table Record}
    (h : RecordsChange ctx m kind t t') (hrow : t'.row n = some r) :
    (∃ old, t.row n = some old ∧ r.createdAt = old.createdAt)
      ∨ m.Takes kind.sequence ∧ n = t.next ∧ r.createdAt = ctx.time := by
  cases h with
  | kept => exact .inl ⟨r, hrow, rfl⟩
  | created r' taken createdAt_eq =>
    rcases Table.row_add_eq_some hrow with ⟨rfl, rfl⟩ | hold
    · exact .inr ⟨taken, rfl, createdAt_eq⟩
    · exact .inl ⟨r, hold, rfl⟩
  | edited m old r' row createdAt_eq =>
    rw [Table.row_put] at hrow
    split at hrow
    · next hn =>
      cases hrow
      exact .inl ⟨old, hn ▸ row, createdAt_eq⟩
    · exact .inl ⟨r, hrow, rfl⟩
  | deleted m =>
    rw [Table.row_drop] at hrow
    split at hrow
    · cases hrow
    · exact .inl ⟨r, hrow, rfl⟩

end Snapshot

end BlogLedger
