import BlogLedger.Proofs.Bucket.Lookup
import BlogLedger.Proofs.Bucket.Names
import BlogLedger.Proofs.Bucket.Requests
import BlogLedger.Proofs.Schedule.Queue
import BlogLedger.Proofs.Snapshot.Kinds
import BlogLedger.Proofs.Transition.Touched

/-!
# Parts of the store do not interfere

The buckets, the schedule and the time of the last transition share one store.  Whatever the store
holds, what one of them does is invisible to the others, and a look-up in one index of the articles
does not see the entries of the other one.

Nothing is assumed of the store, for it may have been written by something else, and an edit may
fail in the middle.  It comes down to two facts: an operation writes to keys of its own part, and a
read looks at keys of its own part.  The starts of the parts are apart, and so are those of the two
indexes.

## Main Definitions

* `Bucket.SameLookups`, `Bucket.SameReads`, `Schedule.SameReads` — two key spaces cannot be told apart
  by looking up an index, by reading a bucket and by reading the schedule.
* `Part.SameReads` — the same for any part of the store.
* `Operation`, `Operation.part`, `Operation.run` — what one part of the store is asked to do.
* `KeySpace.NoInterference` — no part of a store sees what another one does.

## Main Results

* `Bucket.SameReads.of_get`, `Schedule.SameReads.of_get` — reads depend on the keys of their part.
* `Operation.confined` — an operation changes keys of its own part.
* `no_interference` — parts of the store do not interfere.
-/

namespace BlogLedger

open Bytes (Under)
open KeySpace (Confined)

/-! ### Reads -/

/-- Looking up an index gives the same in both key spaces.  All ways of a look-up are listed, with
failures among the results. -/
structure Bucket.SameLookups (b : Bucket) (index : String) (s t : KeySpace) : Prop where
  byIndex : ∀ value, b.byIndex index value t = b.byIndex index value s
  byIndexStart : ∀ start, b.byIndexStart index start t = b.byIndexStart index start s
  byIndexRange : ∀ start stop,
    b.byIndexRange index start stop t = b.byIndexRange index start stop s

/-- Reading a bucket gives the same in both key spaces.  The parts are the reads that a bucket
offers. -/
structure Bucket.SameReads (b : Bucket) (s t : KeySpace) : Prop where
  get : ∀ id, b.get id t = b.get id s
  mustGet : ∀ id, b.mustGet id t = b.mustGet id s
  exists? : ∀ id, b.exists? id t = b.exists? id s
  peekNextId : b.peekNextId t = b.peekNextId s
  scan : ∀ start, b.scan start t = b.scan start s
  loadAll : ∀ ids, b.loadAll ids t = b.loadAll ids s
  /-- Also where the bucket has no index of the name. -/
  lookups : ∀ index, b.SameLookups index s t

/-- Reading the schedule gives the same in both key spaces.  The parts are the reads that the
schedule offers. -/
structure Schedule.SameReads (s t : KeySpace) : Prop where
  task? : ∀ id, Schedule.task? id t = Schedule.task? id s
  due : ∀ now limit, Schedule.due now limit t = Schedule.due now limit s
  pending : Schedule.pending t = Schedule.pending s

/-- Reading a part of the store gives the same in both key spaces.  With it one statement does for
all parts. -/
def Part.SameReads (s t : KeySpace) : Part → Prop
  | .users => Bucket.users.SameReads s t
  | .blogs => Bucket.blogs.SameReads s t
  | .articles => Bucket.articles.SameReads s t
  | .schedule => Schedule.SameReads s t
  | .time => ∀ l : Ledger, { l with store := t }.lastTime = { l with store := s }.lastTime

variable {s t : KeySpace} {b : Bucket} {index : String}

namespace Bucket

theorem indexStart_of_inRange_prefixEnd {start key : Bytes}
    (hkey : ByteMap.inRange (b.indexKey index start) (b.indexKey index start).prefixEnd key = true) :
    b.indexStart index <+: key :=
  (b.indexStart_le_indexKey index start).trans ((ByteMap.inRange_prefixEnd _ _).1 hkey)

theorem indexStart_of_inRange_stopKey {start key : Bytes} {stop : Option Bytes}
    (hkey : ByteMap.inRange (b.indexKey index start) (b.stopKey index stop) key = true) :
    b.indexStart index <+: key := by
  obtain ⟨value, rfl, -⟩ := inRange_stopKey.1 hkey
  exact b.indexStart_le_indexKey index value

/-- A lookup depends on the entries of its index.  Ranges of values are ranges of keys under the
start of the index, so no other key is met. -/
theorem SameLookups.of_get (h : ∀ key, b.indexStart index <+: key → t.get key = s.get key) :
    b.SameLookups index s t where
  byIndex value := by
    unfold Bucket.byIndex entry
    rw [h _ (b.indexStart_le_indexKey index value)]
  byIndexStart start := by
    unfold Bucket.byIndexStart KeySpace.scan
    rw [KeySpace.range_congr fun key hkey => h key (indexStart_of_inRange_prefixEnd hkey)]
  byIndexRange start stop := by
    have hrange : t.range (b.indexKey index start) (b.stopKey index stop)
        = s.range (b.indexKey index start) (b.stopKey index stop) :=
      KeySpace.range_congr fun key hkey => h key (indexStart_of_inRange_stopKey hkey)
    unfold Bucket.byIndexRange
    cases stop with
    | none | some => exact congrArg (b.checkIndex index >>= fun _ => listed ·) hrange

/-- A lookup in an index that the bucket does not have depends on nothing.  It is refused before the
store is looked at. -/
theorem SameLookups.of_not_mem (h : index ∉ b.indexNames) (s t : KeySpace) :
    b.SameLookups index s t := by
  have hcheck : b.checkIndex index = fail (.noIndex b.name index) :=
    if_neg fun hhas => h (List.contains_iff_mem.1 hhas)
  constructor
  · intro value
    unfold Bucket.byIndex
    rw [hcheck]
    rfl
  · intro start
    unfold Bucket.byIndexStart
    rw [hcheck]
    rfl
  · intro start stop
    unfold Bucket.byIndexRange
    rw [hcheck]
    rfl

/-- The reads of a bucket depend on the keys of the bucket.  The indexes are part of it, also for
names that it does not have. -/
theorem SameReads.of_get (h : ∀ key, Under b.starts key → t.get key = s.get key) :
    b.SameReads s t := by
  have hget : ∀ id, b.get id t = b.get id s := by
    intro id
    unfold Bucket.get
    rw [h _ (b.under_recordKey id)]
  constructor
  case get => exact hget
  case mustGet =>
    intro id
    unfold Bucket.mustGet
    rw [hget]
  case exists? =>
    intro id
    unfold Bucket.exists? KeySpace.has
    rw [h _ (b.under_recordKey id)]
  case peekNextId =>
    unfold Bucket.peekNextId
    rw [h _ b.under_sequenceKey]
  case scan =>
    intro start
    unfold Bucket.scan KeySpace.scan
    rw [KeySpace.range_congr fun key hkey => h key ⟨b.recordStart, List.mem_cons_self,
      (List.prefix_append _ _).trans ((ByteMap.inRange_prefixEnd _ _).1 hkey)⟩]
  case loadAll =>
    intro ids
    unfold Bucket.loadAll
    simp only [hget]
  case lookups =>
    intro index
    by_cases hindex : index ∈ b.indexNames
    · obtain ⟨x, hx, rfl⟩ := List.mem_map.1 hindex
      refine .of_get fun key hkey => h key ⟨b.indexStart x.name, ?_, hkey⟩
      exact List.mem_cons_of_mem _ (List.mem_cons_of_mem _ (List.mem_map_of_mem hx))
    · exact .of_not_mem hindex s t

end Bucket

/-- The reads of the schedule depend on the keys of the schedule.  The range of what is due ends
with a key of the queue, so it stays within the queue. -/
theorem Schedule.SameReads.of_get
    (h : ∀ key, Under Schedule.starts key → t.get key = s.get key) : Schedule.SameReads s t := by
  have htask : ∀ id, Schedule.task? id t = Schedule.task? id s := by
    intro id
    unfold Schedule.task?
    rw [h _ (under_taskKey id)]
  have hqueue : ∀ key, queueStart <+: key → t.get key = s.get key :=
    fun key hkey => h key ⟨queueStart, by simp [starts], hkey⟩
  constructor
  case task? => exact htask
  case due =>
    intro now limit
    have hrange : t.range queueStart (some (queueStart ++ (now.addSeconds 1).key))
        = s.range queueStart (some (queueStart ++ (now.addSeconds 1).key)) := by
      refine KeySpace.range_congr fun key hkey => hqueue key ?_
      obtain ⟨hlow, hhigh⟩ := Bool.and_eq_true_iff.1 hkey
      exact Bytes.starts_of_le_of_lt (of_decide_eq_true hlow) (of_decide_eq_true hhigh)
    unfold Schedule.due
    simp only [hrange, htask]
  case pending =>
    unfold Schedule.pending KeySpace.scan
    rw [KeySpace.range_congr fun key hkey => hqueue key ((ByteMap.inRange_prefixEnd _ _).1 hkey)]

/-- The reads of a part depend on the keys of the part. -/
theorem Part.SameReads.of_get {p : Part}
    (h : ∀ key, Under p.starts key → t.get key = s.get key) : p.SameReads s t := by
  cases p with
  | users | blogs | articles => exact Bucket.SameReads.of_get h
  | schedule => exact Schedule.SameReads.of_get h
  | time =>
    intro l
    unfold Ledger.lastTime
    rw [h _ ⟨_, List.mem_singleton_self _, List.prefix_rfl⟩]

/-! ### Operations -/

/-- What one part of the store is asked to do, with any arguments.  No argument is excluded, so it
may fail. -/
inductive Operation where
  | bucket (kind : RecordKind) (request : Bucket.Request)
  | schedule (request : Schedule.Request)
  | time (now : Timestamp)

/-- The part of the store where the records of a kind are kept. -/
def RecordKind.part : RecordKind → Part
  | .user => .users
  | .blog => .blogs
  | .article => .articles

theorem RecordKind.starts_part (kind : RecordKind) : kind.part.starts = kind.bucket.starts := by
  cases kind <;> rfl

namespace Operation

/-- The part of the store that is asked. -/
def part : Operation → Part
  | .bucket kind _ => kind.part
  | .schedule _ => .schedule
  | .time _ => .time

/-- The key space that an operation leaves behind, whether it succeeds or fails. -/
def run (s : KeySpace) : Operation → KeySpace
  | .bucket kind request => ((kind.bucket.ask request).run s).2
  | .schedule request => request.run s
  | .time now => Ledger.writeTime now s

end Operation

theorem Bucket.touches_ask (b : Bucket) (request : Bucket.Request) :
    (b.ask request).Touches b.starts := by
  cases request with
  | create r => exact .bind (b.touches_create r) fun _ => .pure _
  | save id r => exact b.touches_save id r
  | delete id => exact b.touches_delete id

theorem Schedule.Request.confined (request : Schedule.Request) (s : KeySpace) :
    Confined Schedule.starts s (request.run s) := by
  cases request with
  | add runAt message => exact (touches_add runAt message).confined s
  | cancel id => exact (touches_cancel id).confined s
  | take id => exact (touches_take id).confined s

/-- Whether it succeeds or fails, an operation changes keys of its own part.  Writes are looked at
one by one, and not what the operation wants. -/
theorem Operation.confined (o : Operation) (s : KeySpace) :
    Confined o.part.starts s (o.run s) := by
  cases o with
  | bucket kind request =>
    show Confined kind.part.starts s _
    rw [kind.starts_part]
    exact (kind.bucket.touches_ask request).confined s
  | schedule request => exact request.confined s
  | time now => exact .set ⟨_, List.mem_singleton_self _, List.prefix_rfl⟩ _ s

/-- Another part reads after an operation what it read before.  Its keys did not change, as they
belong to one part only. -/
theorem Operation.sameReads (o : Operation) (s : KeySpace) {p : Part} (hne : p ≠ o.part) :
    p.SameReads s (o.run s) :=
  .of_get fun _ hkey =>
    (o.confined s).get_of_under hkey (Part.apart p p.mem_all o.part o.part.mem_all hne)

/-- No part of a store sees what another one does, and no index of the articles what is entered in the
other one. -/
structure KeySpace.NoInterference (s : KeySpace) : Prop where
  /-- An operation of one part, successful or not, leaves every read of every other part. -/
  operations : ∀ (o : Operation) (p : Part), p ≠ o.part → p.SameReads s (o.run s)
  /-- Whatever happens to the entries of one index leaves every lookup in the other one.  The name
  of the one is the end of the other's, but keys begin with the name of the bucket, so neither start
  begins the other. -/
  indexes : ∀ x ∈ Bucket.articles.indexes, ∀ y ∈ Bucket.articles.indexes, x.name ≠ y.name →
    ∀ t, (∀ key, ¬ Bucket.articles.indexStart y.name <+: key → t.get key = s.get key) →
      Bucket.articles.SameLookups x.name s t

theorem Bucket.articles_named : articles.Named := by
  refine ⟨by decide, fun index hindex => ?_, by decide⟩
  have hcases : index = .blog ∨ index = .timedBlog := by simpa [articles] using hindex
  rcases hcases with rfl | rfl <;> decide

/-- In every store, whatever it holds, the parts do not interfere. -/
theorem no_interference (s : KeySpace) : s.NoInterference where
  operations o _ hne := o.sameReads s hne
  indexes _ hx _ hy hne _ h :=
    .of_get fun key hkey =>
      h key ((Bucket.articles_named.index_apart hx hy hne).not_starts hkey)

end BlogLedger
