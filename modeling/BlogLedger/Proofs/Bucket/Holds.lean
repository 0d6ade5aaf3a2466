import BlogLedger.Proofs.Bucket.Entries
import BlogLedger.Proofs.Table

/-!
# What a bucket holds

A bucket stands for a table of records: one key a record, one for the last number, and under every
index value the list of the records that have it.  Its reads show the table and its writes change
the table, whatever else the key space holds.

`Bucket.Holds` is the invariant on which everything about buckets rests.  It is a function of the
table, so that two stores with one table agree on all keys of the bucket.  It is local as well: only
the keys of the bucket are looked at.  The first lets what is stored be forgotten once the table is
known, and the second lets several buckets and the schedule share one key space.

## Main Definitions

* `Bucket.Suits` — a record is of the bucket's kind and every index takes it.
* `Bucket.Holds` — a key space holds exactly a table of suitable records for a bucket.

## Main Results

* `Bucket.Holds.get`, `Bucket.Holds.mustGet_some`, `Bucket.Holds.peekNextId` — reads show the table.
* `Bucket.Holds.run_save`, `Bucket.Holds.run_create`, `Bucket.Holds.run_delete` — writes go through,
  stay within the bucket's own keys and change the table.
-/

namespace BlogLedger.Bucket

open KeySpace (Confined)

/-- The starts of all keys of a bucket: its records, its sequence and the entries of its indexes. -/
def starts (b : Bucket) : List Bytes :=
  b.recordStart :: b.sequenceKey :: b.entryStarts b.indexes

/-- No start of the keys of a bucket starts with another one.  It is a condition on the names of the
bucket and its indexes, and it is decided for each bucket once. -/
def Separated (b : Bucket) : Prop := b.starts.Pairwise Bytes.Apart

instance (b : Bucket) : Decidable b.Separated :=
  inferInstanceAs (Decidable (List.Pairwise _ _))

/-- A record is of the bucket's kind, and every index has a value or none for it.  Such a record can
be stored without a failure; whether its fields are in order is another question. -/
structure Suits (b : Bucket) (r : Record) : Prop where
  kind : r.kind = b.kind
  values : ∀ index ∈ b.indexes, index.value r = .ok (valueIn index r)

/-- The value of the record of a number in an index.  It is the function that the entries of the
index are compared with. -/
def heldIn (t : Table Record) (index : Index) (id : RecordId) : Option Bytes :=
  (t.row id.number).bind (valueIn index)

/-- A key space holds exactly the table for a bucket.  It has one field for each group of keys, and
all rows are suitable, so that the values in indexes are defined. -/
structure Holds (b : Bucket) (t : Table Record) (s : KeySpace) : Prop where
  suits : ∀ n r, t.row n = some r → b.Suits r
  records : s.Rows b.recordStart (t.rowBytes Record.encode)
  sequence : s.Single b.sequenceKey t.lastBytes
  entries : ∀ index ∈ b.indexes, b.Indexes index.name (heldIn t index) s

variable {b : Bucket} {t : Table Record} {s : KeySpace} {r : Record}

theorem checkKind_eq (h : r.kind = b.kind) : b.checkKind r = .ok () := if_pos h

/-- A suitable record reads back in its bucket.  Reading checks the kind, which a record of another
bucket would not pass. -/
theorem decode_encode (h : b.Suits r) : b.decode r.encode = .ok r := by
  unfold decode
  rw [Record.decode_encode]
  show (b.checkKind r >>= fun _ => pure r) = _
  rw [checkKind_eq h.kind]
  rfl

theorem valueOf_eq {index : Index} {o : Option Record}
    (h : ∀ r, o = some r → index.value r = .ok (valueIn index r)) :
    valueOf index o = .ok (o.bind (valueIn index)) := by
  cases o with
  | none => rfl
  | some r =>
    have hr : index.value.ofOption (some r) = .ok (valueIn index r) := h r rfl
    unfold valueOf
    rw [hr]
    rfl

/-- The changes that putting one suitable record in place of another asks for.  Computing them is
the only step of a write that looks at values, and it comes before anything is written. -/
theorem changes_eq (old new : Option Record) (hold : ∀ r, old = some r → b.Suits r)
    (hnew : ∀ r, new = some r → b.Suits r) :
    b.changes old new
      = .ok ((b.indexes.map (changeOf old new)).filter fun c => c.old ≠ c.new) := by
  have hall : (b.indexes.mapM fun index => do
      return (⟨index.name, ← valueOf index old, ← valueOf index new⟩ : Change))
        = (Except.ok (b.indexes.map (changeOf old new)) : Except Failure (List Change)) := by
    have heach : ∀ index ∈ b.indexes,
        (do return (⟨index.name, ← valueOf index old, ← valueOf index new⟩ : Change))
          = (Except.ok (changeOf old new index) : Except Failure Change) := by
      intro index hindex
      rw [valueOf_eq fun r hr => (hold r hr).values index hindex,
        valueOf_eq fun r hr => (hnew r hr).values index hindex]
      rfl
    generalize b.indexes = indexes at heach
    induction indexes with
    | nil => rfl
    | cons index rest ih =>
      rw [List.mapM_cons, heach index List.mem_cons_self,
        ih fun other hother => heach other (List.mem_cons_of_mem index hother)]
      rfl
  unfold changes
  rw [hall]
  rfl

/-! ### Kinds of keys -/

section Separated

variable (hb : b.Separated)

include hb

theorem Separated.record_apart : ∀ q ∈ b.sequenceKey :: b.entryStarts b.indexes,
    Bytes.Apart b.recordStart q :=
  (List.pairwise_cons.1 hb).1

theorem Separated.sequence_apart : ∀ q ∈ b.entryStarts b.indexes, Bytes.Apart b.sequenceKey q :=
  (List.pairwise_cons.1 (List.pairwise_cons.1 hb).2).1

theorem Separated.entries_apart : (b.entryStarts b.indexes).Pairwise Bytes.Apart :=
  (List.pairwise_cons.1 (List.pairwise_cons.1 hb).2).2

end Separated

/-- Entries of indexes stay when nothing under their starts changes.  The writes are given by their
starts and not one by one. -/
theorem Indexes.of_confined {index : Index} {held : RecordId → Option Bytes} {u : KeySpace}
    {written : List Bytes} (h : b.Indexes index.name held s) (hsu : Confined written s u)
    (hap : ∀ q ∈ written, Bytes.Apart (b.indexStart index.name) q) :
    b.Indexes index.name held u :=
  h.congr fun value => hsu.get_of_apart (b.indexStart_le_indexKey index.name value) hap

namespace Holds

/-! ### Reading -/

/-- The key of a record holds the row of its number.  A number without a row has no key. -/
theorem get_recordKey (h : b.Holds t s) (id : RecordId) :
    s.get (b.recordKey id) = (t.row id.number).map Record.encode :=
  h.records.get id.number

/-- The record of a number is the row of the table.  In particular reading never fails. -/
protected theorem get (h : b.Holds t s) (id : RecordId) : b.get id s = .ok (t.row id.number) := by
  unfold Bucket.get
  rw [h.get_recordKey]
  cases hrow : t.row id.number with
  | none => rfl
  | some r =>
    show (b.decode r.encode).map some = _
    rw [decode_encode (h.suits _ r hrow)]
    rfl

/-- A number has a record exactly when it has a row.  That the record can be decoded is not looked
at here. -/
theorem exists?_eq (h : b.Holds t s) (id : RecordId) :
    b.exists? id s = (t.row id.number).isSome := by
  unfold Bucket.exists? KeySpace.has
  rw [h.get_recordKey, Option.isSome_map]

theorem mustGet_some (h : b.Holds t s) {id : RecordId} (hrow : t.row id.number = some r) :
    b.mustGet id s = .ok r := by
  unfold Bucket.mustGet
  rw [h.get, hrow]
  rfl

theorem mustGet_none (h : b.Holds t s) {id : RecordId} (hrow : t.row id.number = none) :
    b.mustGet id s = fail (.noRecord b.kind id) := by
  unfold Bucket.mustGet
  rw [h.get, hrow]
  rfl

/-- The next number follows the last one.  The table knows its last number, also after the record
with that number was deleted. -/
theorem peekNextId (h : b.Holds t s) : b.peekNextId s = .ok ⟨t.next⟩ := by
  unfold Bucket.peekNextId
  rw [h.sequence.get]
  unfold Table.lastBytes
  by_cases hlast : t.last = 0
  · rw [if_pos hlast, Table.next, hlast]
    rfl
  · rw [if_neg hlast]
    simp only [RecordId.ofKey, RecordId.ofKey?, Bytes.ofBig64?_big64]
    rfl

/-! ### Writing -/

/-- An empty key space holds the empty table for every bucket.  Every run starts from it. -/
theorem empty (b : Bucket) : b.Holds .empty .empty where
  suits := nofun
  records := .empty _ _
  sequence := .empty _
  entries := by
    intro index _ value
    refine ⟨[], ⟨.nil, fun id => by simp [heldIn, Table.empty]⟩, ?_⟩
    rw [KeySpace.get_empty, IdList.stored?_nil]

/-- Only the keys of the bucket matter.  So a bucket holds its table in every key space that agrees
with this one there. -/
theorem congr {u : KeySpace} (h : b.Holds t s)
    (hget : ∀ key, Bytes.Under b.starts key → u.get key = s.get key) : b.Holds t u := by
  have hstart : ∀ p ∈ b.starts, ∀ key, p <+: key → u.get key = s.get key :=
    fun p hp key hkey => hget key ⟨p, hp, hkey⟩
  refine ⟨h.suits, h.records.congr (hstart _ ?_), h.sequence.congr (hstart _ ?_), ?_⟩
  · exact List.mem_cons_self
  · exact List.mem_cons_of_mem _ List.mem_cons_self
  · intro index hindex
    have hmem : b.indexStart index.name ∈ b.starts :=
      List.mem_cons_of_mem _ (List.mem_cons_of_mem _ (List.mem_map_of_mem hindex))
    exact (h.entries index hindex).congr fun value =>
      hstart _ hmem _ (b.indexStart_le_indexKey index.name value)

/-- Nothing changes when other keys do.  It is the same fact, in the form in which it is used after
a write to another part. -/
theorem of_confined {u : KeySpace} {written : List Bytes} (h : b.Holds t s)
    (hsu : Confined written s u) (hap : ∀ p ∈ b.starts, ∀ q ∈ written, Bytes.Apart p q) :
    b.Holds t u :=
  h.congr fun _ hkey => hsu.get_of_under hkey hap

/-- Who holds which value when the record of one number is exchanged.  The function changes at this
number and nowhere else, for every index alike. -/
theorem heldIn_update {t' : Table Record} {id : RecordId} {new : Option Record}
    (hrow : t'.row = Function.update t.row id.number new) (index : Index) :
    heldIn t' index = Function.update (heldIn t index) id (new.bind (valueIn index)) := by
  funext other
  rw [heldIn, hrow, Function.update_apply, Function.update_apply]
  by_cases hother : other = id
  · rw [if_pos (by rw [hother]), if_pos hother]
  · rw [if_neg fun hn => hother (congrArg RecordId.mk hn), if_neg hother]
    rfl

/-- The entries follow when a record is exchanged: the record is written or removed first, and the
entries after that.  Saving and deleting share this argument, as for the entries they differ in the
new record only. -/
theorem run_reindex {t' : Table Record} {u : KeySpace} (hb : b.Separated) (h : b.Holds t s)
    (hsu : Confined [b.recordStart] s u) (id : RecordId) (new : Option Record)
    (hsuits : ∀ r, new = some r → b.Suits r)
    (hrecords : u.Rows b.recordStart (t'.rowBytes Record.encode))
    (hrow : t'.row = Function.update t.row id.number new) (hlast : t'.last = t.last) :
    ∃ v, (b.applyChanges id
        ((b.indexes.map (changeOf (t.row id.number) new)).filter fun c => c.old ≠ c.new)).run u
          = (.ok (), v)
      ∧ Confined b.starts s v ∧ b.Holds t' v := by
  have hentries : ∀ index ∈ b.indexes, b.Indexes index.name (heldIn t index) u := by
    intro index hindex
    refine (h.entries index hindex).of_confined hsu fun q hq => ?_
    rw [List.mem_singleton.1 hq]
    exact (hb.record_apart _ (List.mem_cons_of_mem _ (List.mem_map_of_mem hindex))).symm
  obtain ⟨v, hrun, hconf, hv⟩ := run_applyChanges (t.row id.number) new
    hb.entries_apart hentries
    fun index _ => (rfl : heldIn t index id = _)
  -- The records and the number lie under other starts than the entries that were changed.
  refine ⟨v, hrun, ?_, ?_, ?_, ?_, ?_⟩
  · exact (hsu.mono (by simp [starts])).trans (hconf.mono (by simp [starts]))
  · intro n r hr
    rw [hrow, Function.update_apply] at hr
    split at hr
    · exact hsuits r hr
    · exact h.suits n r hr
  · exact hrecords.of_confined hconf fun q hq => hb.record_apart q (List.mem_cons_of_mem _ hq)
  · have hsequence : v.Single b.sequenceKey t.lastBytes := by
      refine (h.sequence.of_confined hsu fun q hq => ?_).of_confined hconf hb.sequence_apart
      rw [List.mem_singleton.1 hq]
      exact (hb.record_apart _ List.mem_cons_self).symm
    unfold Table.lastBytes
    rw [hlast]
    exact hsequence
  · intro index hindex
    rw [heldIn_update hrow]
    exact hv index hindex

/-- A flawless suitable record takes the place of whatever its number had.  The row need not be
there before, which is why creating a record can use it. -/
theorem run_save (h : b.Holds t s) (hb : b.Separated) (hr : b.Suits r)
    (hvalid : r.validate = .ok ()) (id : RecordId) :
    ∃ u, (b.save id r).run s = (.ok (), u) ∧ Confined b.starts s u
      ∧ b.Holds (t.put id.number r) u := by
  have hconf : Confined [b.recordStart] s (s.set (b.recordKey id) r.encode) :=
    Confined.set ⟨_, List.mem_singleton_self _, List.prefix_append _ _⟩ r.encode s
  have hrecords := h.records.set id.number r.encode
  rw [← Table.rowBytes_put] at hrecords
  have hnew : ∀ new, some r = some new → b.Suits new := fun new hnew => Option.some.inj hnew ▸ hr
  have hchanges := changes_eq (t.row id.number) (some r) (h.suits id.number) hnew
  obtain ⟨u, hrun, hu, hholds⟩ := run_reindex hb h hconf id (some r)
    hnew hrecords rfl rfl
  refine ⟨u, ?_, hu, hholds⟩
  unfold Bucket.save
  rw [Edit.run_ofExcept_bind (checkKind_eq hr.kind), Edit.run_ofExcept_bind hvalid,
    Edit.run_look_bind (h.get id), Edit.run_ofExcept_bind hchanges, Edit.run_write_bind]
  exact hrun

/-- A flawless suitable record is put under the next number.  There must be a next number: after the
last one the sequence starts again at zero, where no record can be. -/
theorem run_create (h : b.Holds t s) (hb : b.Separated) (hnext : t.HasNext) (hr : b.Suits r)
    (hvalid : r.validate = .ok ()) :
    ∃ u, (b.create r).run s = (.ok ⟨t.next⟩, u) ∧ Confined b.starts s u ∧ b.Holds (t.add r) u := by
  have hnew : ∀ new, some r = some new → b.Suits new := fun new hnew => Option.some.inj hnew ▸ hr
  have hchanges := changes_eq none (some r) (by simp) hnew
  -- The number is given out first, and then the record is saved under it.
  let numbered : Table Record := { t with last := t.next }
  have hconf : Confined [b.sequenceKey] s (s.set b.sequenceKey (Bytes.big64 t.next)) :=
    Confined.set ⟨_, List.mem_singleton_self _, List.prefix_rfl⟩ _ s
  have hnumbered : b.Holds numbered (s.set b.sequenceKey (Bytes.big64 t.next)) := by
    refine ⟨h.suits, h.records.of_confined hconf fun q hq => ?_, ?_, fun index hindex => ?_⟩
    · rw [List.mem_singleton.1 hq]
      exact hb.record_apart _ List.mem_cons_self
    · have hlast : numbered.lastBytes = some (Bytes.big64 t.next) := if_neg hnext
      rw [hlast]
      exact h.sequence.set _
    · refine (h.entries index hindex).of_confined hconf fun q hq => ?_
      rw [List.mem_singleton.1 hq]
      exact (hb.sequence_apart _ (List.mem_map_of_mem hindex)).symm
  obtain ⟨u, hrun, hu, hholds⟩ := hnumbered.run_save hb hr hvalid ⟨t.next⟩
  have hid : b.nextId.run s
      = (.ok ⟨t.next⟩, s.set b.sequenceKey (Bytes.big64 t.next)) := by
    unfold Bucket.nextId
    rw [Edit.run_look_bind h.peekNextId, Edit.run_write_bind]
    rfl
  refine ⟨u, ?_, (hconf.mono (by simp [starts])).trans hu, hholds⟩
  unfold Bucket.create
  rw [Edit.run_ofExcept_bind (checkKind_eq hr.kind), Edit.run_ofExcept_bind hvalid,
    Edit.run_ofExcept_bind hchanges, Edit.run_bind_ok hid, Edit.run_bind_ok hrun]
  rfl

/-- A record that is there is removed.  Its last number stays given out. -/
theorem run_delete (h : b.Holds t s) (hb : b.Separated) {id : RecordId}
    (hrow : t.row id.number = some r) :
    ∃ u, (b.delete id).run s = (.ok (), u) ∧ Confined b.starts s u
      ∧ b.Holds (t.drop id.number) u := by
  have hconf : Confined [b.recordStart] s (s.delete (b.recordKey id)) :=
    Confined.delete ⟨_, List.mem_singleton_self _, List.prefix_append _ _⟩ s
  have hrecords := h.records.delete id.number
  rw [← Table.rowBytes_drop] at hrecords
  -- The old record comes from the store, so no index can refuse it.
  have hchanges := changes_eq (b := b) (some r) none
    (fun old hold => h.suits id.number old (hrow.trans hold)) (by simp)
  obtain ⟨u, hrun, hu, hholds⟩ := run_reindex hb h hconf id none
    (by simp) hrecords rfl rfl
  rw [hrow] at hrun
  refine ⟨u, ?_, hu, hholds⟩
  unfold Bucket.delete
  rw [Edit.run_look_bind (h.mustGet_some hrow), Edit.run_ofExcept_bind hchanges,
    Edit.run_write_bind]
  exact hrun

end Holds

end BlogLedger.Bucket
