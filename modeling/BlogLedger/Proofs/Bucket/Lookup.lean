import BlogLedger.Collections
import BlogLedger.Proofs.Bucket.Keys
import BlogLedger.Proofs.Bytes.Start
import BlogLedger.Proofs.Failure

/-!
# Lookups in a bucket

A bucket that holds a table finds exactly the rows that are asked for: the one of a number, those
whose number starts with given bytes, and those whose value in an index is given, starts with given
bytes or lies in a range.

All three kinds of lookup through an index read a range of keys and put the lists that stand there
one after the other.  So there is one lemma about a range of keys, `Bucket.Reads.listed_range`, and
what is left for each kind is which values the range is about.  The lemma asks only that the entries
read as the right lists; it does not ask for a table, so it can be used where nothing else is known
of the store.

## Main Definitions

* `Bucket.Reads` — the entries of an index read as the lists of given values.
* `Bucket.ByValue`, `Bucket.ListsByValue` — records in the order of their values in an index, and a
  list of exactly those whose value has a property.
* `Bucket.Loads` — all numbers of a list have records.
* `Bucket.rowOf` — the number and the record that a key and its value stand for.
* `Bucket.stopKey` — where the keys of a range of values end.

## Main Results

* `RecordId.keepsOrder_key`, `RecordId.ofKey_eq_ok` — the bytes of numbers compare as the numbers, and
  are read as them.
* `Bucket.Reads.listed_range` — what the entries in a range of keys list.
* `Bucket.Reads.byIndexStart`, `Bucket.Reads.byIndexRange` — lookups by what the entries read as.
* `Bucket.Holds.byIndex`, `Bucket.Holds.byIndexStart`, `Bucket.Holds.byIndexRange` — lookups through
  an index.
* `Bucket.Holds.scan` — the rows by the start of their numbers.
* `Bucket.Holds.loads` — the records of listed numbers are loaded.

## Design Notes

The result of a lookup is ordered by value and not by number, since it follows the keys of the
entries.  A number can come before a smaller one.
-/

namespace BlogLedger

/-! ### Numbers -/

namespace RecordId

theorem key_lt_iff {x y : RecordId} : x.key < y.key ↔ x < y :=
  Bytes.big64_lt_iff

theorem key_inj {x y : RecordId} : x.key = y.key ↔ x = y := by
  refine ⟨fun h => ?_, fun h => by rw [h]⟩
  cases x
  cases y
  exact congrArg RecordId.mk (Bytes.big64_inj.1 h)

theorem length_key (id : RecordId) : id.key.length = 8 := Bytes.length_big64 _

/-- The bytes of numbers compare as the numbers.  The order of keys is the order of bytes, and with
this it becomes one of records. -/
theorem keepsOrder_key :
    Bytes.KeepsOrder (fun _ => True) key fun id => id.number.toNat :=
  Bytes.keepsOrder_big64.comap number fun _ _ => trivial

theorem toNat_inj {x y : RecordId} : x.number.toNat = y.number.toNat ↔ x = y :=
  keepsOrder_key.eq_iff.symm.trans key_inj

/-- Bytes are read as the number whose bytes they are.  Other bytes than eight are not read at all. -/
theorem ofKey?_eq_some_iff {bytes : Bytes} {id : RecordId} :
    ofKey? bytes = some id ↔ bytes = id.key := by
  unfold ofKey?
  rw [Option.map_eq_some_iff]
  simp only [Bytes.ofBig64?_eq_some_iff]
  exact ⟨fun ⟨_, hbytes, hid⟩ => hid ▸ hbytes, fun hbytes => ⟨id.number, hbytes, rfl⟩⟩

theorem ofKey?_eq_none {bytes : Bytes} (h : bytes.length ≠ 8) :
    ofKey? bytes = none := by
  unfold ofKey? Bytes.ofBig64?
  rw [if_neg h]
  rfl

/-- Where a number must be found, bytes are read as the number whose bytes they are.  It is the same
reading, with a failure in the place of nothing. -/
theorem ofKey_eq_ok {bytes : Bytes} {id : RecordId} :
    ofKey bytes = .ok id ↔ bytes = id.key := by
  unfold ofKey
  rw [← ofKey?_eq_some_iff]
  cases ofKey? bytes with
  | none => exact iff_of_false nofun nofun
  | some read => rw [Except.ok.injEq, Option.some.injEq]

/-- Where a number must be found, other bytes than eight are refused. -/
theorem ofKey_of_length {bytes : Bytes} (h : bytes.length ≠ 8) :
    ofKey bytes = fail (.recordKeyLength bytes.length) := by
  unfold ofKey
  rw [ofKey?_eq_none h]

end RecordId

namespace Bucket

/-- Under every value the entry reads as the list of the records that hold it; a value without an
entry has none.  It is weaker than `Bucket.Indexes`: an empty list may be stored, or the bytes of a
list may differ from those that the bucket would write. -/
def Reads (b : Bucket) (index : String) (held : RecordId → Option Bytes) (s : KeySpace) : Prop :=
  ∀ value, ∃ ids : IdList,
    entry (b.indexKey index value) s = .ok ids ∧ ids.Lists fun id => held id = some value

/-- The one record comes before the other by its value, or by its number if both have one value.
Records without a value come nowhere. -/
def ByValue (held : RecordId → Option Bytes) (x y : RecordId) : Prop :=
  ∃ v w, held x = some v ∧ held y = some w ∧ (v < w ∨ v = w ∧ x < y)

/-- The list holds exactly the records whose value has the property, each once and by value.  The
two fields determine the list. -/
structure ListsByValue (held : RecordId → Option Bytes) (p : Bytes → Prop)
    (ids : List RecordId) : Prop where
  ordered : ids.Pairwise (ByValue held)
  mem_iff : ∀ id, id ∈ ids ↔ ∃ value, held id = some value ∧ p value

/-- All numbers of a list have records, and these are loaded, in the order of the list. -/
def Loads (b : Bucket) (s : KeySpace) (ids : List RecordId) : Prop :=
  ∃ records, b.loadAll ids s = .ok records ∧ records.map Prod.fst = ids
    ∧ ∀ x ∈ records, b.get x.1 s = .ok (some x.2)

/-- The number and the record that a key and its value stand for.  It is what a scan does with each
pair, written as a function of its own. -/
def rowOf (b : Bucket) (e : Bytes × Bytes) : Except Failure (RecordId × Record) := do
  let id ← RecordId.ofKey (e.1.drop b.recordStart.length)
  return (id, ← b.decode e.2)

variable {b : Bucket} {t : Table Record} {s : KeySpace} {index : Index}
  {held : RecordId → Option Bytes}

theorem checkIndex_eq (hindex : index ∈ b.indexes) : b.checkIndex index.name = .ok () := by
  have hname : index.name ∈ b.indexNames := List.mem_map_of_mem hindex
  exact if_pos (List.contains_iff_mem.2 hname)

/-! ### Entries of an index -/

theorem ListsByValue.congr {p q : Bytes → Prop} {ids : List RecordId} (h : ListsByValue held p ids)
    (hpq : ∀ value, p value ↔ q value) : ListsByValue held q ids :=
  ⟨h.ordered, fun id => (h.mem_iff id).trans
    (exists_congr fun value => and_congr_right fun _ => hpq value)⟩

theorem value_of_heldIn {id : RecordId} {r : Record} {value : Bytes}
    (h : heldIn t index id = some value) (hrow : t.row id.number = some r) :
    index.value r = .ok (some value) := by
  obtain ⟨r', hrow', hvalue⟩ := heldIn_eq_some_iff.1 h
  cases hrow.symm.trans hrow'
  exact hvalue

/-- A list by value has every record once.  A record has one value in an index, and the order is
strict. -/
theorem ListsByValue.nodup {p : Bytes → Prop} {ids : List RecordId} (h : ListsByValue held p ids) :
    ids.Nodup := by
  refine h.ordered.imp ?_
  rintro x y ⟨v, w, hx, hy, hbefore⟩ rfl
  cases hx.symm.trans hy
  rcases hbefore with hlt | ⟨-, hlt⟩
  · exact List.lt_irrefl v hlt
  · exact RecordId.lt_irrefl x hlt

/-- What a list by value lists has records.  So loading them cannot find a number without one. -/
theorem ListsByValue.exists_row {p : Bytes → Prop} {ids : List RecordId}
    (h : ListsByValue (heldIn t index) p ids) {id : RecordId} (hid : id ∈ ids) :
    ∃ r, t.row id.number = some r := by
  obtain ⟨value, hheld, -⟩ := (h.mem_iff id).1 hid
  obtain ⟨r, hrow, -⟩ := heldIn_eq_some_iff.1 hheld
  exact ⟨r, hrow⟩

/-- The stored entries of an index read as its lists.  What a bucket keeps is more than lookups
need. -/
theorem Indexes.reads {name : String} (h : b.Indexes name held s) : b.Reads name held s := by
  intro value
  obtain ⟨ids, hids, hstored⟩ := h value
  exact ⟨ids, entry_eq hstored, hids⟩

/-- What stands under the key of a value is the list of the records that hold the value.  A range of
keys gives bytes, and this is how they are read. -/
theorem Reads.decode {name : String} {value bytes : Bytes} (h : b.Reads name held s)
    (hget : s.get (b.indexKey name value) = some bytes) :
    ∃ ids : IdList, IdList.decode bytes = .ok ids ∧ ids.Lists fun id => held id = some value := by
  obtain ⟨ids, hentry, hids⟩ := h value
  unfold entry at hentry
  rw [hget] at hentry
  exact ⟨ids, hentry, hids⟩

/-- A value that some record holds has an entry.  Without it a range of keys could miss a record. -/
theorem Reads.exists_get {name : String} {value : Bytes} {id : RecordId} (h : b.Reads name held s)
    (hid : held id = some value) :
    ∃ bytes, s.get (b.indexKey name value) = some bytes := by
  obtain ⟨ids, hentry, hids⟩ := h value
  unfold entry at hentry
  cases hget : s.get (b.indexKey name value) with
  | some bytes => exact ⟨bytes, rfl⟩
  | none =>
    rw [hget] at hentry
    cases hentry
    exact absurd ((hids.mem_iff id).2 hid) List.not_mem_nil

/-- The entries in a range of the keys of an index list the records whose value lies in it.  The
keys come in ascending order, and keys of one index compare as their values; under one value the
numbers ascend.  These are the two cases of the order of the result. -/
theorem Reads.listed_range {name : String} (h : b.Reads name held s) {start : Bytes}
    {stop : Option Bytes}
    (hrange : ∀ key, ByteMap.inRange start stop key = true → b.indexStart name <+: key) :
    ∃ ids, listed (s.range start stop) = .ok ids
      ∧ ListsByValue held (fun value => ByteMap.inRange start stop (b.indexKey name value)) ids := by
  -- Every entry in the range is that of one value, and its list can be read.
  have heach : ∀ e ∈ (s.range start stop).entries, ∃ value, ∃ ids : IdList,
      e.1 = b.indexKey name value ∧ IdList.decode e.2 = .ok ids
        ∧ ids.Lists fun id => held id = some value := by
    rintro ⟨key, bytes⟩ he
    obtain ⟨hkey, hget⟩ := KeySpace.mem_range_iff.1 he
    obtain ⟨value, rfl⟩ := hrange key hkey
    obtain ⟨ids, hdecode, hids⟩ := h.decode hget
    exact ⟨value, ids, rfl, hdecode, hids⟩
  obtain ⟨lists, hlists⟩ := Except.exists_mapM_ok fun e he => by
    obtain ⟨value, ids, -, hdecode, -⟩ := heach e he
    exact ⟨ids, hdecode⟩
  refine ⟨lists.flatten, ?_, List.pairwise_flatten.2 ⟨fun ids hmem => ?_, ?_⟩, fun id => ?_⟩
  · unfold listed
    rw [hlists]
    rfl
  · -- Under one value the numbers ascend.
    obtain ⟨e, he, hdecode⟩ := (Except.mem_mapM_iff hlists).1 hmem
    obtain ⟨value, ids', -, hdecode', hids⟩ := heach e he
    cases hdecode.symm.trans hdecode'
    exact hids.ascending.imp_of_mem fun hx hy hlt =>
      ⟨value, value, (hids.mem_iff _).1 hx, (hids.mem_iff _).1 hy, .inr ⟨rfl, hlt⟩⟩
  · -- The entries stand in the order of their keys, which is that of their values.
    refine Except.pairwise_of_mapM hlists (s.range start stop).ascending ?_
    intro e he e' he' hlt ids ids' hdecode hdecode' x hx y hy
    obtain ⟨v, _, hkey, hv, hids⟩ := heach e he
    obtain ⟨w, _, hkey', hw, hids'⟩ := heach e' he'
    cases hdecode.symm.trans hv
    cases hdecode'.symm.trans hw
    rw [hkey, hkey'] at hlt
    exact ⟨v, w, (hids.mem_iff x).1 hx, (hids'.mem_iff y).1 hy,
      .inl ((Bytes.append_lt_append_left_iff _).1 hlt)⟩
  · -- A number is listed when its value is in the range, since then its entry is in it.
    rw [List.mem_flatten]
    constructor
    · rintro ⟨ids, hmem, hid⟩
      obtain ⟨e, he, hdecode⟩ := (Except.mem_mapM_iff hlists).1 hmem
      obtain ⟨value, ids', hkey, hdecode', hids⟩ := heach e he
      cases hdecode.symm.trans hdecode'
      refine ⟨value, (hids.mem_iff id).1 hid, ?_⟩
      rw [← hkey]
      exact (KeySpace.mem_range_iff.1 he).1
    · rintro ⟨value, hheld, hvalue⟩
      obtain ⟨bytes, hget⟩ := h.exists_get hheld
      obtain ⟨ids, hdecode, hids⟩ := h.decode hget
      obtain ⟨ids', hmem, hdecode'⟩ :=
        Except.exists_mem_of_mapM hlists (KeySpace.mem_range_iff.2 ⟨hvalue, hget⟩)
      cases hdecode.symm.trans hdecode'
      exact ⟨ids, hmem, (hids.mem_iff id).2 hheld⟩

/-- Where the keys of a range of values end; without a last value they end with the index.  The keys
of the next index may follow at once. -/
def stopKey (b : Bucket) (index : String) : Option Bytes → Option Bytes
  | some value => some (b.indexKey index value)
  | none => (b.indexStart index).prefixEnd

/-- The keys of a range of values of an index are those of the values in the range.  The keys share
a start, which does not matter when they are compared. -/
theorem inRange_stopKey {name : String} {start : Bytes} {stop : Option Bytes} {key : Bytes} :
    ByteMap.inRange (b.indexKey name start) (b.stopKey name stop) key = true
      ↔ ∃ value, key = b.indexKey name value ∧ ByteMap.inRange start stop value = true := by
  have hle : ∀ value, b.indexKey name start ≤ b.indexKey name value ↔ start ≤ value := fun value => by
    rw [← List.not_lt, ← List.not_lt, indexKey, indexKey, Bytes.append_lt_append_left_iff]
  have hlt : ∀ value stop, b.indexKey name value < b.indexKey name stop ↔ value < stop :=
    fun value stop => Bytes.append_lt_append_left_iff _
  have hfirst : ∀ key, b.indexKey name start ≤ key → b.indexStart name ≤ key :=
    fun key => List.le_trans List.le_append_left
  cases stop with
  | some stop =>
    simp only [ByteMap.inRange, stopKey, Option.all_some, Bool.and_eq_true, decide_eq_true_eq]
    constructor
    · rintro ⟨hlow, hhigh⟩
      obtain ⟨value, rfl⟩ := Bytes.starts_of_le_of_lt (hfirst key hlow) hhigh
      exact ⟨value, rfl, (hle value).1 hlow, (hlt value stop).1 hhigh⟩
    · rintro ⟨value, rfl, hlow, hhigh⟩
      exact ⟨(hle value).2 hlow, (hlt value stop).2 hhigh⟩
  | none =>
    have hend := ByteMap.inRange_prefixEnd (b.indexStart name)
    simp only [ByteMap.inRange, stopKey, Option.all_none, Bool.and_eq_true, Bool.and_true,
      decide_eq_true_eq] at hend ⊢
    constructor
    · rintro ⟨hlow, hhigh⟩
      obtain ⟨value, rfl⟩ := (hend key).1 ⟨hfirst key hlow, hhigh⟩
      exact ⟨value, rfl, (hle value).1 hlow⟩
    · rintro ⟨value, rfl, hlow⟩
      exact ⟨(hle value).2 hlow, ((hend _).2 (b.indexStart_le_indexKey name value)).2⟩

/-! ### Lookups through an index -/

namespace Reads

variable {name : String}

/-- The records whose value starts with given bytes.  The range is that of the keys which start with
the key of these bytes. -/
theorem byIndexStart (h : b.Reads name held s) (hname : b.checkIndex name = .ok ())
    (start : Bytes) :
    ∃ ids, b.byIndexStart name start s = .ok ids ∧ ListsByValue held (start <+: ·) ids := by
  have hstart : ∀ key, ByteMap.inRange (b.indexKey name start) (b.indexKey name start).prefixEnd key
      = true → b.indexStart name <+: key :=
    fun key hkey => (b.indexStart_le_indexKey name start).trans
      ((ByteMap.inRange_prefixEnd _ _).1 hkey)
  obtain ⟨ids, hids, hlists⟩ := h.listed_range hstart
  refine ⟨ids, ?_, hlists.congr fun value => ?_⟩
  · unfold Bucket.byIndexStart
    rw [hname]
    exact hids
  · rw [ByteMap.inRange_prefixEnd]
    exact List.prefix_append_right_inj _

/-- The records whose value lies in a range. -/
theorem byIndexRange (h : b.Reads name held s) (hname : b.checkIndex name = .ok ()) (start : Bytes)
    (stop : Option Bytes) :
    ∃ ids, b.byIndexRange name start stop s = .ok ids
      ∧ ListsByValue held (ByteMap.inRange start stop ·) ids := by
  have hstart : ∀ key, ByteMap.inRange (b.indexKey name start) (b.stopKey name stop) key = true →
      b.indexStart name <+: key := by
    intro key hkey
    obtain ⟨value, rfl, -⟩ := inRange_stopKey.1 hkey
    exact b.indexStart_le_indexKey name value
  obtain ⟨ids, hids, hlists⟩ := h.listed_range hstart
  refine ⟨ids, ?_, hlists.congr fun value => ?_⟩
  · unfold Bucket.byIndexRange
    rw [hname]
    cases stop <;> exact hids
  · simp only [inRange_stopKey, indexKey_inj, exists_eq_left']

end Reads

namespace Holds

/-- The list under a value is that of the records that have it.  The table says which records there
are. -/
theorem byIndex (h : b.Holds t s) (hindex : index ∈ b.indexes) (value : Bytes) :
    ∃ ids : IdList, b.byIndex index.name value s = .ok ids ∧ ids.Lists fun id =>
      ∃ r, t.row id.number = some r ∧ index.value r = .ok (some value) := by
  obtain ⟨ids, hids, hstored⟩ := h.entries index hindex value
  refine ⟨ids, ?_, hids.congr fun id => heldIn_eq_some_iff⟩
  unfold Bucket.byIndex
  rw [checkIndex_eq hindex]
  exact entry_eq hstored

/-- The records whose value starts with given bytes, for a bucket that holds a table. -/
theorem byIndexStart (h : b.Holds t s) (hindex : index ∈ b.indexes) (start : Bytes) :
    ∃ ids, b.byIndexStart index.name start s = .ok ids
      ∧ ListsByValue (heldIn t index) (start <+: ·) ids :=
  (h.entries index hindex).reads.byIndexStart (checkIndex_eq hindex) start

/-- The records whose value lies in a range, for a bucket that holds a table. -/
theorem byIndexRange (h : b.Holds t s) (hindex : index ∈ b.indexes) (start : Bytes)
    (stop : Option Bytes) :
    ∃ ids, b.byIndexRange index.name start stop s = .ok ids
      ∧ ListsByValue (heldIn t index) (ByteMap.inRange start stop ·) ids :=
  (h.entries index hindex).reads.byIndexRange (checkIndex_eq hindex) start stop

/-- The records of numbers that have one are loaded.  A list that an index gives meets the
condition. -/
theorem loads (h : b.Holds t s) {ids : List RecordId}
    (hids : ∀ id ∈ ids, ∃ r, t.row id.number = some r) : b.Loads s ids := by
  induction ids with
  | nil => exact ⟨[], rfl, rfl, nofun⟩
  | cons id rest ih =>
    obtain ⟨r, hrow⟩ := hids id List.mem_cons_self
    obtain ⟨records, hload, hnumbers, hgets⟩ :=
      ih fun other hother => hids other (List.mem_cons_of_mem id hother)
    have hget : b.get id s = .ok (some r) := (h.get id).trans (congrArg Except.ok hrow)
    refine ⟨(id, r) :: records, ?_, ?_, List.forall_mem_cons.2 ⟨hget, hgets⟩⟩
    · unfold loadAll at hload ⊢
      rw [List.mapM_cons, hload, hget]
      rfl
    · rw [List.map_cons, hnumbers]

/-! ### Lookups by number -/

theorem rowOf (h : b.Holds t s) {id : RecordId} {r : Record} (hrow : t.row id.number = some r) :
    b.rowOf (b.recordKey id, r.encode) = .ok (id, r) := by
  have hdrop : (b.recordKey id).drop b.recordStart.length = id.key := List.drop_left
  unfold Bucket.rowOf
  rw [hdrop, RecordId.ofKey_eq_ok.2 rfl, decode_encode (h.suits _ r hrow)]
  rfl

/-- The keys of the rows whose number starts with given bytes, and what stands under them.  No other
key of the store starts like this. -/
theorem mem_scan_iff (h : b.Holds t s) {start : Bytes} {e : Bytes × Bytes} :
    e ∈ (s.scan (b.recordStart ++ start)).entries ↔ ∃ id r, e = (b.recordKey id, Record.encode r)
      ∧ t.row id.number = some r ∧ start <+: id.key := by
  obtain ⟨key, bytes⟩ := e
  unfold KeySpace.scan
  rw [KeySpace.mem_range_iff, ByteMap.inRange_prefixEnd]
  constructor
  · rintro ⟨hstart, hget⟩
    obtain ⟨n, rfl, hbytes⟩ := h.records.of_get ((List.prefix_append _ _).trans hstart) hget
    obtain ⟨r, hrow, rfl⟩ := Table.rowBytes_eq_some_iff.1 hbytes
    exact ⟨⟨n⟩, r, rfl, hrow, (List.prefix_append_right_inj _).1 hstart⟩
  · rintro ⟨id, r, he, hrow, hstart⟩
    cases he
    refine ⟨(List.prefix_append_right_inj _).2 hstart, ?_⟩
    exact (h.records.get id.number).trans (Table.rowBytes_eq_some_iff.2 ⟨r, hrow, rfl⟩)

/-- The rows whose number starts with given bytes, in ascending order.  The start can be any bytes;
with none it gives all rows, and with eight it gives one at most. -/
theorem scan (h : b.Holds t s) (start : Bytes) :
    ∃ found, b.scan start s = .ok found ∧ found.Pairwise (·.1 < ·.1)
      ∧ ∀ id r, (id, r) ∈ found ↔ t.row id.number = some r ∧ start <+: id.key := by
  have heach : ∀ e ∈ (s.scan (b.recordStart ++ start)).entries, ∃ id r,
      b.rowOf e = .ok (id, r) ∧ e.1 = b.recordKey id := by
    intro e he
    obtain ⟨id, r, rfl, hrow, -⟩ := h.mem_scan_iff.1 he
    exact ⟨id, r, h.rowOf hrow, rfl⟩
  obtain ⟨found, hfound⟩ := Except.exists_mapM_ok fun e he => by
    obtain ⟨id, r, hok, -⟩ := heach e he
    exact ⟨(id, r), hok⟩
  refine ⟨found, hfound, ?_, fun id r => ?_⟩
  · refine Except.pairwise_of_mapM hfound (s.scan (b.recordStart ++ start)).ascending ?_
    intro e he e' he' hlt x y hx hy
    obtain ⟨id, r, hok, hkey⟩ := heach e he
    obtain ⟨id', r', hok', hkey'⟩ := heach e' he'
    cases hx.symm.trans hok
    cases hy.symm.trans hok'
    rw [hkey, hkey'] at hlt
    exact RecordId.key_lt_iff.1 ((Bytes.append_lt_append_left_iff _).1 hlt)
  · rw [Except.mem_mapM_iff hfound]
    constructor
    · rintro ⟨e, he, hok⟩
      obtain ⟨id', r', rfl, hrow, hstart⟩ := h.mem_scan_iff.1 he
      cases hok.symm.trans (h.rowOf hrow)
      exact ⟨hrow, hstart⟩
    · rintro ⟨hrow, hstart⟩
      exact ⟨_, h.mem_scan_iff.2 ⟨id, r, rfl, hrow, hstart⟩, h.rowOf hrow⟩

end Holds

end Bucket

end BlogLedger
