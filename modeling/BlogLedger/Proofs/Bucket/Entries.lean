import BlogLedger.Bucket
import BlogLedger.Proofs.Edit
import BlogLedger.Proofs.Index.IdList
import BlogLedger.Proofs.KeySpace.Family
import Mathlib.Logic.Function.Basic

/-!
# Index entries

Under every index value stands the ascending list of the records that have the value, and nothing
stands under a value that no record has.  Striking a record from its old value and listing it under
its new one keeps this so.

An index is looked at through the values that records hold, as a function from numbers to values.
Then a change of one record is an update of that function at one number, and no more is said of the
records themselves.  What makes the statements hold is that the lists are ascending: only then does
the search through a list find what is in it.

## Main Definitions

* `Bucket.Indexes` — the entries of an index are those of the given values.

## Main Results

* `Bucket.run_removeRef`, `Bucket.run_addRef` — one record loses and gains a value.
* `Bucket.run_applyChanges` — a record changes its values in several indexes.
-/

namespace BlogLedger.Bucket

open KeySpace (Confined)

variable {b : Bucket} {index : String} {held : RecordId → Option Bytes} {id : RecordId}
  {value : Bytes} {s : KeySpace}

/-- Under every value stands the list of the records that hold it, and without such records nothing
stands there.  The second part is not a matter of taste: a list that has become empty is deleted,
and so a key stands for a value that is in use. -/
def Indexes (b : Bucket) (index : String) (held : RecordId → Option Bytes) (s : KeySpace) : Prop :=
  ∀ value, ∃ ids : IdList,
    ids.Lists (fun id => held id = some value) ∧ s.get (b.indexKey index value) = ids.stored?

theorem indexKey_inj {v w : Bytes} : b.indexKey index v = b.indexKey index w ↔ v = w :=
  List.append_right_inj _

theorem indexStart_le_indexKey (b : Bucket) (index : String) (value : Bytes) :
    b.indexStart index <+: b.indexKey index value :=
  List.prefix_append _ _

/-- An entry reads as the list that is stored.  A missing key and a missing list are the same here. -/
theorem entry_eq {ids : IdList} {key : Bytes} (h : s.get key = ids.stored?) :
    entry key s = .ok ids := by
  unfold entry
  rw [h]
  by_cases hids : ids = []
  · rw [hids]
    rfl
  · rw [IdList.stored?_of_ne_nil hids]
    exact IdList.decode_encode ids

/-- The entries of an index show its values only, and stay when nothing under its start changes.  It
is used for writes to records and to other indexes. -/
theorem Indexes.congr {t : KeySpace} (h : b.Indexes index held s)
    (hget : ∀ value, t.get (b.indexKey index value) = s.get (b.indexKey index value)) :
    b.Indexes index held t := by
  intro value
  obtain ⟨ids, hids, hstored⟩ := h value
  exact ⟨ids, hids, (hget value).trans hstored⟩

/-- Writing one list, the one that its value is to have, changes who holds that value.  Striking out
and listing are two cases of this; in both of them the other lists stay. -/
theorem Indexes.step {held' : RecordId → Option Bytes} {t : KeySpace} {ids : IdList}
    (h : b.Indexes index held s) (hids : ids.Lists fun id => held' id = some value)
    (hwritten : t.get (b.indexKey index value) = ids.stored?)
    (hget : ∀ other, other ≠ value →
      t.get (b.indexKey index other) = s.get (b.indexKey index other))
    (hheld : ∀ other, other ≠ value → ∀ id, held id = some other ↔ held' id = some other) :
    b.Indexes index held' t := by
  intro other
  by_cases hother : other = value
  · rw [hother]
    exact ⟨ids, hids, hwritten⟩
  · obtain ⟨old, hold, hstored⟩ := h other
    exact ⟨old, hold.congr (hheld other hother), (hget other hother).trans hstored⟩

/-- Who holds a value does not change when a record exchanges other values.  It is the side
condition of the step above, for all keys that were not written. -/
theorem update_iff_of_ne {new : Option Bytes} {other : Bytes} (hold : held id ≠ some other)
    (hnew : new ≠ some other) (x : RecordId) :
    held x = some other ↔ Function.update held id new x = some other := by
  by_cases hx : x = id
  · rw [hx, Function.update_self]
    exact iff_of_false hold hnew
  · rw [Function.update_of_ne hx]

/-- Striking a record from the value that it holds.  It cannot fail, since the entry lists the
record, and the search finds it. -/
theorem run_removeRef (h : b.Indexes index held s) (hid : held id = some value) :
    ∃ t, (b.removeRef id index value).run s = (.ok (), t)
      ∧ Confined [b.indexStart index] s t
      ∧ b.Indexes index (Function.update held id none) t := by
  obtain ⟨ids, hids, hstored⟩ := h value
  obtain ⟨hremove, hrest⟩ := hids.remove? hid
  have hunder : Bytes.Under [b.indexStart index] (b.indexKey index value) :=
    ⟨_, List.mem_singleton_self _, b.indexStart_le_indexKey index value⟩
  have hlists : IdList.Lists (ids.erase id) fun other =>
      Function.update held id none other = some value := by
    refine hrest.congr fun other => ?_
    by_cases hother : other = id <;> simp [hother]
  have hheld : ∀ other, other ≠ value → ∀ x,
      held x = some other ↔ Function.update held id none x = some other :=
    fun other hother => update_iff_of_ne (by rw [hid]; simpa using hother.symm) (by simp)
  unfold removeRef
  rw [Edit.run_look_bind (entry_eq hstored)]
  simp only [hremove]
  -- A list that has become empty loses its key.
  cases herase : ids.erase id with
  | nil =>
    refine ⟨s.delete (b.indexKey index value), rfl, Confined.delete hunder s,
      h.step hlists ?_ (fun other hother => ?_) hheld⟩
    · simp [herase]
    · rw [KeySpace.get_delete, if_neg fun he => hother (indexKey_inj.1 he).symm]
  | cons first rest =>
    refine ⟨s.set (b.indexKey index value) (IdList.encode (first :: rest)), rfl,
      Confined.set hunder _ s, h.step hlists ?_ (fun other hother => ?_) hheld⟩
    · rw [KeySpace.get_set, if_pos rfl, herase, IdList.stored?_of_ne_nil (List.cons_ne_nil _ _)]
    · rw [KeySpace.get_set, if_neg fun he => hother (indexKey_inj.1 he).symm]

/-- Listing a record that holds no value under a value.  A record has at most one value in an index,
and so the old one must have been struck out before. -/
theorem run_addRef (h : b.Indexes index held s) (hid : held id = none) (value : Bytes) :
    ∃ t, (b.addRef id index value).run s = (.ok (), t)
      ∧ Confined [b.indexStart index] s t
      ∧ b.Indexes index (Function.update held id (some value)) t := by
  obtain ⟨ids, hids, hstored⟩ := h value
  have hunder : Bytes.Under [b.indexStart index] (b.indexKey index value) :=
    ⟨_, List.mem_singleton_self _, b.indexStart_le_indexKey index value⟩
  have hlists : IdList.Lists (IdList.insert id ids) fun other =>
      Function.update held id (some value) other = some value := by
    refine (hids.insert id).congr fun other => ?_
    by_cases hother : other = id <;> simp [hother]
  have hheld : ∀ other, other ≠ value → ∀ x,
      held x = some other ↔ Function.update held id (some value) x = some other :=
    fun other hother => update_iff_of_ne (by simp [hid]) (by simpa using hother.symm)
  have hne : IdList.insert id ids ≠ [] :=
    List.ne_nil_of_mem ((IdList.mem_insert hids.ascending).2 (.inl rfl))
  unfold addRef
  rw [Edit.run_look_bind (entry_eq hstored)]
  refine ⟨s.set (b.indexKey index value) (IdList.insert id ids).encode, rfl,
    Confined.set hunder _ s, h.step hlists ?_ (fun other hother => ?_) hheld⟩
  · rw [KeySpace.get_set, if_pos rfl, IdList.stored?_of_ne_nil hne]
  · rw [KeySpace.get_set, if_neg fun he => hother (indexKey_inj.1 he).symm]

/-- What the changes of one record do to the first index that they name.  Old and new value are each
optional, so four cases become one statement here. -/
theorem run_applyChanges_cons {c : Change} {rest : List Change}
    (h : b.Indexes c.index held s) (hid : held id = c.old) :
    ∃ t, (b.applyChanges id (c :: rest)).run s = (b.applyChanges id rest).run t
      ∧ Confined [b.indexStart c.index] s t
      ∧ b.Indexes c.index (Function.update held id c.new) t := by
  obtain ⟨index, old, new⟩ := c
  cases old with
  | none =>
    cases new with
    | none =>
      have hsame : Function.update held id none = held :=
        Function.update_eq_self_iff.2 hid.symm
      refine ⟨s, rfl, Confined.refl _ s, ?_⟩
      show b.Indexes index (Function.update held id none) s
      rw [hsame]
      exact h
    | some value =>
      obtain ⟨t, hrun, hconf, ht⟩ := run_addRef h hid value
      exact ⟨t, Edit.run_bind_ok hrun _, hconf, ht⟩
  | some old =>
    obtain ⟨t, hrun, hconf, ht⟩ := run_removeRef h hid
    cases new with
    | none => exact ⟨t, Edit.run_bind_ok hrun _, hconf, ht⟩
    | some value =>
      obtain ⟨u, hadd, hconf', hu⟩ := run_addRef ht (Function.update_self _ _ _) value
      rw [Function.update_idem] at hu
      refine ⟨u, ?_, hconf.trans hconf', hu⟩
      rw [applyChanges]
      exact (Edit.run_bind_ok hrun _).trans (Edit.run_bind_ok hadd _)

/-- The value of a record in an index; a record that the index refuses has none.  Refused records
never come to be stored, and so nothing is lost by this. -/
def valueIn (index : Index) (r : Record) : Option Bytes := (index.value r).toOption.join

/-- What putting `new` in place of `old` does to an index.  Creating and deleting are the cases in
which one of the two is missing. -/
def changeOf (old new : Option Record) (index : Index) : Change :=
  ⟨index.name, old.bind (valueIn index), new.bind (valueIn index)⟩

/-- The starts of the entries of indexes.  No one of them starts with another, and this is what
keeps the indexes of a bucket from writing into each other. -/
def entryStarts (b : Bucket) (indexes : List Index) : List Bytes :=
  indexes.map fun index => b.indexStart index.name

/-- The first of several indexes is brought up to date, unless its value stays.  A change whose two
values are the same is left out, and nothing has to be written for it. -/
theorem run_applyChanges_first (old new : Option Record) {index : Index} (rest : List Index)
    {held : RecordId → Option Bytes} (h : b.Indexes index.name held s)
    (hid : held id = old.bind (valueIn index)) :
    ∃ t, (b.applyChanges id
        (((index :: rest).map (changeOf old new)).filter fun c => c.old ≠ c.new)).run s
          = (b.applyChanges id
              ((rest.map (changeOf old new)).filter fun c => c.old ≠ c.new)).run t
      ∧ Confined [b.indexStart index.name] s t
      ∧ b.Indexes index.name (Function.update held id (new.bind (valueIn index))) t := by
  rw [List.map_cons]
  by_cases hchange : (changeOf old new index).old = (changeOf old new index).new
  · have hsame : Function.update held id (new.bind (valueIn index)) = held :=
      Function.update_eq_self_iff.2 (hchange.symm.trans hid.symm)
    refine ⟨s, ?_, Confined.refl _ s, ?_⟩
    · rw [List.filter_cons_of_neg (by simpa using hchange)]
    · rw [hsame]
      exact h
  · rw [List.filter_cons_of_pos (by simpa using hchange)]
    exact run_applyChanges_cons (c := changeOf old new index) h hid

/-- A record that changes its values in several indexes ends up listed under its new values.  The
induction is over the indexes; what was done to the ones before is kept because their keys lie
apart. -/
theorem run_applyChanges (old new : Option Record) {indexes : List Index}
    {held : Index → RecordId → Option Bytes} (hapart : (b.entryStarts indexes).Pairwise Bytes.Apart)
    (h : ∀ index ∈ indexes, b.Indexes index.name (held index) s)
    (hid : ∀ index ∈ indexes, held index id = old.bind (valueIn index)) :
    ∃ t, (b.applyChanges id
        ((indexes.map (changeOf old new)).filter fun c => c.old ≠ c.new)).run s = (.ok (), t)
      ∧ Confined (b.entryStarts indexes) s t
      ∧ ∀ index ∈ indexes, b.Indexes index.name
          (Function.update (held index) id (new.bind (valueIn index))) t := by
  induction indexes generalizing s with
  | nil => exact ⟨s, rfl, Confined.refl _ s, fun index hindex => absurd hindex List.not_mem_nil⟩
  | cons index rest ih =>
    obtain ⟨hfirst, hrest⟩ := List.pairwise_cons.1 hapart
    obtain ⟨t, hrun, hconf, ht⟩ := run_applyChanges_first old new rest
      (h index List.mem_cons_self) (hid index List.mem_cons_self)
    -- The other indexes lie under other starts, so they are as before.
    have hother : ∀ other ∈ rest, b.Indexes other.name (held other) t := by
      intro other hmem
      refine (h other (List.mem_cons_of_mem index hmem)).congr fun value => ?_
      refine hconf.get_of_apart (b.indexStart_le_indexKey other.name value) fun q hq => ?_
      rw [List.mem_singleton.1 hq]
      exact (hfirst _ (List.mem_map_of_mem hmem)).symm
    obtain ⟨u, hrun', hconf', hu⟩ :=
      ih hrest hother fun other hmem => hid other (List.mem_cons_of_mem index hmem)
    refine ⟨u, hrun.trans hrun', ?_, ?_⟩
    · exact (hconf.mono (by simp [entryStarts])).trans (hconf'.mono (by simp [entryStarts]))
    · intro other hmem
      rcases List.mem_cons.1 hmem with rfl | hmem
      · -- What is done for the other indexes leaves the entries of the first one alone.
        refine ht.congr fun value => ?_
        exact hconf'.get_of_apart (b.indexStart_le_indexKey other.name value) hfirst
      · exact hu other hmem

end BlogLedger.Bucket
