import BlogLedger.Proofs.Bucket.Lookup
import BlogLedger.Query

/-!
# Queries

A query finds exactly the records that it asks for, each once, as they are stored and in one order.
A path that is not registered has no answer, however many slashes it has.

The table of queries is made from buckets, and a path is looked up in it by the part before its
first slash.  So the answers depend on the names: with two buckets of one name the second would
never answer, and a bucket with a slash in its name would not be found at all.  What is shown about
the answers themselves rests on what a bucket holds.

## Main Definitions

* `QueryTable.Answers` — an answer holds exactly the wanted records, in an order.
* `QueryTable.Refuses` — an answer is a failure with a code.
* `QueryTable.AnswersByNumber`, `QueryTable.AnswersByValue` — what is answered on the path of a bucket
  and on the path of one of its indexes.
* `QueryTable.WellNamed` — no two buckets share a name, and no name has a slash.

## Main Results

* `QueryTable.mem_paths_iff` — the paths that have an answer.
* `QueryTable.query_eq_unknown` — no other path has one.
* `Bucket.Holds.answersByNumber`, `Bucket.Holds.answersByValue` — the answers of a bucket that holds a
  table.
-/

namespace BlogLedger

namespace QueryTable

/-! ### Paths -/

/-- No two buckets share a name, and no name has a slash.  Names of indexes may have slashes, since
a path is split at the first one. -/
structure WellNamed (table : QueryTable) : Prop where
  distinct : (table.map Prod.fst).Nodup
  no_slash : ∀ t ∈ table, '/' ∉ t.1.toList

variable {table : QueryTable} {path name index : String} {b : Bucket}

theorem ne_slash (h : '/' ∉ name.toList) : ∀ c ∈ name.toList, decide (c ≠ '/') = true := by
  intro c hc
  refine decide_eq_true ?_
  rintro rfl
  exact h hc

theorem splitPath_of_nil (h : path.toList.dropWhile (· ≠ '/') = []) :
    splitPath path = (path, none) := by
  unfold splitPath
  simp only [h]

theorem splitPath_of_cons {slash : Char} {rest : List Char}
    (h : path.toList.dropWhile (· ≠ '/') = slash :: rest) :
    splitPath path
      = (String.ofList (path.toList.takeWhile (· ≠ '/')), some (String.ofList rest)) := by
  unfold splitPath
  simp only [h]

theorem splitPath_name (h : '/' ∉ name.toList) : splitPath name = (name, none) :=
  splitPath_of_nil (List.dropWhile_eq_nil_iff.2 (ne_slash h))

theorem splitPath_append (h : '/' ∉ name.toList) (index : String) :
    splitPath (name ++ "/" ++ index) = (name, some index) := by
  have hchars : (name ++ "/" ++ index).toList = name.toList ++ '/' :: index.toList := by
    rw [String.toList_append, String.toList_append, List.append_assoc]
    rfl
  have hdrop : (name ++ "/" ++ index).toList.dropWhile (· ≠ '/') = '/' :: index.toList := by
    rw [hchars, List.dropWhile_append_of_pos (ne_slash h)]
    rfl
  have htake : (name ++ "/" ++ index).toList.takeWhile (· ≠ '/') = name.toList := by
    rw [hchars, List.takeWhile_append_of_pos (ne_slash h)]
    exact List.append_nil _
  rw [splitPath_of_cons hdrop, htake, String.ofList_toList, String.ofList_toList]

/-- What a path is split into, put together again, is the path.  So a path that is found in the
table is one of the registered paths, with nothing cut off. -/
theorem splitPath_join (path : String) :
    splitPath path = (path, none)
      ∨ ∃ name index, splitPath path = (name, some index) ∧ path = name ++ "/" ++ index := by
  have hwhole := List.takeWhile_append_dropWhile (p := (· ≠ '/')) (l := path.toList)
  cases hdrop : path.toList.dropWhile (· ≠ '/') with
  | nil => exact .inl (splitPath_of_nil hdrop)
  | cons slash index =>
    have hslash : slash = '/' := by
      have hhead := List.head?_dropWhile_not (· ≠ '/') path.toList
      rw [hdrop] at hhead
      simpa using hhead
    refine .inr ⟨_, _, splitPath_of_cons hdrop, ?_⟩
    rw [hdrop, hslash] at hwhole
    apply String.toList_inj.1
    simp only [String.toList_append, String.toList_ofList, List.append_assoc]
    exact hwhole.symm

theorem mem_insertPath {p : String} {rest : List String} :
    path ∈ insertPath p rest ↔ path = p ∨ path ∈ rest := by
  induction rest with
  | nil => simp [insertPath]
  | cons first rest ih =>
    rw [insertPath]
    split
    · rw [List.mem_cons, ih, List.mem_cons]
      exact or_left_comm
    · rw [List.mem_cons]

/-- A path has an answer when it names a bucket, or a bucket and one of its indexes.  The paths are
listed sorted, which does not change what is among them. -/
theorem mem_paths_iff : path ∈ table.paths
    ↔ ∃ t ∈ table, path = t.1 ∨ ∃ index ∈ t.2.indexNames, path = t.1 ++ "/" ++ index := by
  have hsort : ∀ paths : List String, path ∈ paths.foldr insertPath [] ↔ path ∈ paths := by
    intro paths
    induction paths with
    | nil => rfl
    | cons first rest ih => rw [List.foldr_cons, mem_insertPath, ih, List.mem_cons]
  unfold paths
  rw [hsort, List.mem_flatMap]
  refine exists_congr fun t => and_congr_right fun _ => ?_
  rw [List.mem_cons, List.mem_map]
  exact or_congr_right (exists_congr fun index => and_congr_right fun _ => eq_comm)

/-! ### Which bucket answers -/

theorem WellNamed.lookup_eq (h : table.WellNamed) (hmem : (name, b) ∈ table) :
    table.lookup name = some b := by
  have hdistinct := h.distinct
  clear h
  induction table with
  | nil => cases hmem
  | cons first rest ih =>
    obtain ⟨hfirst, hrest⟩ := List.nodup_cons.1 hdistinct
    obtain ⟨key, value⟩ := first
    rw [List.lookup_cons]
    rcases List.mem_cons.1 hmem with heq | hmem
    · cases heq
      rw [beq_self_eq_true]
    · have hname : name ∈ rest.map Prod.fst := List.mem_map_of_mem hmem
      have hne : (name == key) = false := by
        rw [beq_eq_false_iff_ne]
        rintro rfl
        exact hfirst hname
      rw [hne]
      exact ih hmem hrest

theorem mem_of_lookup {table : QueryTable} (h : table.lookup name = some b) : (name, b) ∈ table := by
  obtain ⟨before, rest, rfl, -⟩ := List.lookup_eq_some_iff.1 h
  exact List.mem_append_right _ List.mem_cons_self

variable {data : Bytes} {mode : QueryMode} {s : KeySpace}

/-- A query on the path of a bucket goes to the records of this bucket. -/
theorem query_name (h : table.WellNamed) (hmem : (name, b) ∈ table) :
    table.query name data mode s
      = (queryRecords b data mode s).map fun found => found.map fun r => ⟨r.1, r.2⟩ := by
  unfold query
  rw [splitPath_name (h.no_slash _ hmem)]
  simp only [h.lookup_eq hmem]
  rfl

/-- A query on the path of an index of a bucket goes to this index.  The bucket looks for the index
by its name, so the same name in another bucket does no harm. -/
theorem query_index {index : Index} (h : table.WellNamed) (hmem : (name, b) ∈ table)
    (hindex : index ∈ b.indexes) :
    table.query (name ++ "/" ++ index.name) data mode s
      = (queryIndex b index.name data mode s).map fun found => found.map fun r => ⟨r.1, r.2⟩ := by
  have hname : b.hasIndex index.name = true := List.contains_iff_mem.2 (List.mem_map_of_mem hindex)
  unfold query
  rw [splitPath_append (h.no_slash _ hmem)]
  simp only [h.lookup_eq hmem, if_pos hname]
  rfl

/-- A path that is not registered has no answer.  Nothing is assumed of the names: a path that is
found is registered, however they are chosen. -/
theorem query_eq_unknown (h : path ∉ table.paths) :
    table.query path data mode s = fail (.unknownQueryPath path) := by
  rw [mem_paths_iff] at h
  unfold query
  rcases splitPath_join path with hsplit | ⟨name, index, hsplit, rfl⟩
  · cases hlookup : table.lookup path with
    | none => simp only [hsplit, hlookup]
    | some b => exact absurd ⟨_, mem_of_lookup hlookup, .inl rfl⟩ h
  · cases hlookup : table.lookup name with
    | none => simp only [hsplit, hlookup]
    | some b =>
      simp only [hsplit, hlookup]
      refine if_neg fun hindex => h ⟨_, mem_of_lookup hlookup, .inr ⟨index, ?_, rfl⟩⟩
      exact List.contains_iff_mem.1 hindex

/-! ### Answers -/

/-- The answer holds exactly the wanted records of a bucket, as they are stored, each once and in
the given order.  Where the order is strict, this determines the answer. -/
def Answers (b : Bucket) (s : KeySpace) (wanted : Found → Prop) (before : Found → Found → Prop)
    (answer : Except Failure (List Found)) : Prop :=
  ∃ found, answer = .ok found ∧ found.Pairwise before ∧ (found.map Found.id).Nodup
    ∧ ∀ f, f ∈ found ↔ b.get f.id s = .ok (some f.record) ∧ wanted f

/-- The answer is a failure with the given code. -/
def Refuses {α : Type} (code : FailureCode) (answer : Except Failure α) : Prop :=
  ∃ f, answer = .error f ∧ f.code = code

/-- The one record comes before the other by its value in an index, or by its number if both have
one value.  Values are compared as bytes, since the index has them in its keys. -/
def BeforeByValue (index : Index) (f g : Found) : Prop :=
  ∃ v w, index.value f.record = .ok (some v) ∧ index.value g.record = .ok (some w)
    ∧ (v < w ∨ v = w ∧ f.id < g.id)

/-- The answers on the path of a bucket, for data that is exact and for data that is the start of a
number. -/
structure AnswersByNumber (table : QueryTable) (path : String) (b : Bucket) (s : KeySpace) :
    Prop where
  /-- Eight bytes are a number, and the answer is its record if there is one. -/
  number : ∀ data : Bytes, data.length = 8 → ∃ id r?, id.key = data ∧ b.get id s = .ok r?
    ∧ table.query path data .exact s = .ok (r?.map (Found.mk id)).toList
  wrong_length : ∀ data : Bytes, data.length ≠ 8 →
    Refuses .validation (table.query path data .exact s)
  leading : ∀ data : Bytes, Answers b s (fun f => data <+: f.id.key) (fun f g => f.id < g.id)
    (table.query path data .leading s)

/-- The answers on the path of an index of a bucket.  The order for a start is that of the values,
not that of the numbers: the entries are read as they lie in the store. -/
structure AnswersByValue (table : QueryTable) (path : String) (b : Bucket) (index : Index)
    (s : KeySpace) : Prop where
  exact : ∀ data : Bytes, Answers b s (fun f => index.value f.record = .ok (some data))
    (fun f g => f.id < g.id) (table.query path data .exact s)
  leading : ∀ data : Bytes,
    Answers b s (fun f => ∃ value, index.value f.record = .ok (some value) ∧ data <+: value)
      (BeforeByValue index) (table.query path data .leading s)

theorem Answers.of_pairs {found : List (RecordId × Record)} {wanted : Found → Prop}
    {before : Found → Found → Prop} {answer : Except Failure (List Found)}
    (hanswer : answer = .ok (found.map fun r => ⟨r.1, r.2⟩))
    (hordered : found.Pairwise fun x y => before ⟨x.1, x.2⟩ ⟨y.1, y.2⟩)
    (hnodup : (found.map Prod.fst).Nodup)
    (hmem : ∀ id r, (id, r) ∈ found ↔ b.get id s = .ok (some r) ∧ wanted ⟨id, r⟩) :
    Answers b s wanted before answer := by
  refine ⟨_, hanswer, List.pairwise_map.2 hordered, ?_, fun f => ?_⟩
  · rw [List.map_map]
    exact hnodup
  · rw [List.mem_map, ← hmem]
    constructor
    · rintro ⟨x, hx, rfl⟩
      exact hx
    · intro hf
      exact ⟨_, hf, rfl⟩

end QueryTable

namespace Bucket.Holds

open QueryTable

variable {b : Bucket} {t : Table Record} {s : KeySpace} {table : QueryTable} {name : String}

theorem get_eq_some_iff (h : b.Holds t s) {id : RecordId} {r : Record} :
    b.get id s = .ok (some r) ↔ t.row id.number = some r := by
  rw [h.get, Except.ok.injEq]

/-- Listed numbers are answered with their records, in the order of the list.  Both modes of an
index come down to such a list, so the records are loaded once for both. -/
theorem answers_of_listed (h : b.Holds t s) {ids : List RecordId} {wanted : Found → Prop}
    {before : Found → Found → Prop} (hnodup : ids.Nodup)
    (hordered : ids.Pairwise fun x y => ∀ r r', t.row x.number = some r → t.row y.number = some r' →
      before ⟨x, r⟩ ⟨y, r'⟩)
    (hmem : ∀ id, id ∈ ids ↔ ∃ r, t.row id.number = some r ∧ wanted ⟨id, r⟩) :
    Answers b s wanted before
      ((b.loadAll ids s).map fun found => found.map fun r => ⟨r.1, r.2⟩) := by
  obtain ⟨found, hload, rfl, hgets⟩ := h.loads fun id hid => by
    obtain ⟨r, hrow, -⟩ := (hmem id).1 hid
    exact ⟨r, hrow⟩
  have hrows : ∀ x ∈ found, t.row x.1.number = some x.2 :=
    fun x hx => h.get_eq_some_iff.1 (hgets x hx)
  refine Answers.of_pairs (by rw [hload]; rfl) ?_ hnodup fun id r => ?_
  · exact (List.pairwise_map.1 hordered).imp_of_mem fun hx hy hbefore =>
      hbefore _ _ (hrows _ hx) (hrows _ hy)
  · rw [h.get_eq_some_iff]
    constructor
    · intro hfound
      have hrow := hrows _ hfound
      obtain ⟨r', hrow', hwanted⟩ := (hmem id).1 (List.mem_map_of_mem hfound)
      cases hrow.symm.trans hrow'
      exact ⟨hrow, hwanted⟩
    · rintro ⟨hrow, hwanted⟩
      obtain ⟨⟨_, r'⟩, hfound, rfl⟩ := List.mem_map.1 ((hmem id).2 ⟨r, hrow, hwanted⟩)
      cases hrow.symm.trans (hrows _ hfound)
      exact hfound

/-- The answers on the path of a bucket that holds a table.  The bytes of a number are its key, so a
scan of keys is a scan of numbers. -/
theorem answersByNumber (h : b.Holds t s) (htable : table.WellNamed) (hmem : (name, b) ∈ table) :
    table.AnswersByNumber name b s where
  number := by
    intro data hlength
    obtain ⟨word, hword⟩ : ∃ word, Bytes.ofBig64? data = some word := ⟨_, if_pos hlength⟩
    have hdata : RecordId.key ⟨word⟩ = data := (Bytes.ofBig64?_eq_some_iff.1 hword).symm
    refine ⟨⟨word⟩, _, hdata, h.get _, ?_⟩
    rw [query_name htable hmem, ← hdata]
    unfold queryRecords
    rw [RecordId.ofKey?_key]
    simp only [h.get]
    cases t.row word <;> rfl
  wrong_length := by
    intro data hlength
    rw [query_name htable hmem]
    unfold queryRecords
    rw [RecordId.ofKey?_eq_none hlength]
    exact ⟨_, rfl, rfl⟩
  leading := by
    intro data
    obtain ⟨found, hfound, hordered, hrows⟩ := h.scan data
    rw [query_name htable hmem]
    unfold queryRecords
    refine Answers.of_pairs (by rw [hfound]; rfl) hordered ?_ fun id r => ?_
    · refine List.pairwise_map.2 (hordered.imp fun hlt heq => ?_)
      exact RecordId.lt_irrefl _ (heq ▸ hlt)
    · rw [h.get_eq_some_iff]
      exact hrows id r

/-- The answers on the path of an index of a bucket that holds a table.  The value of a record is
what the index computes from it, which is what the entries are made of. -/
theorem answersByValue (h : b.Holds t s) (htable : table.WellNamed) (hmem : (name, b) ∈ table)
    {index : Index} (hindex : index ∈ b.indexes) :
    table.AnswersByValue (name ++ "/" ++ index.name) b index s where
  exact := by
    intro data
    obtain ⟨ids, hids, hlists⟩ := h.byIndex hindex data
    rw [query_index htable hmem hindex]
    unfold queryIndex
    rw [hids]
    exact h.answers_of_listed (IdList.nodup_of_ascending hlists.ascending)
      (hlists.ascending.imp fun hlt _ _ _ _ => hlt) hlists.mem_iff
  leading := by
    intro data
    obtain ⟨ids, hids, hlists⟩ := h.byIndexStart hindex data
    rw [query_index htable hmem hindex]
    unfold queryIndex
    rw [hids]
    refine h.answers_of_listed hlists.nodup (hlists.ordered.imp ?_) fun id => ?_
    · rintro x y ⟨v, w, hx, hy, hbefore⟩ r r' hr hr'
      exact ⟨v, w, value_of_heldIn hx hr, value_of_heldIn hy hr', hbefore⟩
    · rw [hlists.mem_iff]
      constructor
      · rintro ⟨value, hheld, hstart⟩
        obtain ⟨r, hrow, hvalue⟩ := heldIn_eq_some_iff.1 hheld
        exact ⟨r, hrow, value, hvalue, hstart⟩
      · rintro ⟨r, hrow, value, hvalue, hstart⟩
        exact ⟨value, heldIn_eq_some_iff.2 ⟨r, hrow, hvalue⟩, hstart⟩

end Bucket.Holds

end BlogLedger
