import BlogLedger.Proofs.Bucket.Lookup
import BlogLedger.Proofs.Bucket.Names
import BlogLedger.Proofs.Bucket.Requests

/-!
# Articles from a span of time

The timed index puts the articles of a blog side by side, in the order of their times.  A span of time
is one range of its values, whatever its ends are, so looking the range up gives the articles of the
span and no others.

The result asks for an index that agrees with its records, and for nothing else in the store.  In
particular it does not ask how the store has come about.  The work is in the ends of the span: a
time before 1970 has no timed value, so such an end is moved to 1970, and a span without times is
answered without a lookup.  What is left is that a range of bytes is a span of times.

## Main Definitions

* `Bucket.Agrees` — an index takes every record of a bucket and lists it under its value.
* `Bucket.heldBy` — the value of a record that is stored.
* `Articles.ListsSpan` — a list of exactly the articles of a blog from a span of time.

## Main Results

* `keepsOrder_timedValue`, `timedValue_lt_iff` — timed values compare by blog and then by time.
* `Articles.inRange_bound_iff` — which timed values lie in the range of a span.
* `Bucket.Holds.agrees` — every index of a bucket that holds a table agrees with its records.
* `Articles.between_exact` — the articles of a span are found whenever the timed index agrees with
  the records.
-/

namespace BlogLedger

/-! ### Agreement -/

namespace Bucket

/-- An index takes every record of the bucket, and under every value it lists the records that have
the value, each once.  It is a statement about reads only. -/
structure Agrees (b : Bucket) (index : Index) (s : KeySpace) : Prop where
  taken : ∀ id r, b.get id s = .ok (some r) → ∃ value, index.value r = .ok value
  byIndex : ∀ value, ∃ ids : IdList, b.byIndex index.name value s = .ok ids
    ∧ ids.Lists fun id => ∃ r, b.get id s = .ok (some r) ∧ index.value r = .ok (some value)

/-- The value that the record of a number has in an index, as it is read from the store.  There is
no table here that could be asked instead. -/
def heldBy (b : Bucket) (index : Index) (s : KeySpace) (id : RecordId) : Option Bytes :=
  (b.get id s).toOption.join.bind (valueIn index)

variable {b : Bucket} {t : Table Record} {s : KeySpace} {index : Index}

theorem heldBy_eq_some_iff {id : RecordId} {value : Bytes} :
    b.heldBy index s id = some value
      ↔ ∃ r, b.get id s = .ok (some r) ∧ index.value r = .ok (some value) := by
  unfold heldBy
  rw [Option.bind_eq_some_iff]
  refine exists_congr fun r => and_congr ?_ valueIn_eq_some_iff
  cases b.get id s with
  | error f => simp [Except.toOption]
  | ok found => simp [Except.toOption]

/-- The bucket knows the index that it looks up.  It need not be assumed, since a lookup in an
unknown index fails. -/
theorem Agrees.checkIndex (h : b.Agrees index s) : b.checkIndex index.name = .ok () := by
  obtain ⟨ids, hids, -⟩ := h.byIndex []
  obtain ⟨_, hcheck, -⟩ := Except.bind_eq_ok.1 hids
  exact hcheck

/-- Every entry reads as the list of the records that have its value.  So the lookups by range
apply. -/
theorem Agrees.reads (h : b.Agrees index s) : b.Reads index.name (b.heldBy index s) s := by
  intro value
  obtain ⟨ids, hids, hlists⟩ := h.byIndex value
  obtain ⟨_, -, hentry⟩ := Except.bind_eq_ok.1 hids
  exact ⟨ids, hentry, hlists.congr fun id => heldBy_eq_some_iff.symm⟩

/-- Every index of a bucket that holds a table agrees with its records.  The condition is thus met
by every store that a ledger leads to. -/
theorem Holds.agrees (h : b.Holds t s) (hindex : index ∈ b.indexes) : b.Agrees index s where
  taken id r hget := by
    rw [h.get, Except.ok.injEq] at hget
    exact ⟨_, (h.suits _ r hget).values index hindex⟩
  byIndex value := by
    simp only [h.get, Except.ok.injEq]
    exact h.byIndex hindex value

end Bucket

/-! ### Timed values -/

/-- Timed values compare as pairs of the number of the blog and the time.  Both parts have a fixed
length, so bytes of the one are never compared with bytes of the other. -/
theorem keepsOrder_timedValue :
    Bytes.KeepsOrder (fun x : RecordId × Timestamp => ¬ x.2 < .unset) (fun x => timedValue x.1 x.2)
      fun x => toLex (x.1.number.toNat, x.2.toInt) :=
  (RecordId.keepsOrder_key.comap Prod.fst fun _ _ => trivial).append
    (Timestamp.keepsOrder_key.comap Prod.snd fun _ h => h)
    fun x y => x.1.length_key.trans y.1.length_key.symm

/-- Timed values compare by blog and then by time.  For times before 1970 it would fail, as their
bytes sort after all others. -/
theorem timedValue_lt_iff {x y : RecordId} {t u : Timestamp} (ht : ¬ t < .unset)
    (hu : ¬ u < .unset) : timedValue x t < timedValue y u ↔ x < y ∨ x = y ∧ t < u := by
  rw [RecordId.lt_iff, ← RecordId.toNat_inj, Timestamp.lt_iff]
  exact (keepsOrder_timedValue.lt_iff (x := (x, t)) (y := (y, u)) ht hu).trans
    Prod.Lex.toLex_lt_toLex

/-- The same timed value comes from one blog and one time.  Here the times can be any. -/
theorem timedValue_inj {x y : RecordId} {t u : Timestamp} :
    timedValue x t = timedValue y u ↔ x = y ∧ t = u :=
  (keepsOrder_timedValue.eq_iff (x := (x, t)) (y := (y, u))).trans <| by
    rw [toLex_inj, Prod.mk.injEq, RecordId.toNat_inj, Timestamp.toInt_inj]

/-- The timed index has a value for exactly the articles that were not created before 1970.  Other
records have no value, and an earlier article is rejected. -/
theorem Index.timedBlog_value_iff {r : Record} {value : Bytes} :
    Index.timedBlog.value r = .ok (some value) ↔ ∃ a : Article, r = .article a
      ∧ ¬ a.createdAt < .unset ∧ timedValue a.blog a.createdAt = value := by
  cases r with
  | user | blog => exact iff_of_false nofun nofun
  | article a =>
    show a.timedValue.map some = _ ↔ _
    unfold Article.timedValue
    rw [Except.map_eq_ok]
    by_cases hearly : a.createdAt < .unset
    · simp [hearly]
    · simp [hearly]

namespace Articles

/-- The list holds exactly the articles of a blog that were created at `start` or later and before
`stop`, each once, the oldest first and those of one time by number.  It is said by means of
articles and times, without values and keys. -/
structure ListsSpan (blog : RecordId) (start stop : Timestamp) (s : KeySpace)
    (ids : List RecordId) : Prop where
  mem_iff : ∀ id, id ∈ ids ↔ ∃ a, get id s = .ok (some a) ∧ a.blog = blog
    ∧ start ≤ a.createdAt ∧ a.createdAt < stop
  ordered : ids.Pairwise fun x y => ∃ a b, get x s = .ok (some a) ∧ get y s = .ok (some b)
    ∧ (a.createdAt < b.createdAt ∨ a.createdAt = b.createdAt ∧ x < y)
  nodup : ids.Nodup

variable {blog : RecordId} {start stop : Timestamp} {s : KeySpace}

/-- A timed value lies in the range of a span that is not over before it begins exactly when it is
of the blog and its time lies in the span.  Both ends of the range have the number of the blog in
front, so no other blog fits in between. -/
theorem inRange_bound_iff {other : RecordId} {time : Timestamp} (htime : ¬ time < .unset)
    (hstop : ¬ stop ≤ .unset) :
    ByteMap.inRange (bound blog start) (some (bound blog stop)) (timedValue other time) = true
      ↔ other = blog ∧ start ≤ time ∧ time < stop := by
  -- No time before 1970 has a value, so the range may as well start with 1970.
  obtain ⟨first, hfirst, hbound, hle⟩ : ∃ first : Timestamp, ¬ first < .unset
      ∧ bound blog start = timedValue blog first ∧ (first ≤ time ↔ start ≤ time) := by
    unfold bound
    by_cases hearly : start < .unset
    · refine ⟨.unset, by decide, by rw [if_pos hearly], ?_⟩
      rw [Timestamp.not_lt] at htime
      rw [Timestamp.le_iff, Timestamp.le_iff] at *
      rw [Timestamp.lt_iff] at hearly
      omega
    · exact ⟨start, hearly, by rw [if_neg hearly], Iff.rfl⟩
  have hlast : ¬ stop < .unset := fun h => hstop (Timestamp.not_lt.1 fun h' => by
    rw [Timestamp.lt_iff] at h h'
    omega)
  have hbound' : bound blog stop = timedValue blog stop := by
    unfold bound
    rw [if_neg hlast]
  unfold ByteMap.inRange
  rw [hbound, hbound', Option.all_some, Bool.and_eq_true, decide_eq_true_eq, decide_eq_true_eq,
    ← List.not_lt, timedValue_lt_iff htime hfirst, timedValue_lt_iff htime hlast, ← hle,
    ← Timestamp.not_lt]
  constructor
  · rintro ⟨hlow, hbefore | ⟨rfl, hhigh⟩⟩
    · exact absurd (.inl hbefore) hlow
    · exact ⟨rfl, fun hearly => hlow (.inr ⟨rfl, hearly⟩), hhigh⟩
  · rintro ⟨rfl, hlow, hhigh⟩
    refine ⟨?_, .inr ⟨rfl, hhigh⟩⟩
    rintro (hbefore | ⟨-, hearly⟩)
    · exact RecordId.lt_irrefl other hbefore
    · exact hlow hearly

/-- An article is read exactly when its record is.  A record of another kind in its place is a
failure for both. -/
theorem get_eq_some_iff {id : RecordId} {a : Article} :
    get id s = .ok (some a) ↔ Bucket.articles.get id s = .ok (some (.article a)) := by
  unfold get
  rw [Except.bind_eq_ok]
  constructor
  · rintro ⟨found, hget, hconvert⟩
    cases found with
    | none => cases hconvert
    | some r =>
      cases r with
      | user | blog => cases hconvert
      | article article =>
        cases hconvert
        exact hget
  · exact fun hget => ⟨_, hget, rfl⟩

/-- An article that the timed index takes was not created before 1970.  It is where the first field
of the agreement is used. -/
theorem not_lt_unset_of_agrees (h : Bucket.articles.Agrees .timedBlog s) {id : RecordId}
    {a : Article} (hget : get id s = .ok (some a)) : ¬ a.createdAt < .unset := by
  obtain ⟨value, hvalue⟩ := h.taken id _ (get_eq_some_iff.1 hget)
  change a.timedValue.map some = _ at hvalue
  intro hearly
  rw [Article.timedValue, if_pos hearly] at hvalue
  cases hvalue

/-- Under the timed values that the index holds stand the articles with these blogs and times. -/
theorem heldBy_timedBlog_iff (h : Bucket.articles.Agrees .timedBlog s) {id : RecordId}
    {value : Bytes} : Bucket.articles.heldBy .timedBlog s id = some value
      ↔ ∃ a, get id s = .ok (some a) ∧ timedValue a.blog a.createdAt = value := by
  rw [Bucket.heldBy_eq_some_iff]
  constructor
  · rintro ⟨r, hget, hvalue⟩
    obtain ⟨a, rfl, -, ha⟩ := Index.timedBlog_value_iff.1 hvalue
    exact ⟨a, get_eq_some_iff.2 hget, ha⟩
  · rintro ⟨a, hget, ha⟩
    exact ⟨_, get_eq_some_iff.1 hget,
      Index.timedBlog_value_iff.2 ⟨a, rfl, not_lt_unset_of_agrees h hget, ha⟩⟩

/-- A list by timed values from the range of a span lists the span.  Within one blog the order by
value is the order by time and then by number. -/
theorem listsSpan_of_listsByValue (h : Bucket.articles.Agrees .timedBlog s)
    (hstop : ¬ stop ≤ .unset) {ids : List RecordId}
    (hlists : Bucket.ListsByValue (Bucket.articles.heldBy .timedBlog s)
      (ByteMap.inRange (bound blog start) (some (bound blog stop)) ·) ids) :
    ListsSpan blog start stop s ids := by
  have hmem : ∀ id, id ∈ ids ↔ ∃ a, get id s = .ok (some a) ∧ a.blog = blog
      ∧ start ≤ a.createdAt ∧ a.createdAt < stop := by
    intro id
    rw [hlists.mem_iff]
    constructor
    · rintro ⟨value, hheld, hrange⟩
      obtain ⟨a, hget, rfl⟩ := (heldBy_timedBlog_iff h).1 hheld
      exact ⟨a, hget, (inRange_bound_iff (not_lt_unset_of_agrees h hget) hstop).1 hrange⟩
    · rintro ⟨a, hget, hspan⟩
      exact ⟨_, (heldBy_timedBlog_iff h).2 ⟨a, hget, rfl⟩,
        (inRange_bound_iff (not_lt_unset_of_agrees h hget) hstop).2 hspan⟩
  refine ⟨hmem, hlists.ordered.imp_of_mem ?_, hlists.nodup⟩
  rintro x y hx hy ⟨v, w, hv, hw, hbefore⟩
  obtain ⟨a, ha, hblog, -⟩ := (hmem x).1 hx
  obtain ⟨b, hb, hblog', -⟩ := (hmem y).1 hy
  obtain ⟨a', ha', rfl⟩ := (heldBy_timedBlog_iff h).1 hv
  obtain ⟨b', hb', rfl⟩ := (heldBy_timedBlog_iff h).1 hw
  cases ha.symm.trans ha'
  cases hb.symm.trans hb'
  refine ⟨a, b, ha, hb, ?_⟩
  -- Both articles are of the blog, so only their times and numbers are left to compare.
  rw [timedValue_lt_iff (not_lt_unset_of_agrees h ha) (not_lt_unset_of_agrees h hb),
    timedValue_inj, hblog, hblog'] at hbefore
  rcases hbefore with (hless | ⟨-, htime⟩) | ⟨⟨-, htime⟩, hnumber⟩
  · exact absurd hless (RecordId.lt_irrefl blog)
  · exact .inl htime
  · exact .inr ⟨htime, hnumber⟩

/-- No article is from a span that is over before it begins, or before 1970.  So giving an empty
list for it is right, and not only convenient. -/
theorem listsSpan_nil (h : Bucket.articles.Agrees .timedBlog s)
    (hstop : stop ≤ start ∨ stop ≤ .unset) : ListsSpan blog start stop s [] := by
  refine ⟨fun id => iff_of_false List.not_mem_nil ?_, .nil, .nil⟩
  rintro ⟨a, hget, -, hlow, hhigh⟩
  have hshown := not_lt_unset_of_agrees h hget
  rw [Timestamp.lt_iff] at hhigh hshown
  rw [Timestamp.le_iff] at hlow
  rw [Timestamp.le_iff, Timestamp.le_iff] at hstop
  omega

/-- Looking up the articles of a blog from a span of time gives exactly these articles, the oldest
first, whatever the blog and the ends of the span are.  The two cases are those of the definition: a
span without times, and a range of the index. -/
theorem between_exact (h : Bucket.articles.Agrees .timedBlog s) (blog : RecordId)
    (start stop : Timestamp) :
    ∃ ids, between blog start stop s = .ok ids ∧ ListsSpan blog start stop s ids := by
  unfold between
  by_cases hstop : stop ≤ start ∨ stop ≤ .unset
  · exact ⟨[], if_pos hstop, listsSpan_nil h hstop⟩
  · rw [if_neg hstop]
    obtain ⟨ids, hids, hlists⟩ :=
      h.reads.byIndexRange h.checkIndex (bound blog start) (some (bound blog stop))
    exact ⟨ids, hids, listsSpan_of_listsByValue h (fun hle => hstop (.inr hle)) hlists⟩

/-- An article of a blog that was created at a time. -/
def sampleOf (blog : UInt64) (time : Int64) : Record :=
  .article ⟨⟨blog⟩, ⟨List.replicate 20 3, rfl⟩, "Frost", "Cold nights", ⟨time⟩, none, none⟩

/-- Articles of two blogs; the two latest of the first blog are of one time. -/
def sampleSpace : KeySpace :=
  [sampleOf 1 200, sampleOf 2 150, sampleOf 1 100, sampleOf 1 200].foldl
    (fun s r => ((Bucket.articles.ask (.create r)).run s).2) .empty

theorem between_exact_sample :
    Bucket.articles.Agrees .timedBlog sampleSpace
      ∧ (between ⟨1⟩ ⟨Int64.minValue⟩ ⟨201⟩ sampleSpace).toOption = some [⟨3⟩, ⟨1⟩, ⟨4⟩]
      ∧ (between ⟨1⟩ ⟨100⟩ ⟨200⟩ sampleSpace).toOption = some [⟨3⟩]
      ∧ ∃ ids, between ⟨1⟩ ⟨100⟩ ⟨200⟩ sampleSpace = .ok ids
        ∧ ListsSpan ⟨1⟩ ⟨100⟩ ⟨200⟩ sampleSpace ids := by
  have hreached : Bucket.articles.Reachable sampleSpace := by
    refine .ask (.ask (.ask (.ask .empty (.create (sampleOf 1 200)) ?_) (.create (sampleOf 2 150)) ?_)
      (.create (sampleOf 1 100)) ?_) (.create (sampleOf 1 200)) ?_
    all_goals
      unfold Bucket.Spare Bucket.HasNext
      decide +kernel
  obtain ⟨t, hholds, -⟩ := hreached.holds (by decide)
  have hagrees : Bucket.articles.Agrees .timedBlog sampleSpace :=
    hholds.agrees (by simp [Bucket.articles])
  exact ⟨hagrees, by decide +kernel, by decide +kernel, between_exact hagrees ⟨1⟩ ⟨100⟩ ⟨200⟩⟩

end Articles

end BlogLedger
