import BlogLedger.Proofs.Bucket.Lookup
import BlogLedger.Proofs.Bucket.Names
import BlogLedger.Proofs.Bucket.Requests

/-!
# Indexes agree with the records

Whatever a bucket is asked for, and whether or not it grants it, its indexes list the records that it
holds, and nobody ever finds them to disagree.

The statement holds of any bucket whose keys are kept apart, and of requests of any kind.  Requests
that are refused need an argument of their own, since a refusal could come after some of the writes.
It does not: a request is refused for its record, its number or a value, all of which is known
before anything is written.  What could go wrong later is a disagreement of an index with the
records, and there is none.

## Main Definitions

* `Bucket.Indexed` — the indexes of a bucket agree with its records.

## Main Results

* `Bucket.Refusal.of_drift` — a refusal never comes from a disagreement that the bucket has found.
* `Bucket.indexes_agree` — the indexes agree with the records after all requests.
-/

namespace BlogLedger

/-- A record that is refused for its fields is refused for flaws.  So such a refusal cannot be taken
for one by an index. -/
theorem Record.cause_of_validate {r : Record} {f : Failure} (h : r.validate = .error f) :
    ∃ first rest, f = .of (.flawed first rest) := by
  unfold Record.validate at h
  cases hflaws : r.flaws with
  | nil =>
    rw [hflaws] at h
    cases h
  | cons first rest =>
    rw [hflaws] at h
    cases h
    exact ⟨first, rest, rfl⟩

namespace Bucket

open KeySpace (Confined)

/-- The indexes of a bucket agree with its records.  It is stated by means of reads and keys, and a
table is mentioned nowhere. -/
structure Indexed (b : Bucket) (s : KeySpace) : Prop where
  get_ok : ∀ id, ∃ found, b.get id s = .ok found
  /-- Under every value stand the records that have it, in ascending order.  For a value that no
  record has the list is empty. -/
  byIndex : ∀ index ∈ b.indexes, ∀ value, ∃ ids : IdList,
    b.byIndex index.name value s = .ok ids ∧ ids.Lists fun id =>
      ∃ r, b.get id s = .ok (some r) ∧ index.value r = .ok (some value)
  /-- Every key of an entry is that of a value that some record has.  With the field before, every
  byte of the indexes is accounted for. -/
  entry_keys : ∀ key, entryStart <+: key → s.has key → ∃ index ∈ b.indexes, ∃ value id r,
    key = b.indexKey index.name value ∧ b.get id s = .ok (some r)
      ∧ index.value r = .ok (some value)
  /-- A request that fails changes nothing.  The cause is given as well, so it is known which
  failures there can be. -/
  refused : ∀ request f, b.Spare s request → ((b.ask request).run s).1 = .error f →
    ((b.ask request).run s).2 = s ∧ b.Refusal request f
  /-- No request finds an index and the records to disagree: a disagreement is reported only where
  an index itself states it about the record that is brought along.  An index is any function of a
  record here, and it could give such a fault as its value. -/
  not_drift : ∀ request f drift, b.Spare s request → ((b.ask request).run s).1 = .error f →
    f.cause = .index (.drift drift) → ∃ r, request.record? = some r
      ∧ ∃ index ∈ b.indexes, index.value r = .error (.drift drift)
  byIndex_loads : ∀ index ∈ b.indexes, ∀ value, ∃ ids,
    b.byIndex index.name value s = .ok ids ∧ b.Loads s ids
  byIndexStart_loads : ∀ index ∈ b.indexes, ∀ start, ∃ ids,
    b.byIndexStart index.name start s = .ok ids ∧ b.Loads s ids
  byIndexRange_loads : ∀ index ∈ b.indexes, ∀ start stop, ∃ ids,
    b.byIndexRange index.name start stop s = .ok ids ∧ b.Loads s ids

variable {b : Bucket} {t : Table Record} {s : KeySpace} {index : Index}

/-- A refusal never comes from a disagreement that the bucket has found.  The case split is on the
reasons for a refusal, of which only one can have such a cause. -/
theorem Refusal.of_drift {request : Request} {f : Failure} {drift : Drift}
    (h : b.Refusal request f) (hcause : f.cause = .index (.drift drift)) :
    ∃ r, request.record? = some r ∧ ∃ index ∈ b.indexes, index.value r = .error (.drift drift) := by
  cases h with
  | kind | missing => cases hcause
  | flawed r asked invalid =>
    obtain ⟨first, rest, rfl⟩ := Record.cause_of_validate invalid
    cases hcause
  | rejected r index fault asked mem value =>
    cases hcause
    exact ⟨r, asked, index, mem, value⟩

namespace Holds

/-- Of the keys of a bucket only those of values that some record has start like an entry.  Keys of
records and of the sequence start differently, by the condition on names. -/
theorem exists_of_entryStart (h : b.Holds t s) (hb : b.Named) (hconf : Confined b.starts .empty s)
    {key : Bytes} (hstart : entryStart <+: key) (hhas : s.has key) :
    ∃ index ∈ b.indexes, ∃ value, ∃ id : RecordId, ∃ r, key = b.indexKey index.name value
      ∧ t.row id.number = some r ∧ index.value r = .ok (some value) := by
  obtain ⟨bytes, hget⟩ := Option.isSome_iff_exists.1 hhas
  have hunder : Bytes.Under b.starts key := by
    by_contra hnot
    cases (hconf.get key hnot).symm.trans hget
  cases h.entry_of_get hunder hget with
  | record id r row =>
    exact absurd hstart (hb.record_apart_entry.not_starts (List.prefix_append _ _))
  | sequence given => exact absurd hstart (sequence_apart_entry b).2
  | index index value ids mem some_id lists =>
    obtain ⟨id, hid⟩ := List.exists_mem_of_ne_nil ids some_id
    obtain ⟨r, hrow, hvalue⟩ := (lists.mem_iff id).1 hid
    exact ⟨index, mem, value, id, r, rfl, hrow, hvalue⟩

/-- A request that fails is refused for a reason, and changes nothing.  If it were not refused for
any of the reasons, it would go through, and that is what is shown elsewhere. -/
theorem refused (h : b.Holds t s) (hb : b.Separated) {request : Request} {f : Failure}
    (hspare : b.Spare s request) (herror : ((b.ask request).run s).1 = .error f) :
    ((b.ask request).run s).2 = s ∧ b.Refusal request f := by
  rcases h.ask hb hspare with ⟨u, hrun, -⟩ | ⟨f', hrun, hrefusal⟩
  · rw [hrun] at herror
    cases herror
  · rw [hrun] at herror ⊢
    cases herror
    exact ⟨rfl, hrefusal⟩

/-- The indexes of a bucket agree with the table that it holds.  The key space must hold nothing
else, for otherwise there could be keys that belong to nobody. -/
theorem indexed (h : b.Holds t s) (hb : b.Named) (hconf : Confined b.starts .empty s) :
    b.Indexed s where
  get_ok id := ⟨_, h.get id⟩
  byIndex index hindex value := by
    simp only [h.get, Except.ok.injEq]
    exact h.byIndex hindex value
  entry_keys key hstart hhas := by
    simp only [h.get, Except.ok.injEq]
    exact h.exists_of_entryStart hb hconf hstart hhas
  refused request f hspare := h.refused hb.separated hspare
  not_drift request f drift hspare herror hcause :=
    (h.refused hb.separated hspare herror).2.of_drift hcause
  byIndex_loads := by
    intro index hindex value
    obtain ⟨ids, hids, hlists⟩ := h.byIndex hindex value
    refine ⟨ids, hids, h.loads fun id hid => ?_⟩
    obtain ⟨r, hrow, -⟩ := (hlists.mem_iff id).1 hid
    exact ⟨r, hrow⟩
  byIndexStart_loads := by
    intro index hindex start
    obtain ⟨ids, hids, hlists⟩ := h.byIndexStart hindex start
    exact ⟨ids, hids, h.loads fun id hid => hlists.exists_row hid⟩
  byIndexRange_loads := by
    intro index hindex start stop
    obtain ⟨ids, hids, hlists⟩ := h.byIndexRange hindex start stop
    exact ⟨ids, hids, h.loads fun id hid => hlists.exists_row hid⟩

end Holds

/-- After all requests, granted or refused, the indexes agree with the records.  The table that is
held changes with each request; it exists, and that is all that is used. -/
theorem indexes_agree (hb : b.Named) (h : b.Reachable s) : b.Indexed s := by
  obtain ⟨t, hholds, hconf⟩ := h.holds hb.separated
  exact hholds.indexed hb hconf

/-- The blog of an account. -/
def sampleBlog (account : UInt8) : Record :=
  .blog ⟨⟨List.replicate 20 account, rfl⟩, "Field Notes", "Walks and weather", ⟨100⟩⟩

/-- A blog is created and saved again under another owner. -/
def sampleSpace : KeySpace :=
  ((blogs.ask (.save ⟨1⟩ (sampleBlog 2))).run
    ((blogs.ask (.create (sampleBlog 1))).run .empty).2).2

theorem indexes_agree_sample :
    blogs.Named ∧ blogs.Reachable sampleSpace
      ∧ (sampleSpace.scan entryStart).entries.length = 1 ∧ blogs.Indexed sampleSpace := by
  have hindex : ∀ index ∈ blogs.indexes, IsPlainName index.name := by
    intro index hmem
    obtain rfl := List.mem_singleton.1 hmem
    decide
  have hnamed : blogs.Named := ⟨by decide, hindex, List.pairwise_singleton _ _⟩
  have hspare : blogs.HasNext .empty := by
    unfold HasNext
    rw [KeySpace.get_empty]
    exact nofun
  have hreached : blogs.Reachable sampleSpace :=
    .ask (.ask .empty (.create (sampleBlog 1)) hspare) (.save ⟨1⟩ (sampleBlog 2)) trivial
  exact ⟨hnamed, hreached, by decide +kernel, indexes_agree hnamed hreached⟩

end Bucket

end BlogLedger
