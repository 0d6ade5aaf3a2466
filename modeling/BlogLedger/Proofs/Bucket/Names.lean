import BlogLedger.Proofs.Bucket.Holds
import BlogLedger.Proofs.Bytes.Hex

/-!
# Names of buckets

The keys of a bucket are told apart by a colon after the name of the bucket or of the index, and by
a dot in the starts that buckets do not choose.  Names of lowercase letters and underscores hold
neither.

That keys of different groups never meet is a condition on pairs of byte strings, and it would have
to be checked for each bucket.  Here it is reduced to one on names that can be seen at once.  The
argument is that each start is marked by a byte which does not occur in the names: two marked names
of which one starts the other are the same name.

## Main Definitions

* `IsPlainName` — a name of lowercase letters and underscores.
* `Bucket.Named` — a bucket with plain names, different ones for its indexes.

## Main Results

* `Bucket.Named.separated` — no key of such a bucket can be taken for one of another kind.
-/

namespace BlogLedger

/-- A name of lowercase letters and underscores.  It is decided by looking at its characters. -/
def IsPlainName (name : String) : Prop := ∀ c ∈ name.toList, c.isLower = true ∨ c = '_'

-- The characters of the name are looked at, not all characters that there are.
instance (name : String) : Decidable (IsPlainName name) :=
  List.decidableBAll _ name.toList

namespace Bytes

theorem ofText_append (x y : String) : ofText (x ++ y) = ofText x ++ ofText y := by
  simp [ofText]

/-- Different texts have different bytes.  Names are compared as texts, and keys as bytes. -/
theorem ofText_inj {x y : String} : ofText x = ofText y ↔ x = y := by
  refine ⟨fun h => ?_, congrArg ofText⟩
  have hread := congrArg toText? h
  rwa [toText?_ofText, toText?_ofText, Option.some.injEq] at hread

/-- Byte strings with starts that are apart are apart.  So it is enough to look at the first few
bytes of two keys. -/
theorem Apart.append {p q : Bytes} (h : Apart p q) (x y : Bytes) : Apart (p ++ x) (q ++ y) := by
  constructor
  · intro hpq
    exact h.not_starts ((List.prefix_append p x).trans hpq) (List.prefix_append q y)
  · intro hqp
    exact h.not_starts (List.prefix_append p x) ((List.prefix_append q y).trans hqp)

/-- A byte string that has a byte starts none that is without it.  It separates keys by a byte that
only one of them has. -/
theorem not_starts_of_not_mem {p q : Bytes} {c : UInt8} (hp : c ∈ p) (hq : c ∉ q) : ¬ p <+: q :=
  fun hstarts => hq (hstarts.subset hp)

/-- Byte strings before the first mark are the same when one with its mark starts with the other.
It separates keys that both have the mark. -/
theorem eq_of_marked {p q : Bytes} {c : UInt8} (hq : c ∉ q) (h : p ++ [c] <+: q ++ [c]) :
    p = q := by
  rcases List.prefix_concat_iff.1 h with hsame | hstarts
  · exact List.append_cancel_right hsame
  · exact absurd hstarts
      (not_starts_of_not_mem (List.mem_append_right p (List.mem_singleton_self c)) hq)

/-- The mark that ends a name in a key.  It is no letter and no underscore. -/
def colon : UInt8 := 0x3a

/-- The mark in the starts of keys that buckets do not choose.  The starts of records come from a
name and a colon, and so they have no dot. -/
def dot : UInt8 := 0x2e

end Bytes

/-- A plain name holds neither mark.  Its bytes are those of its characters, as they are ASCII. -/
theorem IsPlainName.not_mem {name : String} (h : IsPlainName name) :
    Bytes.colon ∉ Bytes.ofText name ∧ Bytes.dot ∉ Bytes.ofText name := by
  have hplain : ∀ n < 128, (Char.ofNat n).isLower = true ∨ Char.ofNat n = '_' →
      ∀ b ∈ String.utf8EncodeChar (Char.ofNat n), b ≠ Bytes.colon ∧ b ≠ Bytes.dot := by
    decide +kernel
  have hbytes : ∀ b ∈ Bytes.ofText name, b ≠ Bytes.colon ∧ b ≠ Bytes.dot := by
    intro b hb
    rw [← String.ofList_toList (s := name), Bytes.ofText_ofList] at hb
    obtain ⟨c, hc, hbc⟩ := List.mem_flatMap.1 hb
    have hsmall : c.toNat < 128 := by
      rcases h c hc with hlower | rfl
      · have hle : c.val ≤ 'z'.val :=
          of_decide_eq_true ((Bool.and_eq_true _ _).mp hlower).2
        exact Nat.lt_of_le_of_lt (UInt32.le_iff_toNat_le.1 hle) (by decide)
      · decide
    rw [← Char.ofNat_toNat c] at hbc
    refine hplain c.toNat hsmall ?_ b hbc
    rw [Char.ofNat_toNat]
    exact h c hc
  exact ⟨fun hmem => (hbytes _ hmem).1 rfl, fun hmem => (hbytes _ hmem).2 rfl⟩

namespace Bucket

/-- The names of a bucket and of its indexes are plain, and no two indexes share one.  The names of
the buckets that the ledger uses are so, and it can be decided for any others. -/
structure Named (b : Bucket) : Prop where
  name : IsPlainName b.name
  indexes : ∀ index ∈ b.indexes, IsPlainName index.name
  distinct : b.indexNames.Nodup

/-- What all keys of entries start with.  No name has a part in it. -/
def entryStart : Bytes := Bytes.ofText "_i."

variable {b : Bucket}

/-! ### The starts of keys -/

theorem recordStart_eq (b : Bucket) : b.recordStart = Bytes.ofText b.name ++ [Bytes.colon] :=
  Bytes.ofText_append b.name ":"

theorem sequenceKey_eq (b : Bucket) :
    b.sequenceKey = Bytes.ofText "_s." ++ Bytes.ofText b.name :=
  Bytes.ofText_append "_s." b.name

/-- The start of the entries of an index: everything before the mark, and the mark.  In this form
the lemma on marked byte strings applies to it. -/
theorem indexStart_eq (b : Bucket) (index : String) :
    b.indexStart index
      = entryStart ++ (Bytes.ofText b.name ++ (Bytes.ofText "_"
        ++ (Bytes.ofText index ++ [Bytes.colon]))) := by
  unfold indexStart entryStart
  simp only [Bytes.ofText_append, List.append_assoc]
  rfl

/-- The key of the last number is no key of an entry.  They differ in their second byte. -/
theorem sequence_apart_entry (b : Bucket) : Bytes.Apart b.sequenceKey entryStart := by
  have hfixed : Bytes.Apart (Bytes.ofText "_s.") entryStart := by decide
  have happart := hfixed.append (Bytes.ofText b.name) []
  rwa [← sequenceKey_eq, List.append_nil] at happart

namespace Named

variable (h : b.Named)

include h

theorem dot_not_mem_recordStart : Bytes.dot ∉ b.recordStart := by
  rw [recordStart_eq, List.mem_append, List.mem_singleton]
  rintro (hname | hmark)
  · exact h.name.not_mem.2 hname
  · exact absurd hmark (by decide)

/-- The keys of records are no keys of entries, whatever the indexes are.  The starts of records
have no dot, and what all entries start with has no colon. -/
theorem record_apart_entry : Bytes.Apart b.recordStart entryStart := by
  constructor
  · rw [recordStart_eq]
    exact Bytes.not_starts_of_not_mem (List.mem_append_right _ (List.mem_singleton_self _))
      (by decide)
  · exact Bytes.not_starts_of_not_mem (c := Bytes.dot) (by decide) h.dot_not_mem_recordStart

/-- The keys of records are not the key of the last number.  The colon is missing in the one, and
the dot in the other. -/
theorem record_apart_sequence : Bytes.Apart b.recordStart b.sequenceKey := by
  constructor
  · rw [recordStart_eq, sequenceKey_eq]
    refine Bytes.not_starts_of_not_mem (c := Bytes.colon)
      (List.mem_append_right _ (List.mem_singleton_self _)) fun hmem => ?_
    rcases List.mem_append.1 hmem with hfixed | hname
    · exact absurd hfixed (by decide)
    · exact h.name.not_mem.1 hname
  · refine Bytes.not_starts_of_not_mem (c := Bytes.dot) ?_ h.dot_not_mem_recordStart
    rw [sequenceKey_eq]
    exact List.mem_append_left _ (by decide)

/-- Two indexes have no key in common.  Their names end at the mark, and different names make
different marked names. -/
theorem index_apart {x y : Index} (hx : x ∈ b.indexes) (hy : y ∈ b.indexes) (hne : x.name ≠ y.name) :
    Bytes.Apart (b.indexStart x.name) (b.indexStart y.name) := by
  have hnot : ∀ {x y : Index}, y ∈ b.indexes → x.name ≠ y.name →
      ¬ b.indexStart x.name <+: b.indexStart y.name := by
    intro x y hy hne hstarts
    simp only [indexStart_eq, List.prefix_append_right_inj] at hstarts
    exact hne (Bytes.ofText_inj.1 (Bytes.eq_of_marked (h.indexes y hy).not_mem.1 hstarts))
  exact ⟨hnot hy hne, hnot hx hne.symm⟩

/-- No key of the bucket can be taken for a key of another kind.  Every pair of groups is one of the
cases above. -/
theorem separated : b.Separated := by
  have hentry : ∀ q ∈ b.entryStarts b.indexes, ∃ rest, q = entryStart ++ rest := by
    intro q hq
    obtain ⟨index, -, rfl⟩ := List.mem_map.1 hq
    exact ⟨_, b.indexStart_eq index.name⟩
  refine List.pairwise_cons.2 ⟨fun q hq => ?_, List.pairwise_cons.2 ⟨fun q hq => ?_, ?_⟩⟩
  · rcases List.mem_cons.1 hq with rfl | hq
    · exact h.record_apart_sequence
    · obtain ⟨rest, rfl⟩ := hentry q hq
      simpa using h.record_apart_entry.append [] rest
  · obtain ⟨rest, rfl⟩ := hentry q hq
    simpa using (sequence_apart_entry b).append [] rest
  · have hdistinct : b.indexes.Pairwise fun x y => x.name ≠ y.name :=
      List.pairwise_map.1 h.distinct
    exact List.pairwise_map.2
      (hdistinct.imp_of_mem fun hx hy hne => h.index_apart hx hy hne)

end Named

end Bucket

end BlogLedger
