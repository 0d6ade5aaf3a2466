import BlogLedger.Json.Fields
import BlogLedger.Proofs.Json.RoundTrip

/-!
# Structures that are read back

The fields of a structure are found again under their names, and the alternative of a tagged one is
told from its tag.

What is stored as a structure may have its members left out, and a reader looks them up by name.  So
a structure reads back if its members are found under their names, and for this no name may occur
twice.  A tagged value carries its tag among the members, and its reader takes the tag out first.
The members keep their order, which the reader of members without names would need.

## Main Definitions

* `Json.IsScalar` — a readable value without parts.

## Main Results

* `Json.fields?_ofMembers` — the members of a structure are its fields.
* `Json.tagged?_ofMembers` — a tag and the members after it are taken apart again.
-/

namespace BlogLedger.Json

@[simp] theorem text?_ofText (text : String) : (ofText text).text? = some text := by
  simp [ofText, text?]

@[simp] theorem uint64?_ofNat (word : UInt64) : (ofNat word.toNat).uint64? = some word := by
  simp [ofNat, uint64?]

@[simp] theorem int64?_ofInt (word : Int64) : (ofInt word.toInt).int64? = some word := by
  simp [ofInt, int64?]

/-! ### Members by name -/

theorem namedMembers?_map (members : List (String × Json)) :
    namedMembers? (members.map fun m => (Text.escape (Bytes.ofText m.1), m.2)) = some members := by
  rw [namedMembers?, List.mapM_map]
  induction members with
  | nil => rfl
  | cons m rest ih => simp [List.mapM_cons, ih]

/-- The members of a structure are its fields, when no name occurs twice.  A repeated name is
refused, and for a structure that is written it never occurs. -/
theorem fields?_ofMembers {names : List String} {members : List (String × Json)}
    (h : unrepeated names members = true) : (ofMembers members).fields? names = some members := by
  simp [ofMembers, fields?, namedMembers?_map, h]

/-! ### Tags -/

/-- A value without parts that can be read.  Around such a value no depth is used up, and so it can
be a member at any depth. -/
structure IsScalar (j : Json) : Prop where
  height : j.height = 0
  readable : j.readable = true

@[simp] theorem isScalar_ofText (text : String) : (ofText text).IsScalar := by
  refine ⟨rfl, ?_⟩
  simp [ofText, readable]

theorem isScalar_ofInt {i : Int} (h : i.natAbs < UInt64.size) : (ofInt i).IsScalar := by
  refine ⟨rfl, ?_⟩
  rw [ofInt, readable]
  exact Number.fitsDouble_ofInt h

@[simp] theorem isScalar_ofNat_toNat (word : UInt64) : (ofNat word.toNat).IsScalar := by
  show (ofInt (word.toNat : Int)).IsScalar
  exact isScalar_ofInt word.toNat_lt_size

@[simp] theorem isScalar_ofInt_toInt (word : Int64) : (ofInt word.toInt).IsScalar := by
  have hlow := word.minValue_le_toInt
  have hhigh := word.toInt_le
  refine isScalar_ofInt ?_
  simp only [UInt64.size, Int64.toInt_minValue, Int64.toInt_maxValue] at *
  omega

theorem heightMembers_of_scalar {members : List (Bytes × Json)}
    (h : ∀ m ∈ members, m.2.IsScalar) : heightMembers members = 0 := by
  induction members with
  | nil => rfl
  | cons m rest ih =>
    have hm := (h m List.mem_cons_self).height
    have hrest := ih fun n hn => h n (List.mem_cons_of_mem _ hn)
    rw [heightMembers, hm, hrest]
    rfl

theorem readableMembers_of_scalar {members : List (String × Json)}
    (h : ∀ m ∈ members, m.2.IsScalar) :
    readableMembers (members.map fun m => (Text.escape (Bytes.ofText m.1), m.2)) = true := by
  induction members with
  | nil => rfl
  | cons m rest ih =>
    have hm := (h m List.mem_cons_self).readable
    have hrest := ih fun n hn => h n (List.mem_cons_of_mem _ hn)
    simp [readableMembers, hm, hrest]

/-- A tag and the members after it are taken apart again.  The values must be without parts, since a
tagged value is read with a bound on its depth. -/
theorem tagged?_ofMembers {tag kind : String} {members : List (String × Json)} {around : Nat}
    (hscalar : ∀ m ∈ members, m.2.IsScalar) (htag : ∀ m ∈ members, m.1 ≠ tag)
    (haround : around < maxHeight) :
    (ofMembers ((tag, ofText kind) :: members)).tagged? tag around
      = some (kind, ofMembers members) := by
  have hall : ∀ m ∈ (tag, ofText kind) :: members, m.2.IsScalar :=
    List.forall_mem_cons.2 ⟨isScalar_ofText kind, hscalar⟩
  have hheight : (ofMembers ((tag, ofText kind) :: members)).height = 1 := by
    rw [ofMembers, height, heightMembers_of_scalar]
    rw [List.forall_mem_map]
    exact hall
  have hreadable : (ofMembers ((tag, ofText kind) :: members)).readable = true := by
    rw [ofMembers, readable]
    exact readableMembers_of_scalar hall
  have hnone : members.filter (fun m => m.1 = tag) = [] := by
    simpa [List.filter_eq_nil_iff] using htag
  have hrest : members.filter (fun m => !decide (m.1 = tag)) = members := by
    simpa [List.filter_eq_self] using htag
  have hfilter : (members.map fun m => (Text.escape (Bytes.ofText m.1), m.2)).filter
      (fun m => !decide (lexemeText? m.1 = some tag))
        = members.map fun m => (Text.escape (Bytes.ofText m.1), m.2) := by
    rw [List.filter_map]
    simp only [Function.comp_def, lexemeText?_escape, Option.some.injEq, hrest]
  have hnamed := namedMembers?_map ((tag, ofText kind) :: members)
  rw [List.map_cons] at hnamed
  have hfits : ¬ maxHeight < 1 + around := by omega
  unfold tagged?
  rw [hheight, hreadable]
  simp only [hfits, decide_false, Bool.not_true, Bool.or_self, Bool.false_eq_true, if_false]
  rw [ofMembers]
  simp [hnamed, hnone, hfilter, ofMembers]

end BlogLedger.Json
