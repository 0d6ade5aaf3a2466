import BlogLedger.Proofs.Json.Stored
import Mathlib.Data.List.Nodup

/-!
# Ascending lists of record numbers

The list under an index value is strictly ascending, so it is determined by its members.  That makes
two stores equal byte for byte as soon as their indexes list the same records.

The search of a list is binary and trusts the order.  That it finds exactly the members, and otherwise
the one place that keeps the order, is shown once here; everything about indexes goes through
`IdList.Lists` and never looks at the search again.

## Main Definitions

* `IdList.Brackets` — where in a list the smaller numbers end and the larger ones begin.
* `IdList.Lists` — an ascending list of exactly the record numbers with a property.
* `IdList.stored?` — what stands in the store for a list, where an empty list has no entry.

## Main Results

* `IdList.search_cases` — a search in an ascending list is right.
* `IdList.Lists.insert`, `IdList.Lists.remove?` — a number is added and taken out.
* `IdList.Lists.unique` — a property has one list at most.
-/

namespace BlogLedger

theorem RecordId.lt_iff {a b : RecordId} : a < b ↔ a.number.toNat < b.number.toNat :=
  UInt64.lt_iff_toNat_lt

theorem RecordId.lt_irrefl (a : RecordId) : ¬ a < a := by
  rw [lt_iff]
  exact Nat.lt_irrefl _

theorem RecordId.lt_trans {a b c : RecordId} (hab : a < b) (hbc : b < c) : a < c := by
  rw [lt_iff] at *
  exact Nat.lt_trans hab hbc

theorem RecordId.lt_of_not_lt_of_ne {a b : RecordId} (hlt : ¬ a < b) (hne : a ≠ b) : b < a := by
  have hnumber : a.number.toNat ≠ b.number.toNat := by
    intro h
    apply hne
    cases a
    cases b
    exact congrArg RecordId.mk (UInt64.toNat_inj.1 h)
  rw [lt_iff] at *
  omega

namespace IdList

/-- The list is strictly ascending and holds exactly the record numbers with the property.  Both are
needed: without the order a number that is listed need not be found. -/
structure Lists (ids : IdList) (p : RecordId → Prop) : Prop where
  ascending : ids.Pairwise (· < ·)
  mem_iff : ∀ id, id ∈ ids ↔ p id

variable {ids : IdList} {id : RecordId} {base size stop middle place : Nat}

/-! ### The search

While a search halves an ascending list, the numbers before the half that is left are smaller than the
one that is sought, and those behind it are larger.  Both steps keep that, and when one place is left
it says where the number belongs.  The search itself never asks whether the list is ascending. -/

/-- The numbers before `base` are smaller, and those from `stop` on are larger.  It is the invariant
of a search: between the two nothing has been compared yet. -/
structure Brackets (ids : IdList) (id : RecordId) (base stop : Nat) : Prop where
  below : ∀ i (h : i < ids.length), i < base → ids[i] < id
  above : ∀ i (h : i < ids.length), stop ≤ i → id < ids[i]

/-- A half that begins with a larger number is dropped.  That number itself may stay: an odd list has
one more place than two halves. -/
theorem Brackets.lower (h : Brackets ids id base stop) (hids : ids.Pairwise (· < ·))
    (hmiddle : middle < ids.length) (hlarger : id < ids[middle]) {stop' : Nat}
    (hstop : middle ≤ stop') : Brackets ids id base stop' where
  below := h.below
  above i hi hle := by
    rcases Nat.eq_or_lt_of_le (hstop.trans hle) with rfl | hlt
    · exact hlarger
    · exact RecordId.lt_trans hlarger (List.pairwise_iff_getElem.1 hids middle i hmiddle hi hlt)

/-- A half that begins with no larger number is kept, also if the number is found at its beginning. -/
theorem Brackets.upper (h : Brackets ids id base stop) (hids : ids.Pairwise (· < ·))
    (hmiddle : middle < ids.length) (hnot : ¬ id < ids[middle]) : Brackets ids id middle stop where
  above := h.above
  below i hi hlt := by
    have hlower := List.pairwise_iff_getElem.1 hids i middle hi hmiddle hlt
    rw [RecordId.lt_iff] at *
    omega

theorem any_getElem? (hmiddle : middle < ids.length) :
    ids[middle]?.any (id < ·) = true ↔ id < ids[middle] := by
  rw [List.getElem?_eq_getElem hmiddle, Option.any_some, decide_eq_true_iff]

/-- A search ends at a place of the list, so that it is allowed to look at the number there. -/
theorem narrow_lt (hsize : 0 < size) (hstop : base + size ≤ ids.length) :
    narrow id ids base size < ids.length := by
  fun_induction narrow id ids base size with
  | case1 base size hmore middle hlarger ih => exact ih (by omega) (by omega)
  | case2 base size hmore middle hnot ih => exact ih (by omega) (by omega)
  | case3 base size hone => omega

/-- A search in an ascending list ends with one place between the smaller and the larger numbers.
The induction is on the size of what is left, as the search halves it; each step is one of the two
cases above. -/
theorem Brackets.narrow (h : Brackets ids id base (base + size)) (hids : ids.Pairwise (· < ·))
    (hsize : 0 < size) (hstop : base + size ≤ ids.length) :
    Brackets ids id (narrow id ids base size) (narrow id ids base size + 1) := by
  fun_induction IdList.narrow id ids base size with
  | case1 base size hmore middle hlarger ih =>
    have hmiddle : middle < ids.length := by omega
    exact ih (h.lower hids hmiddle ((any_getElem? hmiddle).1 hlarger) (by omega)) (by omega) (by omega)
  | case2 base size hmore middle hnot ih =>
    have hmiddle : middle < ids.length := by omega
    have hupper := h.upper hids hmiddle (mt (any_getElem? hmiddle).2 hnot)
    have hend : middle + (size - size / 2) = base + size := by omega
    exact ih (hend ▸ hupper) (by omega) (by omega)
  | case3 base size hone =>
    obtain rfl : size = 1 := by omega
    exact h

/-- A search in an ascending list finds the number, or the place between the smaller and the larger
numbers.  It is all that is ever used of a search. -/
theorem search_cases (hids : ids.Pairwise (· < ·)) (id : RecordId) :
    (∃ place, ∃ h : place < ids.length, search id ids = .taken place ∧ ids[place] = id) ∨
      ∃ place, search id ids = .free place ∧ place ≤ ids.length ∧ Brackets ids id place place := by
  have hinit : Brackets ids id 0 (0 + ids.length) :=
    ⟨fun i _ hi => absurd hi (Nat.not_lt_zero i), fun i hi hle => by omega⟩
  rcases Nat.eq_zero_or_pos ids.length with hempty | hpos
  · obtain rfl : ids = [] := List.length_eq_zero_iff.1 hempty
    exact .inr ⟨0, by simp [search, narrow], Nat.le_refl 0, hinit⟩
  have hlast : narrow id ids 0 ids.length < ids.length := narrow_lt hpos (by omega)
  obtain ⟨hbelow, habove⟩ := hinit.narrow hids hpos (by omega)
  unfold search
  generalize narrow id ids 0 ids.length = last at *
  dsimp only
  rw [List.getElem?_eq_getElem hlast]
  dsimp only
  by_cases heq : ids[last] = id
  · exact .inl ⟨last, hlast, if_pos heq, heq⟩
  refine .inr ?_
  rw [if_neg heq]
  -- The number belongs behind the place that is left, or it takes that place.
  by_cases hlt : ids[last] < id
  · refine ⟨last + 1, if_pos hlt, hlast, fun i hi hle => ?_, habove⟩
    rcases Nat.lt_succ_iff_lt_or_eq.1 hle with hless | rfl
    · exact hbelow i hi hless
    · exact hlt
  · refine ⟨last, if_neg hlt, hlast.le, hbelow, fun i hi hle => ?_⟩
    rcases Nat.eq_or_lt_of_le hle with rfl | hmore
    · exact RecordId.lt_of_not_lt_of_ne hlt heq
    · exact habove i hi hmore

theorem insertIdx_eq (h : place ≤ ids.length) (id : RecordId) :
    ids.insertIdx place id = ids.take place ++ id :: ids.drop place := by
  induction place generalizing ids with
  | zero => rfl
  | succ place ih =>
    cases ids with
    | nil => cases h
    | cons first rest =>
      rw [List.insertIdx_succ_cons, ih (Nat.le_of_succ_le_succ h)]
      rfl

theorem Brackets.not_mem (h : Brackets ids id place place) : id ∉ ids := by
  intro hmem
  obtain ⟨i, hi, heq⟩ := List.getElem_of_mem hmem
  rcases Nat.lt_or_ge i place with hlt | hge
  · exact RecordId.lt_irrefl id (heq ▸ h.below i hi hlt)
  · exact RecordId.lt_irrefl id (heq ▸ h.above i hi hge)

/-- A number put between the smaller and the larger ones leaves the list ascending.  For this it
must not be in the list, which is part of the condition. -/
theorem Brackets.ascending (h : Brackets ids id place place) (hids : ids.Pairwise (· < ·)) :
    (ids.take place ++ id :: ids.drop place).Pairwise (· < ·) := by
  have hlower : ∀ other ∈ ids.take place, other < id := by
    intro other hother
    obtain ⟨i, hi, rfl⟩ := List.mem_take_iff_getElem.1 hother
    exact h.below i (by omega) (by omega)
  have hupper : ∀ other ∈ ids.drop place, id < other := by
    intro other hother
    obtain ⟨i, hi, rfl⟩ := List.mem_drop_iff_getElem.1 hother
    exact h.above (place + i) (by omega) (by omega)
  refine List.pairwise_append.2 ⟨hids.sublist (List.take_sublist _ _),
    List.pairwise_cons.2 ⟨hupper, hids.sublist (List.drop_sublist _ _)⟩, fun x hx y hy => ?_⟩
  rcases List.mem_cons.1 hy with rfl | hy
  · exact hlower x hx
  · exact RecordId.lt_trans (hlower x hx) (hupper y hy)

theorem mem_insert {other : RecordId} (hids : ids.Pairwise (· < ·)) :
    other ∈ insert id ids ↔ other = id ∨ other ∈ ids := by
  unfold insert
  rcases search_cases hids id with ⟨place, hplace, hsearch, hfound⟩ | ⟨place, hsearch, hplace, -⟩
  · have hmem : id ∈ ids := hfound ▸ List.getElem_mem hplace
    rw [hsearch]
    exact (or_iff_right_of_imp fun h => h ▸ hmem).symm
  · rw [hsearch]
    exact List.mem_insertIdx hplace

theorem ascending_insert (id : RecordId) (hids : ids.Pairwise (· < ·)) :
    (insert id ids).Pairwise (· < ·) := by
  unfold insert
  rcases search_cases hids id with ⟨place, -, hsearch, -⟩ | ⟨place, hsearch, hplace, hbrackets⟩
  · rw [hsearch]
    exact hids
  · rw [hsearch]
    dsimp only
    rw [insertIdx_eq hplace]
    exact hbrackets.ascending hids

theorem nodup_of_ascending {ids : IdList} (h : ids.Pairwise (· < ·)) : ids.Nodup := by
  apply h.imp
  intro a b hlt he
  subst he
  exact RecordId.lt_irrefl a hlt

namespace Lists

variable {ids : IdList} {p q : RecordId → Prop}

theorem congr (h : Lists ids p) (hpq : ∀ id, p id ↔ q id) : Lists ids q :=
  ⟨h.ascending, fun id => (h.mem_iff id).trans (hpq id)⟩

/-- A property has one list at most.  So what stands in the store is determined by the records,
whatever was inserted and taken out before. -/
theorem unique {ids' : IdList} (h : Lists ids p) (h' : Lists ids' p) : ids = ids' := by
  have hperm : ids.Perm ids' :=
    (List.perm_ext_iff_of_nodup (nodup_of_ascending h.ascending)
      (nodup_of_ascending h'.ascending)).2 fun id => (h.mem_iff id).trans (h'.mem_iff id).symm
  refine hperm.eq_of_pairwise (fun a b _ _ hab hba => ?_) h.ascending h'.ascending
  exact absurd (RecordId.lt_trans hab hba) (RecordId.lt_irrefl a)

theorem eq_nil_iff (h : Lists ids p) : ids = [] ↔ ∀ id, ¬ p id := by
  rw [List.eq_nil_iff_forall_not_mem]
  exact forall_congr' fun id => not_congr (h.mem_iff id)

/-- Adding a number, which may be there already.  Then the list is the same, and so is the property. -/
theorem insert (h : Lists ids p) (id : RecordId) :
    Lists (IdList.insert id ids) fun other => other = id ∨ p other :=
  ⟨ascending_insert id h.ascending, fun other => by rw [mem_insert h.ascending, h.mem_iff]⟩

/-- Taking out a number that is listed.  It is there once, so it does not matter that only one is
erased. -/
theorem remove? (h : Lists ids p) {id : RecordId} (hid : p id) :
    IdList.remove? id ids = some (ids.erase id)
      ∧ Lists (ids.erase id) fun other => other ≠ id ∧ p other := by
  have hnodup := nodup_of_ascending h.ascending
  refine ⟨?_, h.ascending.sublist List.erase_sublist, fun other => ?_⟩
  · unfold IdList.remove?
    rcases search_cases h.ascending id with ⟨place, hplace, hsearch, rfl⟩ | ⟨_, -, -, hbrackets⟩
    · rw [hsearch, hnodup.erase_getElem place hplace]
    · exact absurd ((h.mem_iff id).2 hid) hbrackets.not_mem
  · rw [hnodup.mem_erase_iff, h.mem_iff]

end Lists

-- The search relies on the order.  Where there is none, a number goes to the wrong place, and one that
-- is there may not be found.
example : IdList.insert ⟨2⟩ [⟨3⟩, ⟨1⟩] = [⟨3⟩, ⟨1⟩, ⟨2⟩] := by decide +kernel
example : IdList.remove? ⟨2⟩ [⟨2⟩, ⟨1⟩] = none := by decide +kernel

/-- What stands in the store for a list; an empty list has no entry.  The key of a value is deleted
with its last record. -/
def stored? (ids : IdList) : Option Bytes :=
  if ids = [] then none else some ids.encode

@[simp] theorem stored?_nil : stored? [] = none := rfl

theorem stored?_of_ne_nil {ids : IdList} (h : ids ≠ []) : ids.stored? = some ids.encode :=
  if_neg h

end IdList

end BlogLedger
