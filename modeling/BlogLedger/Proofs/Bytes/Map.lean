import BlogLedger.Bytes.Map

/-!
# Maps are determined by their look-ups

The entries of a map are in strictly ascending order, so a map holds a pair exactly when looking up
its key gives its value, and two maps that answer every look-up alike are one map.

Two stores are compared by looking up keys, and it is this fact which makes them equal as data.
Equality of stores is what later answers are compared by.

## Main Results

* `ByteMap.mem_entries_iff` — membership among the entries and look-up.
* `ByteMap.ext_find?` — maps with equal look-ups are equal.
-/

namespace BlogLedger.ByteMap

variable {β : Type}

theorem lookup_eq_none_of_forall_lt {key : Bytes} {entries : List (Bytes × β)}
    (h : ∀ e ∈ entries, key < e.1) : lookup key entries = none := by
  induction entries with
  | nil => rfl
  | cons head rest ih =>
    have hne : head.1 ≠ key := fun e => List.lt_irrefl key (e ▸ h head List.mem_cons_self)
    simp only [lookup, if_neg hne]
    exact ih fun e he => h e (List.mem_cons_of_mem _ he)

theorem mem_iff_lookup {key : Bytes} {value : β} {entries : List (Bytes × β)}
    (h : Ascending entries) : (key, value) ∈ entries ↔ lookup key entries = some value := by
  induction entries with
  | nil => simp [lookup]
  | cons head rest ih =>
    obtain ⟨k, v⟩ := head
    obtain ⟨hhead, hrest⟩ := List.pairwise_cons.1 h
    by_cases hk : k = key
    · subst hk
      have hnot : (k, value) ∉ rest := fun he => List.lt_irrefl k (hhead _ he)
      simp [lookup, hnot, eq_comm]
    · have hne : (key, value) ≠ (k, v) := fun e => hk (congrArg Prod.fst e).symm
      simp [lookup, hk, hne, ih hrest]

/-- A map holds a pair exactly when looking up the key gives the value.  No key occurs twice in the
entries. -/
theorem mem_entries_iff {m : ByteMap β} {key : Bytes} {value : β} :
    (key, value) ∈ m.entries ↔ m.find? key = some value :=
  mem_iff_lookup m.ascending

theorem ascending_nodup {entries : List (Bytes × β)} (h : Ascending entries) : entries.Nodup := by
  apply h.imp
  intro a b hlt he
  subst he
  exact List.lt_irrefl a.1 hlt

/-- Two ascending lists with the same members are one list.  The order leaves no choice where a
member stands. -/
theorem eq_of_mem_iff {l₁ l₂ : List (Bytes × β)} (h₁ : Ascending l₁) (h₂ : Ascending l₂)
    (h : ∀ e, e ∈ l₁ ↔ e ∈ l₂) : l₁ = l₂ := by
  have hperm : l₁.Perm l₂ :=
    (List.perm_ext_iff_of_nodup (ascending_nodup h₁) (ascending_nodup h₂)).2 h
  refine hperm.eq_of_pairwise (fun a b _ _ hab hba => ?_) h₁ h₂
  exact absurd (List.lt_trans hab hba) (List.lt_irrefl _)

/-- Maps that answer every look-up alike are equal.  The proof that the entries ascend is a
proposition and makes no difference. -/
theorem ext_find? {m n : ByteMap β} (h : ∀ key, m.find? key = n.find? key) : m = n := by
  refine ext (eq_of_mem_iff m.ascending n.ascending ?_)
  rintro ⟨key, value⟩
  rw [mem_entries_iff, mem_entries_iff, h]

end BlogLedger.ByteMap
