import BlogLedger.Proofs.Bytes.Order
import BlogLedger.Proofs.KeySpace.Family
import Mathlib.Logic.Function.Basic

/-!
# Numbered tables

Every collection of the ledger numbers what it holds from one and remembers the last number given
out.  A table is that without bytes; it stands in a key space as one key a row, and one key for the
last number.

Users, blogs, articles and tasks are kept by different code, but they have this in common.  What is
shown of rows and numbers here is not shown again for each of them.  A table need not be numbered
when a store was not written by the ledger, so this is a hypothesis where it is used.

## Main Definitions

* `Table` — rows by number, and the last number given out.
* `Table.add`, `Table.put`, `Table.drop` — a row comes, is exchanged, and goes.
* `Table.spend` — a number is used up without a row.
* `Table.Numbered` — every row has a number that was given out.
* `KeySpace.Rows`, `KeySpace.Single` — how rows and a single value stand in a key space.
-/

namespace BlogLedger

/-- Rows by number, and the last number given out; it is zero when none was.  The last number is
kept apart from the rows, since it stays when the row is removed. -/
structure Table (α : Type) where
  row : UInt64 → Option α
  last : UInt64

/-- The number after a number that is not the last 64-bit one.  Numbers wrap around, and this is
where it is excluded. -/
theorem toNat_add_one {n : UInt64} (h : n + 1 ≠ 0) : (n + 1).toNat = n.toNat + 1 := by
  have hbound := n.toNat_lt
  have hsum : (n + 1).toNat = (n.toNat + 1) % 2 ^ 64 := UInt64.toNat_add _ _
  have hne : (n + 1).toNat ≠ 0 := fun hz => h (UInt64.toNat_inj.1 hz)
  omega

/-- Only after the last 64-bit number comes zero.  So there is a number left unless the last one was
given out. -/
theorem add_one_ne_zero_iff {n : UInt64} :
    n + 1 ≠ 0 ↔ n ≠ UInt64.ofNat (UInt64.size - 1) := by
  have hbound := n.toNat_lt
  have hsum : (n + 1).toNat = (n.toNat + 1) % 2 ^ 64 := UInt64.toNat_add _ _
  have hnat : (UInt64.ofNat (UInt64.size - 1)).toNat = 2 ^ 64 - 1 := by decide
  have hzero : (0 : UInt64).toNat = 0 := rfl
  rw [ne_eq, ne_eq, ← UInt64.toNat_inj, ← UInt64.toNat_inj, hsum, hnat, hzero]
  omega

namespace Table

variable {α β : Type}

/-- The table without rows, of which no number was given out. -/
def empty : Table α := ⟨fun _ => none, 0⟩

/-- The number that the next row will have. -/
def next (t : Table α) : UInt64 := t.last + 1

/-- Put a row under a number.  The last number stays, also when the number is a new one. -/
def put (t : Table α) (n : UInt64) (a : α) : Table α :=
  { t with row := Function.update t.row n (some a) }

/-- Remove the row of a number. -/
def drop (t : Table α) (n : UInt64) : Table α :=
  { t with row := Function.update t.row n none }

/-- Remove the rows of numbers.  They are removed one after the other, as a turn of the clock does. -/
def dropAll (t : Table α) (numbers : List UInt64) : Table α := numbers.foldl drop t

/-- Put a row under the next number. -/
def add (t : Table α) (a : α) : Table α :=
  ⟨Function.update t.row t.next (some a), t.next⟩

/-- The same rows after the next number was used up.  It is what remains of a row that came and
went. -/
def spend (t : Table α) : Table α := { t with last := t.next }

/-- The same table with other rows.  The tables of a snapshot have rows of one kind, and those of a
bucket have records of any kind. -/
def map (f : α → β) (t : Table α) : Table β :=
  ⟨fun n => (t.row n).map f, t.last⟩

/-- The bytes of the last number, if one was given out.  Before that no bytes are stored. -/
def lastBytes (t : Table α) : Option Bytes :=
  if t.last = 0 then none else some (Bytes.big64 t.last)

/-- The bytes of the rows. -/
def rowBytes (encode : α → Bytes) (t : Table α) (n : UInt64) : Option Bytes :=
  (t.row n).map encode

/-- Every row has a number that was given out, and zero never is.  So the next number has no row. -/
def Numbered (t : Table α) : Prop :=
  ∀ n a, t.row n = some a → n ≠ 0 ∧ n ≤ t.last

/-- Every row has a property. -/
def All (p : α → Prop) (t : Table α) : Prop :=
  ∀ n a, t.row n = some a → p a

/-- There is a number left to give out.  Numbers wrap around, so the next one would be zero
otherwise. -/
def HasNext (t : Table α) : Prop := t.next ≠ 0

/-! ### Rows after a change -/

theorem row_put (t : Table α) (n m : UInt64) (a : α) :
    (t.put n a).row m = if m = n then some a else t.row m := by
  simp only [put, Function.update_apply]

theorem row_drop (t : Table α) (n m : UInt64) :
    (t.drop n).row m = if m = n then none else t.row m := by
  simp only [drop, Function.update_apply]

/-- Removing a row that is not there changes nothing. -/
theorem drop_of_none {t : Table α} {n : UInt64} (h : t.row n = none) : t.drop n = t := by
  unfold drop
  rw [Function.update_eq_self_iff.2 h.symm]

theorem row_dropAll_eq_some_iff {t : Table α} {numbers : List UInt64} {m : UInt64} {a : α} :
    (t.dropAll numbers).row m = some a ↔ t.row m = some a ∧ m ∉ numbers := by
  induction numbers generalizing t with
  | nil => simp [dropAll]
  | cons n rest ih =>
    show ((t.drop n).dropAll rest).row m = some a ↔ _
    rw [ih, row_drop]
    by_cases hn : m = n <;> simp [hn]

theorem row_add (t : Table α) (a : α) (m : UInt64) :
    (t.add a).row m = if m = t.next then some a else t.row m := by
  simp only [add, Function.update_apply]

theorem row_add_next (t : Table α) (a : α) : (t.add a).row t.next = some a :=
  Function.update_self _ _ _

/-- A row after a new one came is the new one or an old one. -/
theorem row_add_eq_some {t : Table α} {a b : α} {n : UInt64} (h : (t.add a).row n = some b) :
    n = t.next ∧ b = a ∨ t.row n = some b := by
  rw [row_add] at h
  split at h
  · next hn => exact .inl ⟨hn, (Option.some.inj h).symm⟩
  · exact .inr h

@[simp] theorem next_map (f : α → β) (t : Table α) : (t.map f).next = t.next := rfl

@[simp] theorem row_map (f : α → β) (t : Table α) (n : UInt64) :
    (t.map f).row n = (t.row n).map f := rfl

/-- Rows that are left out one after the other are left out together.  It is the step for tables
from which several rows are left out. -/
theorem row_without (t : Table α) {k : UInt64} {p q : UInt64 → Prop} [DecidablePred p]
    [DecidablePred q] (h : ∀ n, p n ↔ n = k ∨ q n) :
    (fun n => if p n then none else t.row n)
      = fun n => if q n then none else (t.drop k).row n := by
  funext n
  rw [row_drop]
  by_cases hn : n = k
  · rw [if_pos ((h n).2 (.inl hn)), if_pos hn, ite_self]
  · rw [if_neg hn]
    exact if_congr ((h n).trans (or_iff_right hn)) rfl rfl

theorem ext {s t : Table α} (hrow : ∀ n, s.row n = t.row n) (hlast : s.last = t.last) : s = t := by
  cases s
  cases t
  cases hlast
  exact congrArg (Table.mk · _) (funext hrow)

theorem map_put (f : α → β) (t : Table α) (n : UInt64) (a : α) :
    (t.put n a).map f = (t.map f).put n (f a) := by
  refine ext (fun m => ?_) rfl
  rw [row_map, row_put, row_put, row_map]
  split <;> rfl

theorem map_drop (f : α → β) (t : Table α) (n : UInt64) :
    (t.drop n).map f = (t.map f).drop n := by
  refine ext (fun m => ?_) rfl
  rw [row_map, row_drop, row_drop, row_map]
  split <;> rfl

theorem map_add (f : α → β) (t : Table α) (a : α) : (t.add a).map f = (t.map f).add (f a) := by
  refine ext (fun m => ?_) rfl
  rw [row_map, row_add, row_add, row_map, next_map]
  split <;> rfl

/-- A new row that is put anew.  This is as if it had been added as it is now. -/
theorem put_add (t : Table α) (a b : α) : (t.add a).put t.next b = t.add b := by
  refine ext (fun m => ?_) rfl
  rw [row_put, row_add, row_add]
  split <;> rfl

/-! ### Numbers -/

theorem last_lt_next {t : Table α} (h : t.HasNext) : t.last < t.next := by
  unfold next
  rw [UInt64.lt_iff_toNat_lt, toNat_add_one h]
  exact Nat.lt_succ_self _

namespace Numbered

variable {t : Table α}

theorem empty : (Table.empty : Table α).Numbered := by
  intro n a h
  cases h

/-- No row has a number that was not given out yet.  So a new row takes the place of no other. -/
theorem row_next (h : t.Numbered) (hnext : t.HasNext) : t.row t.next = none := by
  cases hrow : t.row t.next with
  | none => rfl
  | some a => exact absurd (h _ a hrow).2 (UInt64.not_le.2 (last_lt_next hnext))

theorem ne_next (h : t.Numbered) (hnext : t.HasNext) {n : UInt64} {a : α}
    (hrow : t.row n = some a) : n ≠ t.next := by
  rintro rfl
  rw [h.row_next hnext] at hrow
  cases hrow

/-- A new row leaves the old ones as they are. -/
theorem row_add_of_row (h : t.Numbered) (hnext : t.HasNext) {n : UInt64} {a : α}
    (hrow : t.row n = some a) (b : α) : (t.add b).row n = some a := by
  rw [Table.row_add, if_neg (h.ne_next hnext hrow)]
  exact hrow

/-- A new row that is removed again leaves its number used up.  Nothing else of it is left. -/
theorem drop_add (h : t.Numbered) (hnext : t.HasNext) (a : α) :
    (t.add a).drop t.next = t.spend := by
  refine ext (fun n => ?_) rfl
  rw [row_drop, row_add]
  by_cases hn : n = t.next
  · rw [if_pos hn, hn]
    exact (h.row_next hnext).symm
  · rw [if_neg hn, if_neg hn]
    rfl

theorem put (h : t.Numbered) {n : UInt64} {old : α} (hrow : t.row n = some old) (a : α) :
    (t.put n a).Numbered := by
  intro m b hm
  rw [row_put] at hm
  split at hm
  · next hmn => rw [hmn]; exact h n old hrow
  · exact h m b hm

theorem drop (h : t.Numbered) (n : UInt64) : (t.drop n).Numbered := by
  intro m b hm
  rw [row_drop] at hm
  split at hm
  · cases hm
  · exact h m b hm

theorem add (h : t.Numbered) (hnext : t.HasNext) (a : α) : (t.add a).Numbered := by
  intro m b hm
  rw [row_add] at hm
  split at hm
  · next hmn =>
    rw [hmn]
    exact ⟨hnext, UInt64.le_refl _⟩
  · obtain ⟨hzero, hle⟩ := h m b hm
    exact ⟨hzero, UInt64.le_of_lt (UInt64.lt_of_le_of_lt hle (last_lt_next hnext))⟩

theorem map (h : t.Numbered) {β : Type} (f : α → β) : (t.map f).Numbered := by
  intro n b hrow
  obtain ⟨a, ha, -⟩ := Option.map_eq_some_iff.1 hrow
  exact h n a ha

end Numbered

/-! ### Properties of rows -/

namespace All

variable {p : α → Prop} {t : Table α}

theorem empty : (Table.empty : Table α).All p := by
  intro n a h
  cases h

theorem put (h : t.All p) (n : UInt64) {a : α} (ha : p a) : (t.put n a).All p := by
  intro m b hm
  rw [row_put] at hm
  split at hm
  · cases hm
    exact ha
  · exact h m b hm

theorem drop (h : t.All p) (n : UInt64) : (t.drop n).All p := by
  intro m b hm
  rw [row_drop] at hm
  split at hm
  · cases hm
  · exact h m b hm

theorem add (h : t.All p) {a : α} (ha : p a) : (t.add a).All p := by
  intro m b hm
  rw [row_add] at hm
  split at hm
  · cases hm
    exact ha
  · exact h m b hm

end All

/-! ### Bytes -/

theorem rowBytes_eq_some_iff {encode : α → Bytes} {t : Table α} {n : UInt64} {bytes : Bytes} :
    t.rowBytes encode n = some bytes ↔ ∃ a, t.row n = some a ∧ encode a = bytes :=
  Option.map_eq_some_iff

theorem lastBytes_eq_some_iff {t : Table α} {bytes : Bytes} :
    t.lastBytes = some bytes ↔ t.last ≠ 0 ∧ Bytes.big64 t.last = bytes := by
  unfold lastBytes
  by_cases hlast : t.last = 0 <;> simp [hlast]

/-- There is a number left to give out unless the bytes of the last one are the highest.  With it
the condition can be read off a store. -/
theorem hasNext_iff {t : Table α} :
    t.HasNext ↔ t.lastBytes ≠ some (Bytes.big64 (UInt64.ofNat (UInt64.size - 1))) := by
  have hmax : UInt64.ofNat (UInt64.size - 1) ≠ 0 := by decide
  unfold HasNext next
  rw [add_one_ne_zero_iff, ne_eq, ne_eq, lastBytes_eq_some_iff, Bytes.big64_inj]
  refine not_congr ⟨fun h => ⟨h ▸ hmax, h⟩, And.right⟩

theorem rowBytes_put (encode : α → Bytes) (t : Table α) (n : UInt64) (a : α) :
    (t.put n a).rowBytes encode = Function.update (t.rowBytes encode) n (some (encode a)) := by
  funext m
  rw [rowBytes, row_put, Function.update_apply]
  split <;> rfl

theorem rowBytes_drop (encode : α → Bytes) (t : Table α) (n : UInt64) :
    (t.drop n).rowBytes encode = Function.update (t.rowBytes encode) n none := by
  funext m
  rw [rowBytes, row_drop, Function.update_apply]
  split <;> rfl

theorem rowBytes_add (encode : α → Bytes) (t : Table α) (a : α) :
    (t.add a).rowBytes encode
      = Function.update (t.rowBytes encode) t.next (some (encode a)) := by
  funext m
  rw [rowBytes, row_add, Function.update_apply]
  split <;> rfl

theorem lastBytes_add {t : Table α} (h : t.HasNext) (a : α) :
    (t.add a).lastBytes = some (Bytes.big64 t.next) := if_neg h

end Table

namespace KeySpace

/-- Under `start` a key space holds one value a number, and nothing else.  Keys of other lengths are
excluded with this. -/
def Rows (start : Bytes) (bytes : UInt64 → Option Bytes) (s : KeySpace) : Prop :=
  ∀ rest, s.get (start ++ rest) = (Bytes.ofBig64? rest).bind bytes

/-- Under `start` a key space holds at most one value, at `start` itself. -/
def Single (start : Bytes) (value : Option Bytes) (s : KeySpace) : Prop :=
  ∀ rest, s.get (start ++ rest) = if rest = [] then value else none

variable {start : Bytes} {starts : List Bytes} {s t : KeySpace}

/-- An empty key space holds no rows. -/
theorem Rows.empty {α : Type} (encode : α → Bytes) (start : Bytes) :
    KeySpace.empty.Rows start ((Table.empty : Table α).rowBytes encode) := by
  intro rest
  rw [get_empty]
  cases Bytes.ofBig64? rest <;> rfl

theorem Single.empty (start : Bytes) : KeySpace.empty.Single start none := by
  intro rest
  rw [get_empty, ite_self]

namespace Rows

variable {bytes : UInt64 → Option Bytes}

/-- The value of a number. -/
theorem get (h : s.Rows start bytes) (n : UInt64) : s.get (start ++ Bytes.big64 n) = bytes n := by
  rw [h, Bytes.ofBig64?_big64]
  rfl

/-- Every key under `start` is the key of a number.  So a scan meets rows only. -/
theorem of_get (h : s.Rows start bytes) {key value : Bytes} (hkey : start <+: key)
    (hget : s.get key = some value) :
    ∃ n, key = start ++ Bytes.big64 n ∧ bytes n = some value := by
  obtain ⟨rest, rfl⟩ := hkey
  rw [h rest] at hget
  obtain ⟨n, hread, hbytes⟩ := Option.bind_eq_some_iff.1 hget
  rw [Bytes.ofBig64?_eq_some_iff] at hread
  exact ⟨n, by rw [hread], hbytes⟩

/-- A change of one row is a change of one key.  The keys of two numbers differ, so no other row is
touched. -/
theorem exchange (h : s.Rows start bytes) {n : UInt64} {value : Option Bytes}
    (hget : ∀ key, t.get key = if start ++ Bytes.big64 n = key then value else s.get key) :
    t.Rows start (Function.update bytes n value) := by
  intro rest
  rw [hget, h]
  by_cases hrest : rest = Bytes.big64 n
  · rw [if_pos (by rw [hrest]), hrest, Bytes.ofBig64?_big64]
    exact (Function.update_self n _ bytes).symm
  · rw [if_neg fun he => hrest (List.append_cancel_left he).symm]
    cases hread : Bytes.ofBig64? rest with
    | none => rfl
    | some m =>
      have hmn : m ≠ n := by
        rintro rfl
        exact hrest (Bytes.ofBig64?_eq_some_iff.1 hread)
      exact (Function.update_of_ne hmn _ bytes).symm

theorem set (h : s.Rows start bytes) (n : UInt64) (value : Bytes) :
    (s.set (start ++ Bytes.big64 n) value).Rows start (Function.update bytes n (some value)) :=
  h.exchange fun key => get_set _ value key s

theorem delete (h : s.Rows start bytes) (n : UInt64) :
    (s.delete (start ++ Bytes.big64 n)).Rows start (Function.update bytes n none) :=
  h.exchange fun key => get_delete _ key s

/-- Only the keys that start with `start` matter. -/
theorem congr (h : s.Rows start bytes) (hget : ∀ key, start <+: key → t.get key = s.get key) :
    t.Rows start bytes := by
  intro rest
  rw [hget _ (List.prefix_append start rest), h]

theorem of_confined (h : s.Rows start bytes) (hst : Confined starts s t)
    (hap : ∀ q ∈ starts, Bytes.Apart start q) : t.Rows start bytes :=
  h.congr fun _ hkey => hst.get_of_apart hkey hap

end Rows

namespace Single

variable {value : Option Bytes}

/-- The value itself. -/
theorem get (h : s.Single start value) : s.get start = value := by
  have hstart := h []
  rwa [List.append_nil, if_pos rfl] at hstart

/-- The only key under `start` is `start` itself. -/
theorem of_get (h : s.Single start value) {key found : Bytes} (hkey : start <+: key)
    (hget : s.get key = some found) : key = start ∧ value = some found := by
  obtain ⟨rest, rfl⟩ := hkey
  rw [h rest] at hget
  split at hget
  · next hrest => exact ⟨by rw [hrest, List.append_nil], hget⟩
  · cases hget

theorem set (h : s.Single start value) (bytes : Bytes) :
    (s.set start bytes).Single start (some bytes) := by
  intro rest
  rw [get_set, h]
  by_cases hrest : rest = [] <;> simp [hrest]

/-- Only the keys that start with `start` matter. -/
theorem congr (h : s.Single start value) (hget : ∀ key, start <+: key → t.get key = s.get key) :
    t.Single start value := by
  intro rest
  rw [hget _ (List.prefix_append start rest), h]

theorem of_confined (h : s.Single start value) (hst : Confined starts s t)
    (hap : ∀ q ∈ starts, Bytes.Apart start q) : t.Single start value :=
  h.congr fun _ hkey => hst.get_of_apart hkey hap

end Single

end KeySpace

end BlogLedger
