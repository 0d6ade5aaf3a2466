import BlogLedger.Address
import BlogLedger.Proofs.Bytes.Hex

/-!
# Addresses that are read back

Addresses are stored in records as the text that `Address.display` gives, so records read back only
if that text does.

## Main Results

* `Blank.trim_of_forall` — a text without blanks is not trimmed.
* `Address.read_display` — the text of an address reads back.
-/

namespace BlogLedger

namespace Blank

theorem dropEnd_of_forall {chars : List Char} (h : ∀ c ∈ chars, isBlank c = false) :
    dropEnd chars = chars := by
  induction chars with
  | nil => rfl
  | cons c rest ih =>
    have hc := h c List.mem_cons_self
    have hrest := ih fun d hd => h d (List.mem_cons_of_mem _ hd)
    rw [dropEnd, hrest]
    cases rest <;> simp [hc]

/-- A text without blanks is not trimmed.  The reader trims what it is given, and the text of an
address must come through that unchanged. -/
theorem trim_of_forall {chars : List Char} (h : ∀ c ∈ chars, isBlank c = false) :
    trim (String.ofList chars) = String.ofList chars := by
  have hdrop : chars.dropWhile isBlank = chars := by
    cases chars with
    | nil => rfl
    | cons c rest => simp [h c List.mem_cons_self]
  rw [trim, String.toList_ofList, hdrop, dropEnd_of_forall h]

end Blank

namespace Address

theorem isBlank_of_mem_byte {c : Char} {b : UInt8} (h : c ∈ Hex.byte 'A' b) :
    Blank.isBlank c = false := by
  have hdigit : ∀ n < 16, Blank.isBlank (Hex.digit 'A' n) = false := by decide
  have hb := b.toNat_lt
  simp only [Hex.byte, List.mem_cons, List.not_mem_nil, or_false] at h
  rcases h with rfl | rfl
  · exact hdigit _ (by omega)
  · exact hdigit _ (by omega)

/-- The text of an address reads back.  It has no blanks and forty digits, and upper-case digits are
read like lower-case ones. -/
@[simp] theorem read_display (a : Address) : read a.display = .ok a := by
  have htrim : Blank.trim a.display = a.display := by
    refine Blank.trim_of_forall fun c hc => ?_
    obtain ⟨b, -, hb⟩ := List.mem_flatMap.1 hc
    exact isBlank_of_mem_byte hb
  rw [read, htrim, display, Hex.read_upper]
  simp [ofBytes, a.length_eq]

end Address

end BlogLedger
