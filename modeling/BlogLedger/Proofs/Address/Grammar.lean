import BlogLedger.Proofs.Address
import BlogLedger.Proofs.Failure
import BlogLedger.Proofs.Json.Line

/-!
# Which texts are addresses

An address is written as forty hexadecimal digits of either case, with blanks around them, and as
nothing else.  It has one text in upper case, whatever it was read from.

The reader works on bytes and trims characters, and it reports the first fault that it finds.  What
is shown here does not follow it fault by fault.  Instead, one equation says when a text is read:
without the blanks and in upper case, it is the text that the address is shown as.  The grammar
comes from this equation, and so does the fact that two texts of one address differ in case and
blanks only.

## Main Definitions

* `Blank.Trims` — a text without the blanks at both of its ends.
* `Hex.IsDigit` — a hexadecimal digit.
* `Address.Grammar` — which texts are read, and as which address.
* `Address.Alike` — texts that differ in case or in the blanks around them.

## Main Results

* `Hex.read_eq_ok` — a text writes the bytes whose text it is in upper case.
* `Address.read_eq_ok` — the same for addresses.
* `Address.grammar` — the texts of addresses.

## Design Notes

Digits are read from bytes.  A character that is not ASCII has no byte that is a digit, so on what
is read bytes and characters go together.
-/

namespace BlogLedger

/-! ### Blanks -/

namespace Blank

/-- `kept` is a text without the blanks at both of its ends.  It is stated without the trimming
function, so that the grammar can be read without knowing how blanks are dropped. -/
structure Trims (text kept : String) : Prop where
  around : ∃ front back, text.toList = front ++ kept.toList ++ back
    ∧ ∀ c ∈ front ++ back, isBlank c = true
  first : ∀ c ∈ kept.toList.head?, isBlank c = false
  last : ∀ c ∈ kept.toList.getLast?, isBlank c = false

/-- What is dropped at the end is blank, and what is kept does not end with a blank.  The two parts
determine what is kept, and so the induction has to give both. -/
theorem dropEnd_spec (chars : List Char) : ∃ back, chars = dropEnd chars ++ back
    ∧ (∀ c ∈ back, isBlank c = true) ∧ ∀ c ∈ (dropEnd chars).getLast?, isBlank c = false := by
  induction chars with
  | nil => exact ⟨[], rfl, List.forall_mem_nil _, fun c hc => absurd hc (Option.not_mem_none c)⟩
  | cons c rest ih =>
    obtain ⟨back, hrest, hback, hlast⟩ := ih
    rw [dropEnd]
    cases hkept : dropEnd rest with
    | nil =>
      rw [hkept, List.nil_append] at hrest
      dsimp only
      split
      · next hc =>
        exact ⟨c :: rest, rfl, List.forall_mem_cons.2 ⟨hc, hrest ▸ hback⟩,
          fun d hd => absurd hd (Option.not_mem_none d)⟩
      · next hc =>
        refine ⟨rest, rfl, hrest ▸ hback, fun d hd => ?_⟩
        rw [List.getLast?_singleton, Option.mem_some_iff] at hd
        exact Bool.not_eq_true _ ▸ hd ▸ hc
    | cons d kept =>
      rw [hkept] at hrest hlast
      refine ⟨back, congrArg (c :: ·) hrest, hback, fun e he => hlast e ?_⟩
      rwa [List.getLast?_cons_cons] at he

/-- A trimmed text is the text without the blanks at both of its ends.  A text of blanks alone is
trimmed to the empty one. -/
theorem trims_trim (text : String) : Trims text (trim text) := by
  obtain ⟨back, hback, hblank, hlast⟩ := dropEnd_spec (text.toList.dropWhile isBlank)
  have hkept : (trim text).toList = dropEnd (text.toList.dropWhile isBlank) := String.toList_ofList
  refine ⟨⟨text.toList.takeWhile isBlank, back, ?_, fun c hc => ?_⟩, fun c hc => ?_, ?_⟩
  · rw [hkept, List.append_assoc, ← hback, List.takeWhile_append_dropWhile]
  · rcases List.mem_append.1 hc with hc | hc
    · exact List.mem_takeWhile_imp hc
    · exact hblank c hc
  · have hhead := List.head?_dropWhile_not isBlank text.toList
    rw [hkept, Option.mem_def] at hc
    rw [hback, List.head?_append, hc] at hhead
    simpa using hhead
  · rwa [hkept]

end Blank

/-! ### Hexadecimal digits -/

namespace Hex

/-- A hexadecimal digit of either case.  It is a property of characters and is decided by looking at
them. -/
def IsDigit (c : Char) : Prop :=
  '0' ≤ c ∧ c ≤ '9' ∨ 'a' ≤ c ∧ c ≤ 'f' ∨ 'A' ≤ c ∧ c ≤ 'F'

instance (c : Char) : Decidable (IsDigit c) := inferInstanceAs (Decidable (_ ∨ _))

/-- Characters that are not ASCII have no other case.  So changing the case of a text cannot turn
one of its other characters into a digit. -/
theorem toUpper_of_le {c : Char} (h : 128 ≤ c.toNat) : c.toUpper = c := by
  have hupper : ¬ ('a'.val ≤ c.val ∧ c.val ≤ 'z'.val) := by
    rintro ⟨-, hle⟩
    have hnat : c.toNat ≤ 122 := UInt32.le_iff_toNat_le.1 hle
    omega
  exact dif_neg hupper

theorem toNat_digit : ∀ v < 16, (digit 'A' v).toNat < 128 := by decide

/-- What is a digit in upper case is ASCII.  With it the condition of being ASCII need not be part
of the grammar. -/
theorem ascii_of_toUpper {c : Char} {v : Nat} (hv : v < 16) (h : c.toUpper = digit 'A' v) :
    c.toNat < 128 := by
  by_contra hc
  have hdigit := toNat_digit v hv
  rw [← h, toUpper_of_le (Nat.not_lt.1 hc)] at hdigit
  exact hc hdigit

/-- The digits are those that have a value in upper case.  It links the grammar with the table of
digits that is used to show addresses. -/
theorem isDigit_iff {c : Char} : IsDigit c ↔ ∃ v < 16, c.toUpper = digit 'A' v := by
  by_cases hc : c.toNat < 128
  · exact Bytes.of_ascii (P := fun c => IsDigit c ↔ ∃ v < 16, c.toUpper = digit 'A' v)
      (by decide +kernel) hc
  · refine iff_of_false (fun h => hc ?_) fun ⟨v, hv, h⟩ => hc (ascii_of_toUpper hv h)
    have hascii : ∀ d : Char, d.toNat < 128 → c ≤ d → c.toNat < 128 := fun d hd hle =>
      Nat.lt_of_le_of_lt (UInt32.le_iff_toNat_le.1 hle) hd
    rcases h with ⟨-, h⟩ | ⟨-, h⟩ | ⟨-, h⟩
    · exact hascii '9' (by decide) h
    · exact hascii 'f' (by decide) h
    · exact hascii 'F' (by decide) h

theorem value?_lt {b : UInt8} {v : Nat} (h : value? b = some v) : v < 16 ∧ b.toNat < 128 := by
  have hall : ∀ n < 256, ∀ v ∈ value? (UInt8.ofNat n), v < 16 ∧ n < 128 := by decide +kernel
  refine hall b.toNat b.toNat_lt v ?_
  rwa [UInt8.ofNat_toNat]

/-- The value of an ASCII character is that of its upper case.  There are 128 characters and sixteen
values, and each pair of them is looked at. -/
theorem value?_toNat_iff {c : Char} (hc : c.toNat < 128) {v : Nat} (hv : v < 16) :
    value? (UInt8.ofNat c.toNat) = some v ↔ c.toUpper = digit 'A' v :=
  Bytes.of_ascii (P := fun c =>
      ∀ v < 16, value? (UInt8.ofNat c.toNat) = some v ↔ c.toUpper = digit 'A' v)
    (by decide +kernel) hc v hv

/-- A byte is written as the digits of its values.  This is the step of every induction over pairs
of digits. -/
theorem byte_ofNat {high low : Nat} (hhigh : high < 16) (hlow : low < 16) :
    byte 'A' (UInt8.ofNat (16 * high + low)) = [digit 'A' high, digit 'A' low] := by
  have hbyte : (UInt8.ofNat (16 * high + low)).toNat = 16 * high + low := by
    rw [UInt8.toNat_ofNat']
    omega
  have hdiv : (16 * high + low) / 16 = high := by omega
  have hmod : (16 * high + low) % 16 = low := by omega
  rw [byte, hbyte, hdiv, hmod]

/-! ### Reading digits -/

/-- Two digits are read as a byte before the others.  As an equivalence, it lets the reader be taken
apart in both directions. -/
theorem readFrom_cons_eq_ok {position : Nat} {high low : UInt8} {rest bytes : Bytes} :
    readFrom position (high :: low :: rest) = .ok bytes
      ↔ ∃ h l tail, value? high = some h ∧ value? low = some l
        ∧ readFrom (position + 2) rest = .ok tail ∧ bytes = UInt8.ofNat (16 * h + l) :: tail := by
  have hdigit : ∀ {b : UInt8} {position v : Nat},
      digitAt b position = .ok v ↔ value? b = some v := by
    intro b position v
    unfold digitAt
    cases value? b <;> simp
  rw [readFrom]
  simp only [Except.bind_eq_ok, hdigit, pure, Except.pure, Except.ok.injEq]
  constructor
  · rintro ⟨h, hh, l, hl, tail, htail, rfl⟩
    exact ⟨h, l, tail, hh, hl, htail, rfl⟩
  · rintro ⟨h, l, tail, hh, hl, htail, rfl⟩
    exact ⟨h, hh, l, hl, tail, htail, rfl⟩

/-- Bytes that are read are ASCII.  The recursion follows that of the reader, two bytes at a time. -/
theorem ascii_of_readFrom : ∀ {bytes read : Bytes} {position : Nat},
    readFrom position bytes = .ok read → bytes.length % 2 = 0 → ∀ b ∈ bytes, b.toNat < 128
  | [], _, _, _, _ => nofun
  | [_], _, _, _, heven => absurd heven (by simp)
  | high :: low :: rest, read, position, h, heven => by
    obtain ⟨v, w, tail, hv, hw, htail, -⟩ := readFrom_cons_eq_ok.1 h
    have hlength : rest.length % 2 = 0 := by
      simp only [List.length_cons] at heven
      omega
    exact List.forall_mem_cons.2 ⟨(value?_lt hv).2, List.forall_mem_cons.2 ⟨(value?_lt hw).2,
      ascii_of_readFrom htail hlength⟩⟩

/-- ASCII characters are read as the bytes whose text they are in upper case.  The recursion is over
pairs of characters, so their number must be even. -/
theorem readFrom_map_eq_ok : ∀ {chars : List Char} {bytes : Bytes} {position : Nat},
    (∀ c ∈ chars, c.toNat < 128) → chars.length % 2 = 0 →
      (readFrom position (chars.map fun c => UInt8.ofNat c.toNat) = .ok bytes
        ↔ chars.map Char.toUpper = bytes.flatMap (byte 'A'))
  | [], bytes, _, _, _ => by
    cases bytes <;> simp [readFrom, byte]
  | [_], _, _, _, heven => absurd heven (by simp)
  | c :: d :: rest, bytes, position, hascii, heven => by
    obtain ⟨hc, hascii⟩ := List.forall_mem_cons.1 hascii
    obtain ⟨hd, hascii⟩ := List.forall_mem_cons.1 hascii
    have hlength : rest.length % 2 = 0 := by
      simp only [List.length_cons] at heven
      omega
    -- Two characters make one byte, so the recursion goes by pairs.
    rw [List.map_cons, List.map_cons, readFrom_cons_eq_ok]
    constructor
    · rintro ⟨h, l, tail, hh, hl, htail, rfl⟩
      have hhigh := (value?_lt hh).1
      have hlow := (value?_lt hl).1
      rw [List.flatMap_cons, byte_ofNat hhigh hlow, ← (value?_toNat_iff hc hhigh).1 hh,
        ← (value?_toNat_iff hd hlow).1 hl, ← (readFrom_map_eq_ok hascii hlength).1 htail]
      rfl
    · intro htext
      cases bytes with
      | nil => cases htext
      | cons b tail =>
        have hb := b.toNat_lt
        obtain ⟨hhigh, hlow, htail⟩ : c.toUpper = digit 'A' (b.toNat / 16)
            ∧ d.toUpper = digit 'A' (b.toNat % 16)
            ∧ rest.map Char.toUpper = tail.flatMap (byte 'A') := by
          simpa [byte] using htext
        refine ⟨_, _, tail, (value?_toNat_iff hc (by omega)).2 hhigh,
          (value?_toNat_iff hd (by omega)).2 hlow,
          (readFrom_map_eq_ok hascii hlength).2 htail, ?_⟩
        rw [Nat.div_add_mod, UInt8.ofNat_toNat]

/-- A text that is read is ASCII.  A character that is not would be several bytes, none of which is
a digit. -/
theorem ascii_of_read {text : String} {bytes : Bytes} (h : read text = .ok bytes) :
    ∀ c ∈ text.toList, c.toNat < 128 := by
  intro c hc
  by_contra hhigh
  have hread : (Bytes.ofText text).length % 2 = 0 ∧ readFrom 0 (Bytes.ofText text) = .ok bytes := by
    unfold read at h
    dsimp only at h
    split at h
    · cases h
    · exact ⟨by omega, h⟩
  obtain ⟨b, hb⟩ := List.exists_mem_of_ne_nil (String.utf8EncodeChar c) (by simp)
  have hmem : b ∈ Bytes.ofText text := by
    rw [← String.ofList_toList (s := text), Bytes.ofText_ofList, List.mem_flatMap]
    exact ⟨c, hc, hb⟩
  have hlow := ascii_of_readFrom hread.2 hread.1 b hmem
  have hle := UInt8.le_iff_toNat_le.1 (Json.le_of_mem_utf8EncodeChar (Nat.not_lt.1 hhigh) hb)
  exact absurd hle (Nat.not_le.2 hlow)

theorem exists_digit_of_mem_byte {bytes : Bytes} {c : Char} (h : c ∈ bytes.flatMap (byte 'A')) :
    ∃ v < 16, c = digit 'A' v := by
  obtain ⟨b, -, hc⟩ := List.mem_flatMap.1 h
  have hb := b.toNat_lt
  simp only [byte, List.mem_cons, List.not_mem_nil, or_false] at hc
  rcases hc with rfl | rfl
  · exact ⟨_, by omega, rfl⟩
  · exact ⟨_, by omega, rfl⟩

theorem length_flatMap_byte (bytes : Bytes) :
    (bytes.flatMap (byte 'A')).length = bytes.length * 2 := by
  simp [byte, List.map_const']

/-- A text writes the bytes whose text it is in upper case.  From left to right the text is ASCII
because it is read, and from right to left because its upper case consists of digits. -/
theorem read_eq_ok {text : String} {bytes : Bytes} :
    read text = .ok bytes ↔ text.toUpper = upper bytes := by
  have htext : text.toUpper = upper bytes
      ↔ text.toList.map Char.toUpper = bytes.flatMap (byte 'A') := by
    rw [← String.toList_inj, String.toUpper, String.toList_map, upper, String.toList_ofList]
  rw [htext]
  -- Both sides say that the text is ASCII; then its characters are its bytes.
  by_cases hascii : ∀ c ∈ text.toList, c.toNat < 128
  · by_cases heven : text.toList.length % 2 = 0
    · rw [read, Bytes.ofText_of_ascii hascii, List.length_map, if_neg (by omega)]
      exact readFrom_map_eq_ok hascii heven
    · refine iff_of_false (fun h => ?_) fun h => heven ?_
      · rw [read, Bytes.ofText_of_ascii hascii, List.length_map, if_pos (by omega)] at h
        cases h
      · have hlength := congrArg List.length h
        rw [List.length_map, length_flatMap_byte] at hlength
        omega
  · refine iff_of_false (fun h => hascii (ascii_of_read h)) fun h => hascii fun c hc => ?_
    have hmem : c.toUpper ∈ bytes.flatMap (byte 'A') := h ▸ List.mem_map_of_mem hc
    obtain ⟨v, hv, hdigit⟩ := exists_digit_of_mem_byte hmem
    exact ascii_of_toUpper hv hdigit

/-- An even number of digits in upper case is the text of some bytes.  It is what makes forty digits
enough: nothing else is asked of an address. -/
theorem exists_flatMap_byte : ∀ {chars : List Char}, (∀ c ∈ chars, ∃ v < 16, c = digit 'A' v) →
    chars.length % 2 = 0 → ∃ bytes : Bytes, chars = bytes.flatMap (byte 'A')
  | [], _, _ => ⟨[], rfl⟩
  | [_], _, heven => absurd heven (by simp)
  | c :: d :: rest, hdigits, heven => by
    obtain ⟨⟨h, hhigh, rfl⟩, hothers⟩ := List.forall_mem_cons.1 hdigits
    obtain ⟨⟨l, hlow, rfl⟩, hrest⟩ := List.forall_mem_cons.1 hothers
    have hlength : rest.length % 2 = 0 := by
      simp only [List.length_cons] at heven
      omega
    obtain ⟨bytes, rfl⟩ := exists_flatMap_byte hrest hlength
    refine ⟨UInt8.ofNat (16 * h + l) :: bytes, ?_⟩
    rw [List.flatMap_cons, byte_ofNat hhigh hlow]
    rfl

end Hex

/-! ### Addresses -/

namespace Address

/-- Which texts are read, and as which address.  The text that an address is shown as is one of
them. -/
structure Grammar : Prop where
  trims : ∀ text, Blank.Trims text (Blank.trim text)
  accepts : ∀ text, (∃ a, read text = .ok a)
    ↔ (Blank.trim text).toList.length = 40 ∧ ∀ c ∈ (Blank.trim text).toList, Hex.IsDigit c
  displays : ∀ text a, read text = .ok a → a.display = (Blank.trim text).toUpper
  reads : ∀ a : Address, read a.display = .ok a

/-- Texts that differ in case or in the blanks around them.  It can be decided, and it is asked of
texts in general and not only of addresses. -/
def Alike (x y : String) : Prop := (Blank.trim x).toUpper = (Blank.trim y).toUpper

instance (x y : String) : Decidable (Alike x y) :=
  decidable_of_iff
    ((Blank.trim x).toList.map Char.toUpper = (Blank.trim y).toList.map Char.toUpper) <| by
      rw [Alike, ← String.toList_inj, String.toUpper, String.toUpper, String.toList_map,
        String.toList_map]

/-- A text is read as the address whose text it is in upper case.  The rest of the module consists
of uses of this equation. -/
theorem read_eq_ok {text : String} {a : Address} :
    read text = .ok a ↔ (Blank.trim text).toUpper = a.display := by
  rw [display, ← Hex.read_eq_ok]
  unfold read
  cases Hex.read (Blank.trim text) with
  | error fault => simp
  | ok bytes =>
    obtain ⟨stored, hlength⟩ := a
    simp only [ofBytes, Except.ok.injEq]
    constructor
    · intro h
      split at h <;> cases h
      rfl
    · rintro rfl
      rw [dif_pos hlength]

theorem length_display (a : Address) : a.display.toList.length = 40 := by
  rw [display, Hex.upper, String.toList_ofList, Hex.length_flatMap_byte, a.length_eq]

/-- The texts of addresses are forty digits with blanks around them.  Which bytes they stand for is
determined by the text in upper case. -/
theorem grammar : Grammar where
  trims := Blank.trims_trim
  accepts text := by
    have hupper : (Blank.trim text).toUpper.toList = (Blank.trim text).toList.map Char.toUpper :=
      String.toList_map
    simp only [read_eq_ok, Hex.isDigit_iff, ← String.toList_inj, hupper]
    constructor
    · rintro ⟨a, ha⟩
      have hlength := length_display a
      rw [← ha, List.length_map] at hlength
      refine ⟨hlength, fun c hc => ?_⟩
      have hmem := List.mem_map_of_mem (f := Char.toUpper) hc
      rw [ha, display, Hex.upper, String.toList_ofList] at hmem
      exact Hex.exists_digit_of_mem_byte hmem
    · rintro ⟨hlength, hdigits⟩
      obtain ⟨bytes, hbytes⟩ := Hex.exists_flatMap_byte (List.forall_mem_map.2 hdigits)
        (by rw [List.length_map, hlength])
      have htwenty := congrArg List.length hbytes
      rw [List.length_map, hlength, Hex.length_flatMap_byte] at htwenty
      refine ⟨⟨bytes, by omega⟩, ?_⟩
      rw [hbytes, display, Hex.upper, String.toList_ofList]
  displays _ _ h := (read_eq_ok.1 h).symm
  reads := read_display

/-- Texts that are alike are read as the same address, and if one of them is not read neither is the
other. -/
theorem Alike.read_eq_ok {x y : String} (h : Alike x y) {a : Address} :
    read x = .ok a ↔ read y = .ok a := by
  rw [Address.read_eq_ok, Address.read_eq_ok, h]

end Address

end BlogLedger
