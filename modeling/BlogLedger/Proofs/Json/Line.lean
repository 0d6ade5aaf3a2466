import BlogLedger.Proofs.Bucket.Names
import BlogLedger.Proofs.Bytes.Hex
import BlogLedger.Proofs.Json.RoundTrip
import Mathlib.Data.List.Basic

/-!
# Values on one line

What is written as compact JSON is a text on one line: line feeds inside strings are escaped, and
whatever is not ASCII stands for itself.

A line of input ends at the first line feed, so a form that had one inside would be read as two
lines.  It would also be refused if its bytes were no text.  Both are shown together, since they are
put together in the same way: a form is a concatenation of parts, and each part is a text without
line feeds.

## Main Definitions

* `Bytes.IsLine` — the UTF-8 form of a text without line feeds.

## Main Results

* `Json.isLine_quote_ofText` — a string between its quotes is on one line.
* `Json.isLine_print_ofMembers` — so is an object whose members are.
-/

namespace BlogLedger

namespace Bytes

/-- The UTF-8 form of a text without line feeds.  It is closed under concatenation. -/
structure IsLine (bytes : Bytes) : Prop where
  text : ∃ text, ofText text = bytes
  unbroken : (10 : UInt8) ∉ bytes

theorem IsLine.nil : IsLine [] := ⟨⟨"", rfl⟩, List.not_mem_nil⟩

theorem IsLine.append {first second : Bytes} (hfirst : IsLine first) (hsecond : IsLine second) :
    IsLine (first ++ second) := by
  obtain ⟨⟨x, rfl⟩, hx⟩ := hfirst
  obtain ⟨⟨y, rfl⟩, hy⟩ := hsecond
  refine ⟨⟨x ++ y, ofText_append x y⟩, fun hmem => ?_⟩
  exact (List.mem_append.1 hmem).elim hx hy

/-- What holds of the ASCII characters by their numbers.  It is for properties that can be decided:
the numbers are gone through, and then it holds of characters. -/
theorem of_ascii {P : Char → Prop} (h : ∀ n < 128, P (Char.ofNat n)) {c : Char}
    (hc : c.toNat < 128) : P c := by
  have hp := h c.toNat hc
  rwa [Char.ofNat_toNat] at hp

theorem utf8EncodeChar_ascii : ∀ n < 128,
    String.utf8EncodeChar (Char.ofNat n) = [UInt8.ofNat n] := by decide +kernel

/-- An ASCII character is the byte of its number.  Its form has no other bytes. -/
theorem utf8EncodeChar_of_lt {c : Char} (h : c.toNat < 128) :
    String.utf8EncodeChar c = [UInt8.ofNat c.toNat] := by
  have hchar := utf8EncodeChar_ascii c.toNat h
  rwa [Char.ofNat_toNat] at hchar

/-- The bytes of an ASCII text are the numbers of its characters.  So a reader of bytes can be
followed on characters. -/
theorem ofText_of_ascii {text : String} (h : ∀ c ∈ text.toList, c.toNat < 128) :
    ofText text = text.toList.map fun c => UInt8.ofNat c.toNat := by
  rw [← String.ofList_toList (s := text), ofText_ofList, String.toList_ofList,
    List.map_eq_flatMap]
  exact List.flatMap_congr fun c hc => utf8EncodeChar_of_lt (h c hc)

/-- The form of a character is on one line, unless it is the line feed.  It is said by means of the
bytes, since that is what a line is cut by. -/
theorem isLine_utf8EncodeChar {c : Char} (h : (10 : UInt8) ∉ String.utf8EncodeChar c) :
    IsLine (String.utf8EncodeChar c) := by
  refine ⟨⟨String.ofList [c], ?_⟩, h⟩
  rw [ofText_ofList, List.flatMap_singleton]

/-- An ASCII byte that is no control character is on one line.  Marks, digits and letters of a form
are of this kind. -/
theorem isLine_singleton {b : UInt8} (h : 32 ≤ b ∧ b < 128) : IsLine [b] := by
  have hchar : String.utf8EncodeChar (Char.ofNat b.toNat) = [b] := by
    rw [utf8EncodeChar_ascii b.toNat (UInt8.lt_iff_toNat_lt.1 h.2), UInt8.ofNat_toNat]
  rw [← hchar]
  refine isLine_utf8EncodeChar ?_
  rw [hchar, List.mem_singleton]
  rintro rfl
  exact absurd h.1 (by decide)

/-- ASCII bytes that are no control characters are on one line, in any number. -/
theorem isLine_of_printable {bytes : Bytes} (h : ∀ b ∈ bytes, 32 ≤ b ∧ b < 128) :
    IsLine bytes := by
  induction bytes with
  | nil => exact .nil
  | cons b rest ih =>
    have hrest := ih fun c hc => h c (List.mem_cons_of_mem b hc)
    exact (isLine_singleton (h b List.mem_cons_self)).append hrest

end Bytes

namespace Json

open Bytes (IsLine)

/-! ### Strings -/

theorem Text.escapeByte_printable : ∀ n < 128,
    ∀ b ∈ escapeByte (UInt8.ofNat n), 32 ≤ b ∧ b < 128 := by decide +kernel

theorem Text.escapeByte_of_le : ∀ n < 256, 128 ≤ n →
    escapeByte (UInt8.ofNat n) = [UInt8.ofNat n] := by decide +kernel

/-- Bytes that are not ASCII stand for themselves.  A character that is not ASCII has no other
bytes, so it comes through unchanged. -/
theorem Text.escape_of_le {bytes : Bytes} (h : ∀ b ∈ bytes, 128 ≤ b) : escape bytes = bytes := by
  induction bytes with
  | nil => rfl
  | cons b rest ih =>
    have hbyte := escapeByte_of_le b.toNat b.toNat_lt
      (UInt8.le_iff_toNat_le.1 (h b List.mem_cons_self))
    rw [UInt8.ofNat_toNat] at hbyte
    show escapeByte b ++ escape rest = b :: rest
    rw [hbyte, ih fun c hc => h c (List.mem_cons_of_mem b hc)]
    rfl

/-- The bytes of a character that is not ASCII have their highest bit set.  None of them can be
taken for a quote, a backslash or a line feed. -/
theorem le_of_mem_utf8EncodeChar {c : Char} (hc : 128 ≤ c.toNat) {b : UInt8}
    (hb : b ∈ String.utf8EncodeChar c) : 128 ≤ b := by
  have hbyte : ∀ n, 128 ≤ n % 256 → (128 : UInt8) ≤ UInt8.ofNat n := by
    intro n hn
    rw [UInt8.le_iff_toNat_le, UInt8.toNat_ofNat']
    exact hn
  unfold String.utf8EncodeChar at hb
  change 128 ≤ c.val.toNat at hc
  dsimp only at hb
  rw [if_neg (by omega)] at hb
  split at hb
  · simp only [List.mem_cons, List.not_mem_nil, or_false] at hb
    rcases hb with rfl | rfl <;> exact hbyte _ (by omega)
  · split at hb
    · simp only [List.mem_cons, List.not_mem_nil, or_false] at hb
      rcases hb with rfl | rfl | rfl <;> exact hbyte _ (by omega)
    · simp only [List.mem_cons, List.not_mem_nil, or_false] at hb
      rcases hb with rfl | rfl | rfl | rfl <;> exact hbyte _ (by omega)

/-- An escaped character is on one line.  The line feed is written with a letter, and other
characters have none. -/
theorem isLine_escape_utf8EncodeChar (c : Char) :
    IsLine (Text.escape (String.utf8EncodeChar c)) := by
  by_cases hc : c.toNat < 128
  · rw [Bytes.utf8EncodeChar_of_lt hc]
    refine Bytes.isLine_of_printable fun b hb => Text.escapeByte_printable c.toNat hc b ?_
    rwa [Text.escape, List.flatMap_singleton] at hb
  · -- The other characters stand for themselves.
    have hhigh := fun b hb => le_of_mem_utf8EncodeChar (c := c) (not_lt.1 hc) (b := b) hb
    rw [Text.escape_of_le hhigh]
    exact Bytes.isLine_utf8EncodeChar fun hmem => absurd (hhigh 10 hmem) (by decide)

/-- A string between its quotes is on one line.  It is the concatenation of its escaped characters. -/
theorem isLine_quote_ofText (text : String) : IsLine (quote (Text.escape (Bytes.ofText text))) := by
  have hquote : IsLine [34] := Bytes.isLine_singleton (by decide)
  have hescape : IsLine (Text.escape (Bytes.ofText text)) := by
    rw [← String.ofList_toList (s := text), Bytes.ofText_ofList, Text.escape, List.flatMap_assoc]
    induction text.toList with
    | nil => exact .nil
    | cons c rest ih => exact (isLine_escape_utf8EncodeChar c).append ih
  exact (hquote.append hescape).append hquote

/-! ### Values -/

theorem isLine_print_ofText (text : String) : IsLine (ofText text).print :=
  isLine_quote_ofText text

theorem printable_of_isNumeric : ∀ n < 256, Scan.isNumeric (UInt8.ofNat n) = true →
    32 ≤ UInt8.ofNat n ∧ UInt8.ofNat n < 128 := by decide +kernel

theorem isLine_print_ofInt (i : Int) : IsLine (ofInt i).print := by
  refine Bytes.isLine_of_printable fun b hb => ?_
  have hprintable := printable_of_isNumeric b.toNat b.toNat_lt
  rw [UInt8.ofNat_toNat] at hprintable
  exact hprintable ((numberLexeme_ofInt i).numeric b hb)

theorem isLine_printMembers {members : List (String × Json)}
    (h : ∀ m ∈ members, IsLine m.2.print) :
    IsLine (printMembers (members.map fun m => (Text.escape (Bytes.ofText m.1), m.2))) := by
  have hcolon : IsLine [58] := Bytes.isLine_singleton (by decide)
  have hcomma : IsLine [44] := Bytes.isLine_singleton (by decide)
  have hmember : ∀ m : String × Json, IsLine m.2.print →
      IsLine (quote (Text.escape (Bytes.ofText m.1)) ++ 58 :: m.2.print) := fun m hm =>
    (isLine_quote_ofText m.1).append (hcolon.append hm)
  induction members with
  | nil => exact .nil
  | cons m rest ih =>
    have hm := h m List.mem_cons_self
    cases rest with
    | nil => exact hmember m hm
    | cons n rest =>
      have hrest := ih fun e he => h e (List.mem_cons_of_mem m he)
      exact (hmember m hm).append (hcomma.append hrest)

/-- The text of an object starts with a brace.  So a line that holds an object is not blank. -/
theorem text_print_ofMembers {members : List (String × Json)} (h : ∀ m ∈ members, IsLine m.2.print) :
    ∃ text, Bytes.ofText ("\x7b" ++ text) = (ofMembers members).print := by
  have hclose : IsLine [125] := Bytes.isLine_singleton (by decide)
  obtain ⟨text, htext⟩ := ((isLine_printMembers h).append hclose).text
  refine ⟨text, ?_⟩
  rw [Bytes.ofText_append, htext]
  rfl

/-- An object is on one line when its members are.  The marks between them are ASCII. -/
theorem isLine_print_ofMembers {members : List (String × Json)}
    (h : ∀ m ∈ members, IsLine m.2.print) : IsLine (ofMembers members).print := by
  have hopen : IsLine [123] := Bytes.isLine_singleton (by decide)
  have hclose : IsLine [125] := Bytes.isLine_singleton (by decide)
  exact hopen.append ((isLine_printMembers h).append hclose)

end Json

end BlogLedger
