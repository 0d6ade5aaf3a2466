import BlogLedger.Bytes.Hex

/-!
# Hexadecimal text that is read back

Keys and values of journal records are written as text in lower case, and addresses in upper case.
Both must read back, so what is shown here is shown for an alphabet that may start its letters at
either case.

## Main Results

* `Hex.read_lower`, `Hex.read_upper` — the text of a byte string in either case reads back.
-/

namespace BlogLedger

/-- The bytes of a text are those of its characters in a row.  The reader works on bytes, while the
text is built from characters. -/
theorem Bytes.ofText_ofList (chars : List Char) :
    Bytes.ofText (String.ofList chars) = chars.flatMap String.utf8EncodeChar := by
  simp [Bytes.ofText, List.utf8Encode]

namespace Hex

/-- The letters that digits may start at.  The two alphabets share the digits from 0 to 9. -/
def IsFirstLetter (a : Char) : Prop := a = 'a' ∨ a = 'A'

/-- The byte of a digit.  A digit is ASCII, so it has one byte. -/
def digitByte (a : Char) (n : Nat) : UInt8 := UInt8.ofNat (digit a n).toNat

theorem utf8EncodeChar_digit {a : Char} (ha : IsFirstLetter a) {n : Nat} (h : n < 16) :
    String.utf8EncodeChar (digit a n) = [digitByte a n] := by
  have hlower : ∀ n < 16, String.utf8EncodeChar (digit 'a' n) = [digitByte 'a' n] := by decide
  have hupper : ∀ n < 16, String.utf8EncodeChar (digit 'A' n) = [digitByte 'A' n] := by decide
  rcases ha with rfl | rfl
  · exact hlower n h
  · exact hupper n h

theorem value?_digitByte {a : Char} (ha : IsFirstLetter a) {n : Nat} (h : n < 16) :
    value? (digitByte a n) = some n := by
  have hlower : ∀ n < 16, value? (digitByte 'a' n) = some n := by decide
  have hupper : ∀ n < 16, value? (digitByte 'A' n) = some n := by decide
  rcases ha with rfl | rfl
  · exact hlower n h
  · exact hupper n h

/-- The bytes of a hexadecimal text: two digits a byte.  With it the text can be read without going
through characters. -/
theorem ofText_flatMap_byte {a : Char} (ha : IsFirstLetter a) (bytes : Bytes) :
    Bytes.ofText (String.ofList (bytes.flatMap (byte a)))
      = bytes.flatMap fun b => [digitByte a (b.toNat / 16), digitByte a (b.toNat % 16)] := by
  rw [Bytes.ofText_ofList, List.flatMap_assoc]
  congr 1
  funext b
  have hb := b.toNat_lt
  have hhigh := utf8EncodeChar_digit ha (n := b.toNat / 16) (by omega)
  have hlow := utf8EncodeChar_digit ha (n := b.toNat % 16) (by omega)
  simp [byte, hhigh, hlow]

theorem readFrom_flatMap {a : Char} (ha : IsFirstLetter a) (bytes : Bytes) (position : Nat) :
    readFrom position
      (bytes.flatMap fun b => [digitByte a (b.toNat / 16), digitByte a (b.toNat % 16)])
        = .ok bytes := by
  induction bytes generalizing position with
  | nil => rfl
  | cons b rest ih =>
    have hb := b.toNat_lt
    have hhigh := value?_digitByte ha (n := b.toNat / 16) (by omega)
    have hlow := value?_digitByte ha (n := b.toNat % 16) (by omega)
    have hvalue : 16 * (b.toNat / 16) + b.toNat % 16 = b.toNat := Nat.div_add_mod _ _
    have hrest := ih (position + 2)
    simp [readFrom, digitAt, hhigh, hlow, hvalue, hrest, bind, Except.bind, pure, Except.pure]

theorem read_flatMap_byte {a : Char} (ha : IsFirstLetter a) (bytes : Bytes) :
    read (String.ofList (bytes.flatMap (byte a))) = .ok bytes := by
  have heven : (bytes.flatMap fun b =>
      [digitByte a (b.toNat / 16), digitByte a (b.toNat % 16)]).length = bytes.length * 2 := by
    simp [List.map_const']
  rw [read, ofText_flatMap_byte ha]
  simp only [heven, Nat.mul_mod_left, Nat.zero_ne_one, if_false]
  exact readFrom_flatMap ha bytes 0

/-- The lower-case text of a byte string reads back.  Its length is even, and every byte of it is a
digit. -/
theorem read_lower (bytes : Bytes) : read (lower bytes) = .ok bytes :=
  read_flatMap_byte (.inl rfl) bytes

/-- The upper-case text of a byte string reads back, for the same reasons. -/
theorem read_upper (bytes : Bytes) : read (upper bytes) = .ok bytes :=
  read_flatMap_byte (.inr rfl) bytes

end Hex

end BlogLedger
