import BlogLedger.Json.Token

/-!
# Escaped strings that are read back

What is written between quotes stands for the bytes it was written for, and the quote that ends it
is the first one that a reader takes for an end.

A string is read in two passes: a reader of tokens looks for its end, and what lies between the
quotes is unescaped later.  Both have to agree with the escaping.  For the first it is enough that
no byte of the lexeme ends it, and for the second each byte must give itself back.  A byte has three
ways of being written, and each is looked at once for both.

## Main Definitions

* `Json.Text.Escaped` — the ways in which a byte is written.

## Main Results

* `Json.Text.unescape_escape` — an escaped byte string reads back.
* `Json.lexemeText?_escape` — an escaped text reads back.
* `Json.Text.closed_escape` — a reader stays between the quotes of an escaped byte string.
-/

namespace BlogLedger.Json

namespace Text

/-! ### Reading back -/

theorem hexValue?_hexDigit : ∀ n < 16, hexValue? (hexDigit n) = some n := by decide

theorem codePoint_of_lt : ∀ n < 32, codePoint n = [UInt8.ofNat n] := by decide

/-- A byte that leads to a place leaves the rest to be read from there.  Reading goes byte by byte,
so this is a step of it. -/
theorem unescapeFrom_cons {place place' : Place} {b : UInt8} {read : Bytes}
    (h : next place b = some (place', read)) (rest : Bytes) :
    unescapeFrom place (b :: rest) = (unescapeFrom place' rest).map (read ++ ·) := by
  cases hrest : unescapeFrom place' rest <;> cases place <;> simp [unescapeFrom, h, hrest]

theorem finishUnit_of_lt {n : Nat} (h : n < 256) : finishUnit n = some (.plain, codePoint n) := by
  have hlow : ¬ 0xdc00 ≤ n := by omega
  have hhigh : ¬ 0xd800 ≤ n := by omega
  simp [finishUnit, hlow, hhigh]

/-- The ways in which a byte is written: by a letter after a backslash, by four digits, and as it
is.  Every proof about escaped bytes has these three cases. -/
inductive Escaped (b : UInt8) : Bytes → Prop where
  | short (c : UInt8) (reads : shortEscape? c = some b) (ne : c ≠ 117) : Escaped b [92, c]
  | control (low : b.toNat < 32) :
    Escaped b [92, 117, 48, 48, hexDigit (b.toNat / 16), hexDigit (b.toNat % 16)]
  | plain (quote : b ≠ 34) (slash : b ≠ 92) (high : ¬ b < 32) : Escaped b [b]

/-- Every byte is written in one of these ways.  The cases are those of the definition. -/
theorem escaped_escapeByte (b : UInt8) : Escaped b (escapeByte b) := by
  have hshort : ∀ c, shortEscape? c = some b → Escaped b [92, c] := by
    intro c hc
    refine .short c hc ?_
    -- The letter of a code point stands for no byte.
    rintro rfl
    cases hc
  unfold escapeByte
  split; · next h => exact hshort 34 (by rw [h]; rfl)
  split; · next h => exact hshort 92 (by rw [h]; rfl)
  split; · next h => exact hshort 98 (by rw [h]; rfl)
  split; · next h => exact hshort 102 (by rw [h]; rfl)
  split; · next h => exact hshort 110 (by rw [h]; rfl)
  split; · next h => exact hshort 114 (by rw [h]; rfl)
  split; · next h => exact hshort 116 (by rw [h]; rfl)
  split
  · next h => exact .control (UInt8.lt_iff_toNat_lt.1 h)
  · next hquote hslash _ _ _ _ _ hcontrol => exact .plain hquote hslash hcontrol

/-- A code point below 256 reads back from its four digits.  The first two digits are always zero
here, as only control characters are written so. -/
theorem unescapeFrom_digits {n : Nat} (h : n < 256) (rest : Bytes) :
    unescapeFrom .plain ([92, 117, 48, 48, hexDigit (n / 16), hexDigit (n % 16)] ++ rest)
      = (unescapeFrom .plain rest).map (codePoint n ++ ·) := by
  have hhigh := hexValue?_hexDigit (n / 16) (by omega)
  have hlow := hexValue?_hexDigit (n % 16) (by omega)
  have hvalue : n / 16 * 16 + n % 16 = n := Nat.div_add_mod' _ _
  have hfour : next (.unit 1 (n / 16)) (hexDigit (n % 16)) = some (.plain, codePoint n) := by
    simp [next, hlow, hvalue, finishUnit_of_lt h]
  have hthree : next (.unit 2 0) (hexDigit (n / 16)) = some (.unit 1 (n / 16), []) := by
    simp [next, hhigh]
  have hslash : next .plain 92 = some (.escape, []) := rfl
  have hunit : next .escape 117 = some (.unit 4 0, []) := rfl
  have hone : next (.unit 4 0) 48 = some (.unit 3 0, []) := rfl
  have htwo : next (.unit 3 0) 48 = some (.unit 2 0, []) := rfl
  simp only [List.cons_append, List.nil_append]
  rw [unescapeFrom_cons hslash, unescapeFrom_cons hunit, unescapeFrom_cons hone,
    unescapeFrom_cons htwo, unescapeFrom_cons hthree, unescapeFrom_cons hfour]
  cases unescapeFrom .plain rest <;> rfl

/-- A byte reads back from the bytes that stand for it, whatever comes after them. -/
theorem unescapeFrom_escapeByte (b : UInt8) (rest : Bytes) :
    unescapeFrom .plain (escapeByte b ++ rest) = (unescapeFrom .plain rest).map (b :: ·) := by
  have hwritten := escaped_escapeByte b
  generalize escapeByte b = written at hwritten
  cases hwritten with
  | short c reads ne =>
    have hslash : next .plain 92 = some (.escape, []) := rfl
    have hnext : next .escape c = some (.plain, [b]) := by simp [next, ne, reads]
    simp only [List.cons_append, List.nil_append]
    rw [unescapeFrom_cons hslash, unescapeFrom_cons hnext]
    cases unescapeFrom .plain rest <;> rfl
  | control low =>
    rw [unescapeFrom_digits b.toNat_lt, codePoint_of_lt _ low, UInt8.ofNat_toNat]
    rfl
  | plain quote slash high =>
    have hnext : next .plain b = some (.plain, [b]) := by simp [next, quote, slash, high]
    exact unescapeFrom_cons hnext rest

/-- An escaped byte string reads back, also if it is no text. -/
@[simp] theorem unescape_escape (bytes : Bytes) : unescape (escape bytes) = some bytes := by
  unfold unescape
  induction bytes with
  | nil => rfl
  | cons b rest ih =>
    have hcons : escape (b :: rest) = escapeByte b ++ escape rest := rfl
    rw [hcons, unescapeFrom_escapeByte, ih]
    rfl

/-! ### Between the quotes -/

/-- A reader takes every byte of the lexeme and is still between the quotes.  Then the next quote is
the one that ends the string. -/
def Closed (lexeme : Bytes) : Prop :=
  ∀ read done, lexeme.foldlM Scan.feed ⟨.string read, done⟩
    = some ⟨.string (lexeme.reverse ++ read), done⟩

theorem closed_nil : Closed [] := fun _ _ => rfl

theorem Closed.append {first second : Bytes} (hfirst : Closed first) (hsecond : Closed second) :
    Closed (first ++ second) := by
  intro read done
  rw [List.foldlM_append, hfirst read done]
  simpa using hsecond (first.reverse ++ read) done

/-- A reader stays between the quotes of four digits.  They are digits and letters, so none of them
is a quote or a backslash. -/
theorem closed_digits {n : Nat} (h : n < 256) :
    Closed [92, 117, 48, 48, hexDigit (n / 16), hexDigit (n % 16)] := by
  intro read done
  have hhigh := hexValue?_hexDigit (n / 16) (by omega)
  have hlow := hexValue?_hexDigit (n % 16) (by omega)
  have hzero : hexValue? 48 = some 0 := rfl
  simp [Scan.feed, hhigh, hlow, hzero]

theorem closed_escapeByte (b : UInt8) : Closed (escapeByte b) := by
  have hwritten := escaped_escapeByte b
  generalize escapeByte b = written at hwritten
  intro read done
  cases hwritten with
  | short c reads ne => simp [Scan.feed, reads, ne]
  | control low => exact closed_digits b.toNat_lt read done
  | plain quote slash high => simp [Scan.feed, quote, slash, high]

/-- A reader stays between the quotes of an escaped byte string.  The quotes inside it stand after a
backslash each. -/
theorem closed_escape (bytes : Bytes) : Closed (escape bytes) := by
  induction bytes with
  | nil => exact closed_nil
  | cons b rest ih => exact (closed_escapeByte b).append ih

end Text

/-- An escaped text reads back.  The bytes are those of a text, so they are taken for one. -/
@[simp] theorem lexemeText?_escape (text : String) :
    lexemeText? (Text.escape (Bytes.ofText text)) = some text := by
  simp [lexemeText?]

end BlogLedger.Json
