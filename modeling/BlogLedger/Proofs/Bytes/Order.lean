import BlogLedger.Bytes.Word
import Mathlib.Algebra.Group.Nat.Defs
import Mathlib.Data.List.Induction
import Mathlib.Data.Prod.Lex

/-!
# The order of encoded words

Eight big-endian bytes compare as the numbers that they write, so the keys of identifiers and times
lie in the store in numeric order.

The order of byte strings is the lexicographic one, so a comparison of keys goes from the front to
the back.  Codes of a fixed length can be put in front of others without a mark in between, and this
is how keys are built: a start, a time, a number.  `Bytes.KeepsOrder` says this of one code, and it
is closed under all the ways in which keys are put together; what is needed of keys is then an
instance, and no key is taken apart byte by byte.

## Main Definitions

* `Bytes.KeepsOrder` — codes of values compare exactly as the values do.

## Main Results

* `Bytes.append_lt_append_iff` — byte strings of one length in front decide first.
* `Bytes.KeepsOrder.append` — codes of one length in front of other codes compare as pairs.
* `Bytes.big64_lt_iff`, `Bytes.big64_inj` — the bytes of words compare as the words.
* `Bytes.ofBig64?_eq_some_iff` — eight bytes are the bytes of the word that they read as.
* `Bytes.little32_ofLittle32` — and so are four bytes, least significant first.
-/

namespace BlogLedger.Bytes

/-! ### Fronts of one length -/

/-- Among byte strings whose fronts have one length the fronts decide, and the rests after them.
For fronts of different lengths it is false: the shorter one could be a start of the other. -/
theorem append_lt_append_iff {a b : Bytes} (c d : Bytes) (h : a.length = b.length) :
    a ++ c < b ++ d ↔ a < b ∨ a = b ∧ c < d := by
  induction a generalizing b with
  | nil =>
    obtain rfl : b = [] := List.eq_nil_of_length_eq_zero h.symm
    simp
  | cons x a ih =>
    cases b with
    | nil => simp at h
    | cons y b =>
      have hlen : a.length = b.length := by simpa using h
      simp only [List.cons_append, List.cons_lt_cons_iff, ih hlen, List.cons.injEq]
      by_cases hxy : x = y <;> simp [hxy]

/-- A common front does not matter.  Keys of one part of the store share their start. -/
theorem append_lt_append_left_iff (front : Bytes) {c d : Bytes} :
    front ++ c < front ++ d ↔ c < d := by
  rw [append_lt_append_iff c d rfl]
  simp [List.lt_irrefl]

/-- What comes after a front does not matter against a byte string that is as long as the front.  It
is used for the end of a range, which has no rest. -/
theorem append_lt_iff {a b : Bytes} (c : Bytes) (h : a.length = b.length) :
    a ++ c < b ↔ a < b := by
  have hb : b = b ++ [] := (List.append_nil b).symm
  rw [hb, append_lt_append_iff c [] h]
  simp

/-- A byte string lies below every longer one whose front is not less.  The rest must not be empty,
as the two could be equal otherwise. -/
theorem lt_append_iff {a b c : Bytes} (h : a.length = b.length) (hc : c ≠ []) :
    a < b ++ c ↔ a < b ∨ a = b := by
  have ha : a = a ++ [] := (List.append_nil a).symm
  obtain ⟨x, rest, rfl⟩ := List.exists_cons_of_ne_nil hc
  rw [ha, append_lt_append_iff [] (x :: rest) h]
  simp [List.nil_lt_cons]

/-! ### Codes -/

/-- Among the values with `p`, codes compare exactly as what `view` shows of the values; and two
values have one code exactly when it shows the same of both.  The condition `p` is there because not
all values are coded in order: times before 1970 are not. -/
structure KeepsOrder {α β : Type} [LT β] (p : α → Prop) (code : α → Bytes) (view : α → β) :
    Prop where
  lt_iff : ∀ {x y}, p x → p y → (code x < code y ↔ view x < view y)
  eq_iff : ∀ {x y}, code x = code y ↔ view x = view y

namespace KeepsOrder

variable {α β γ δ : Type} [LT β] [LT δ] {p : α → Prop} {code rest : α → Bytes} {view : α → β}
  {restView : α → δ}

/-- A part of a value may be coded.  So the code of a number is one of everything that has a number. -/
theorem comap {q : γ → Prop} (h : KeepsOrder p code view) (part : γ → α)
    (hpart : ∀ c, q c → p (part c)) :
    KeepsOrder q (fun c => code (part c)) fun c => view (part c) where
  lt_iff hx hy := h.lt_iff (hpart _ hx) (hpart _ hy)
  eq_iff := h.eq_iff

/-- All codes may start with the same bytes.  It takes the order of numbers to that of keys. -/
theorem under (h : KeepsOrder p code view) (front : Bytes) :
    KeepsOrder p (fun x => front ++ code x) view where
  lt_iff hx hy := (append_lt_append_left_iff front).trans (h.lt_iff hx hy)
  eq_iff := (List.append_right_inj front).trans h.eq_iff

/-- Codes of one length in front of other codes compare as pairs.  It can be used again on the
result, for keys of three parts. -/
theorem append (h : KeepsOrder p code view) (hrest : KeepsOrder p rest restView)
    (hlength : ∀ x y, (code x).length = (code y).length) :
    KeepsOrder p (fun x => code x ++ rest x) fun x => toLex (view x, restView x) where
  lt_iff {x y} hx hy := by
    rw [append_lt_append_iff _ _ (hlength x y), h.lt_iff hx hy, h.eq_iff, hrest.lt_iff hx hy,
      Prod.Lex.toLex_lt_toLex]
  eq_iff {x y} := by
    rw [toLex_inj, Prod.mk.injEq, ← h.eq_iff, ← hrest.eq_iff]
    exact ⟨fun hsame => List.append_inj hsame (hlength x y), fun ⟨hfront, hback⟩ => by
      rw [hfront, hback]⟩

end KeepsOrder

/-! ### Digits -/

/-- Different numbers below a power of 256 have different digits.  The bound is needed, since digits
above the given count are dropped. -/
theorem bigDigits_inj {count m n : Nat} (hm : m < 256 ^ count) (hn : n < 256 ^ count)
    (h : bigDigits count m = bigDigits count n) : m = n := by
  have hval : m % 256 ^ count = n % 256 ^ count := by
    rw [← Nat.pow_eq, ← ofBigDigits_bigDigits, h, ofBigDigits_bigDigits]
  rwa [Nat.mod_eq_of_lt hm, Nat.mod_eq_of_lt hn] at hval

/-- Digits compare as the numbers that they write.  The most significant digit comes first; the
other order of bytes does not have this property. -/
theorem bigDigits_lt_iff {count m n : Nat} (hm : m < 256 ^ count) (hn : n < 256 ^ count) :
    bigDigits count m < bigDigits count n ↔ m < n := by
  induction count generalizing m n with
  | zero => simp [bigDigits]; omega
  | succ count ih =>
    rw [Nat.pow_succ] at hm hn
    have hm' : m / 256 < 256 ^ count := by omega
    have hn' : n / 256 < 256 ^ count := by omega
    have hfront : bigDigits count (m / 256) = bigDigits count (n / 256) ↔ m / 256 = n / 256 :=
      ⟨bigDigits_inj hm' hn', fun h => by rw [h]⟩
    have hlast : [UInt8.ofNat m] < [UInt8.ofNat n] ↔ m % 256 < n % 256 := by
      simp [List.cons_lt_cons_iff, UInt8.lt_iff_toNat_lt]
    rw [bigDigits, bigDigits, append_lt_append_iff _ _ (by simp), ih hm' hn', hfront, hlast]
    omega

/-! ### Words -/

theorem toNat_lt_pow (word : UInt64) : word.toNat < 256 ^ 8 := word.toNat_lt_size

/-- The bytes of two words compare as the words.  A word has eight digits to the base 256. -/
theorem big64_lt_iff {v w : UInt64} : big64 v < big64 w ↔ v < w := by
  rw [big64, big64, bigDigits_lt_iff (toNat_lt_pow v) (toNat_lt_pow w), UInt64.lt_iff_toNat_lt]

/-- Different words have different bytes, and so keys of different numbers are different. -/
@[simp] theorem big64_inj {v w : UInt64} : big64 v = big64 w ↔ v = w := by
  refine ⟨fun h => ?_, fun h => by rw [h]⟩
  exact UInt64.toNat_inj.1 (bigDigits_inj (toNat_lt_pow v) (toNat_lt_pow w) h)

/-- The bytes of words compare as the numbers.  All other instances are built from this one. -/
theorem keepsOrder_big64 : KeepsOrder (fun _ => True) big64 UInt64.toNat where
  lt_iff _ _ := big64_lt_iff.trans UInt64.lt_iff_toNat_lt
  eq_iff := big64_inj.trans UInt64.toNat_inj.symm

/-- The last eight bytes of a byte string that ends with a word are the word.  The handle of a task
is read from the end of its place in the queue in this way. -/
theorem drop_append_big64 (front : Bytes) (word : UInt64) :
    (front ++ big64 word).drop ((front ++ big64 word).length - 8) = big64 word := by
  rw [List.length_append, length_big64, Nat.add_sub_cancel, List.drop_left]

/-- Reading the digits of a word gives the word. -/
@[simp] theorem ofNat_ofBigDigits_big64 (word : UInt64) :
    UInt64.ofNat (ofBigDigits (big64 word)) = word := by
  have h := ofBig64?_big64 word
  rwa [ofBig64?, if_pos (length_big64 word), Option.some.injEq] at h

theorem ofBigDigits_lt (bytes : Bytes) : ofBigDigits bytes < 256 ^ bytes.length := by
  induction bytes using List.reverseRecOn with
  | nil => exact Nat.one_pos
  | append_singleton front last ih =>
    have hlast := last.toNat_lt
    rw [ofBigDigits_append, List.length_append, List.length_singleton, Nat.pow_succ]
    omega

/-- Byte strings are the digits of the number that they write.  So reading loses nothing, and bytes
that are read are known again. -/
theorem bigDigits_ofBigDigits (bytes : Bytes) :
    bigDigits bytes.length (ofBigDigits bytes) = bytes := by
  induction bytes using List.reverseRecOn with
  | nil => rfl
  | append_singleton front last ih =>
    have hlast := last.toNat_lt
    have hdiv : (ofBigDigits front * 256 + last.toNat) / 256 = ofBigDigits front := by omega
    have hmod : UInt8.ofNat (ofBigDigits front * 256 + last.toNat) = last := by
      apply UInt8.toNat_inj.1
      rw [UInt8.toNat_ofNat']
      omega
    rw [List.length_append, List.length_singleton, bigDigits, ofBigDigits_append, hdiv, hmod, ih]

/-- Bytes read as a word exactly when they are its eight bytes.  There is no second way to write a
word. -/
theorem ofBig64?_eq_some_iff {bytes : Bytes} {word : UInt64} :
    ofBig64? bytes = some word ↔ bytes = big64 word := by
  refine ⟨fun h => ?_, fun h => by rw [h, ofBig64?_big64]⟩
  unfold ofBig64? at h
  split at h
  · next hlength =>
    obtain rfl : UInt64.ofNat (ofBigDigits bytes) = word := Option.some.inj h
    have hlt := ofBigDigits_lt bytes
    rw [hlength] at hlt
    have hread := bigDigits_ofBigDigits bytes
    rw [hlength] at hread
    rw [big64, UInt64.toNat_ofNat_of_lt' hlt, hread]
  · cases h

/-- Four bytes are the bytes of the word that they read as.  The length and the checksum of a
journal record are written so. -/
theorem little32_ofLittle32 {bytes : Bytes} (h : bytes.length = 4) :
    little32 (ofLittle32 bytes) = bytes := by
  have hlt := ofBigDigits_lt bytes.reverse
  have hread := bigDigits_ofBigDigits bytes.reverse
  rw [List.length_reverse, h] at hlt hread
  have hword : (ofLittle32 bytes).toNat = ofBigDigits bytes.reverse := Nat.mod_eq_of_lt hlt
  rw [little32, hword, hread, List.reverse_reverse]

end BlogLedger.Bytes
