import BlogLedger.Failure
import BlogLedger.Proofs.Address
import BlogLedger.Proofs.Json.Line
import BlogLedger.Proofs.Timestamp.Calendar

/-!
# Times that are read back

A time is shown as plain seconds or as a calendar moment, and what reads it tries plain seconds
first.

Both forms are read by one reader, so neither may be taken for the other.  A moment before the year
0 or after the year 9999 is shown with a sign, and the reader does not know signs.  Such times are
shown but refused when they are read, and it is shown that they are exactly the times that are
refused.

## Main Definitions

* `Timestamp.year` — the calendar year of a time in Universal Time.
* `Timestamp.ReadsBack` — which times are read back from their text, and how the others are refused.

## Main Results

* `Calendar.read?_display` — a moment in a year of four digits is read back.
* `Calendar.read?_display_signed` — a year with a sign is not read.
* `Timestamp.ofDecimal?_toString` — plain seconds are read back.
* `Timestamp.readsBack` — every time is read back unless its year is shown with a sign.

## Design Notes

The text of a moment is never taken for plain seconds, since the `T` between date and time is
neither a digit nor a sign.
-/

namespace BlogLedger

/-! ### Digits -/

namespace Decimal

/-- A sign or a digit.  A text with any other byte is no number. -/
def IsNumeralByte (b : UInt8) : Prop := b = 45 ∨ b = 43 ∨ isDigit b = true

theorem isDigit_of_nat? {digits : Bytes} {n : Nat} (h : nat? digits = some n) :
    ∀ b ∈ digits, isDigit b = true := by
  unfold nat? at h
  split at h
  · cases h
  · next hguard =>
    simp only [Bool.or_eq_true, not_or, Bool.not_eq_true', Bool.not_eq_false] at hguard
    exact List.all_eq_true.1 hguard.2

/-- What reads as an integer has signs and digits only.  So a text that has a `T` in it is not read
as one. -/
theorem isNumeralByte_of_int? {bytes : Bytes} {i : Int} (h : int? bytes = some i) :
    ∀ b ∈ bytes, IsNumeralByte b := by
  have hdigits : ∀ {digits : Bytes} {n : Nat}, nat? digits = some n →
      ∀ b ∈ digits, IsNumeralByte b := fun hn b hb => .inr (.inr (isDigit_of_nat? hn b hb))
  unfold int? at h
  split at h
  · obtain ⟨m, hm, -⟩ := Option.map_eq_some_iff.1 h
    obtain ⟨n, hn, -⟩ := Option.bind_eq_some_iff.1 hm
    exact List.forall_mem_cons.2 ⟨.inl rfl, hdigits hn⟩
  · obtain ⟨n, hn, -⟩ := Option.map_eq_some_iff.1 h
    exact List.forall_mem_cons.2 ⟨.inr (.inl rfl), hdigits hn⟩
  · obtain ⟨n, hn, -⟩ := Option.map_eq_some_iff.1 h
    exact hdigits hn

theorem nat?_ofNat (n : Nat) : nat? (ofNat n) = some n := by
  have hall : (ofNat n).all isDigit = true :=
    List.all_eq_true.2 fun b hb => isDigit_of_mem_ofNat hb
  rw [nat?, hall, value_ofNat]
  simp

/-- The numeral of an integer reads back.  A negative one begins with a sign, and no other one does. -/
theorem int?_ofInt (i : Int) : int? (ofInt i) = some i := by
  cases i with
  | negSucc n =>
    rw [ofInt, int?, nat?_ofNat]
    rfl
  | ofNat n =>
    have hsign : ∀ b ∈ ofNat n, b ≠ 45 ∧ b ≠ 43 := by
      intro b hb
      have hdigit := isDigit_of_mem_ofNat hb
      constructor <;> (rintro rfl; exact absurd hdigit (by decide))
    rw [ofInt, int?]
    · rw [nat?_ofNat]
      rfl
    · exact fun digits h => (hsign 45 (by rw [h]; exact List.mem_cons_self)).1 rfl
    · exact fun digits h => (hsign 43 (by rw [h]; exact List.mem_cons_self)).2 rfl

theorem ofText_repr (n : Nat) : Bytes.ofText n.repr = ofNat n := by
  have hascii : ∀ c ∈ n.repr.toList, c.toNat < 128 := by
    intro c hc
    rw [Nat.toList_repr] at hc
    obtain ⟨-, hlow, hhigh⟩ := toNat_digitByte (isDigit_of_mem_toDigits hc)
    omega
  rw [Bytes.ofText_of_ascii hascii, Nat.toList_repr]
  exact (ofNat_eq_map n).symm

/-- The text of an integer is its numeral. -/
theorem ofText_toString (i : Int) : Bytes.ofText (toString i) = ofInt i := by
  cases i with
  | ofNat n => exact ofText_repr n
  | negSucc n =>
    show Bytes.ofText ("-" ++ (n + 1).repr) = 45 :: ofNat (n + 1)
    rw [Bytes.ofText_append, ofText_repr]
    rfl

end Decimal

/-- A digit is no blank.  So nothing is cut off a text of digits when its blanks are. -/
theorem Blank.isBlank_of_isDigit {c : Char} (h : c.isDigit = true) : isBlank c = false := by
  obtain ⟨-, hlow, hhigh⟩ := Decimal.toNat_digitByte h
  exact Bytes.of_ascii (P := fun c => c.isDigit = true → isBlank c = false) (by decide +kernel)
    (by omega) h

theorem Blank.trim_eq_self {text : String} (h : ∀ c ∈ text.toList, isBlank c = false) :
    trim text = text := by
  have htrim := trim_of_forall h
  rwa [String.ofList_toList] at htrim

namespace Calendar

/-- As many digits as are asked for are read off.  The number that was read so far is carried along,
so the induction is on the digits. -/
theorem digits?_append (digits : List Char) (h : ∀ c ∈ digits, c.isDigit = true) (acc : Nat)
    (rest : List Char) :
    digits? acc digits.length (digits ++ rest) = some (Nat.ofDigitChars 10 digits acc, rest) := by
  induction digits generalizing acc with
  | nil => rfl
  | cons c digits ih =>
    rw [List.length_cons, List.cons_append, digits?, if_pos (h c List.mem_cons_self),
      ih fun d hd => h d (List.mem_cons_of_mem c hd), Nat.ofDigitChars_cons]
    rfl

theorem toList_padded (width n : Nat) : (padded width n).toList
    = List.replicate (width - (Nat.toDigits 10 n).length) '0' ++ Nat.toDigits 10 n := by
  rw [padded, String.toList_ofList]

theorem isDigit_of_mem_padded {width n : Nat} {c : Char} (h : c ∈ (padded width n).toList) :
    c.isDigit = true := by
  rw [toList_padded] at h
  rcases List.mem_append.1 h with h | h
  · rw [List.eq_of_mem_replicate h]
    rfl
  · exact Decimal.isDigit_of_mem_toDigits h

/-- A number that fits is read off.  It is padded with zeros to its width, so the reader finds as
many digits as it asks for. -/
theorem digits?_padded {width n : Nat} (hwidth : 0 < width) (hn : n < 10 ^ width)
    (rest : List Char) : digits? 0 width ((padded width n).toList ++ rest) = some (n, rest) := by
  have hfits := (Nat.length_toDigits_le_iff (by decide) hwidth).2 hn
  have hlength : (padded width n).toList.length = width := by
    rw [toList_padded, List.length_append, List.length_replicate]
    omega
  have hvalue : Nat.ofDigitChars 10 (padded width n).toList 0 = n := by
    rw [toList_padded, Nat.ofDigitChars_append, Nat.ofDigitChars_replicate_zero, Nat.mul_zero,
      Nat.ofDigitChars_ten_toDigits]
  have hread := digits?_append (padded width n).toList (fun _ hc => isDigit_of_mem_padded hc) 0 rest
  rwa [hlength, hvalue] at hread

/-! ### Moments -/

/-- The parts of a shown moment.  The reader takes off one after the other. -/
theorem Moment.toList_display (m : Moment) : m.display.toList
    = (displayYear m.date.year).toList
      ++ '-' :: ((padded 2 m.date.month).toList
      ++ '-' :: ((padded 2 m.date.day).toList
      ++ 'T' :: ((padded 2 m.hour).toList
      ++ ':' :: ((padded 2 m.minute).toList
      ++ ':' :: ((padded 2 m.second).toList ++ "+00:00".toList))))) := by
  simp [display, String.toList_append]

/-- The characters of a shown moment are no blanks. -/
theorem Moment.isBlank_of_mem_display {m : Moment} {c : Char} (h : c ∈ m.display.toList) :
    Blank.isBlank c = false := by
  have hpadded : ∀ {width n : Nat}, ∀ c ∈ (padded width n).toList, Blank.isBlank c = false :=
    fun c hc => Blank.isBlank_of_isDigit (isDigit_of_mem_padded hc)
  have hyear : ∀ c ∈ (displayYear m.date.year).toList, Blank.isBlank c = false := by
    unfold displayYear
    split
    · rw [String.toList_append]
      exact List.forall_mem_cons.2 ⟨rfl, hpadded⟩
    · split
      · rw [String.toList_append]
        exact List.forall_mem_cons.2 ⟨rfl, hpadded⟩
      · exact hpadded
  have hoffset : "+00:00".toList.any Blank.isBlank = false := by decide
  rw [toList_display] at h
  simp only [List.mem_append, List.mem_cons] at h
  rcases h with h | rfl | h | rfl | h | rfl | h | rfl | h | rfl | h | h
  exacts [hyear c h, rfl, hpadded c h, rfl, hpadded c h, rfl, hpadded c h, rfl, hpadded c h, rfl,
    hpadded c h, Bool.eq_false_iff.2 (List.any_eq_false.1 hoffset c h)]

/-- A date in a year of four digits is read off.  The reader asks that the date exists. -/
theorem date?_append {d : Date} (h : d.IsValid) (hlow : 0 ≤ d.year) (hhigh : d.year ≤ 9999)
    (rest : List Char) :
    date? ((displayYear d.year).toList ++ '-' :: ((padded 2 d.month).toList
      ++ '-' :: ((padded 2 d.day).toList ++ rest))) = some (d, rest) := by
  have hmonth := h.2.1
  have hday := h.2.2.2
  have hdays : daysIn d.year d.month ≤ 31 := by
    unfold daysIn
    split <;> split <;> omega
  have hyear : displayYear d.year = padded 4 d.year.natAbs := by
    rw [displayYear, if_neg (Int.not_lt.2 hlow), if_neg (Int.not_lt.2 hhigh)]
  have hdate : Date.mk (d.year.natAbs : Int) d.month d.day = d := by
    rw [Int.natAbs_of_nonneg hlow]
  have hhyphen : ∀ rest : List Char, oneOf? ['-'] ('-' :: rest) = some rest := fun _ => rfl
  rw [date?, hyear, digits?_padded (by decide) (by omega)]
  simp only [Option.bind_eq_bind, Option.bind_some, hhyphen]
  rw [digits?_padded (by decide) (by omega)]
  simp only [Option.bind_some, hhyphen]
  rw [digits?_padded (by decide) (by omega)]
  simp only [Option.bind_some, hdate, if_pos h]

/-- A time of day is read off.  The bounds are those that the reader asks for. -/
theorem timeOfDay?_append {hour minute second : Nat} (hhour : hour ≤ 23) (hminute : minute ≤ 59)
    (hsecond : second ≤ 59) (rest : List Char) :
    timeOfDay? ((padded 2 hour).toList ++ ':' :: ((padded 2 minute).toList
      ++ ':' :: ((padded 2 second).toList ++ rest))) = some ((hour, minute, second), rest) := by
  have hcolon : ∀ rest : List Char, oneOf? [':'] (':' :: rest) = some rest := fun _ => rfl
  rw [timeOfDay?, digits?_padded (by decide) (by omega)]
  simp only [Option.bind_eq_bind, Option.bind_some, hcolon]
  rw [digits?_padded (by decide) (by omega)]
  simp only [Option.bind_some, hcolon]
  rw [digits?_padded (by decide) (by omega)]
  simp only [Option.bind_some]
  rw [if_pos ⟨hhour, hminute, by omega⟩, Nat.min_eq_left hsecond]

/-- A moment in a year of four digits is read back.  It is the moment of some seconds, so its parts
are within the bounds of the reader. -/
theorem read?_display {m : Moment} {s : Int} (h : m.IsAt s) (hlow : 0 ≤ m.date.year)
    (hhigh : m.date.year ≤ 9999) : read? m.display.toList = some s := by
  have hseparator : ∀ rest : List Char, oneOf? ['T', 't', ' '] ('T' :: rest) = some rest :=
    fun _ => rfl
  have hfraction : dropFraction? "+00:00".toList = some "+00:00".toList := rfl
  have hoffset : offset? "+00:00".toList = some 0 := by decide
  rw [read?, m.toList_display, date?_append h.date hlow hhigh]
  simp only [Option.bind_eq_bind, Option.bind_some, hseparator]
  rw [timeOfDay?_append h.hour h.minute h.second]
  simp only [Option.bind_some, hfraction, hoffset, Option.pure_def, Int.sub_zero]
  rw [← h.seconds]

/-- A year with a sign is not read.  The first character should be a digit. -/
theorem read?_display_signed {m : Moment} (h : m.date.year < 0 ∨ 9999 < m.date.year) :
    read? m.display.toList = none := by
  have hdate : ∀ (sign : Char) (rest : List Char), sign.isDigit = false →
      date? (sign :: rest) = none := by
    intro sign rest hsign
    rw [date?, digits?, hsign]
    rfl
  obtain ⟨sign, rest, hsign, hyear⟩ : ∃ (sign : Char) (rest : List Char), sign.isDigit = false
      ∧ (displayYear m.date.year).toList = sign :: rest := by
    unfold displayYear
    split
    · rw [String.toList_append]
      exact ⟨'-', _, rfl, rfl⟩
    · rw [if_pos (by omega), String.toList_append]
      exact ⟨'+', _, rfl, rfl⟩
  rw [read?, m.toList_display, hyear, List.cons_append, hdate sign _ hsign]
  rfl

end Calendar

namespace Timestamp

open Calendar (momentOf isAt_momentOf)

/-! ### Definitions -/

/-- The calendar year of a time in Universal Time.  Whether a time is read back depends on it alone. -/
def year (t : Timestamp) : Int := (momentOf t.toInt).date.year

/-- Which times are read back from their text, and how the others are refused.  The parts cover
every time: those without a date, those in a year of four digits, and the rest. -/
structure ReadsBack (t : Timestamp) : Prop where
  /-- The year is that of the moment that lies as far from the start of 1970. -/
  moment : (momentOf t.toInt).IsAt t.toInt
  /-- A time that the calendar cannot show is written as plain seconds, and it is read back from
  them. -/
  plain : ¬ t.IsRepresentable → t.display = toString t.toInt ∧ read t.display = .ok t
  dated : t.IsRepresentable → 0 ≤ t.year → t.year ≤ 9999 → read t.display = .ok t
  refused : t.IsRepresentable → t.year < 0 ∨ 9999 < t.year →
    ∃ f, read t.display = .error f ∧ f.cause = .unreadableTime t.display ∧ f.code = .validation

/-! ### Plain seconds -/

/-- Plain seconds are read back.  A time has 64 bits, so its seconds are never out of range. -/
theorem ofDecimal?_toString (t : Timestamp) : ofDecimal? (toString t.toInt) = some t := by
  rw [ofDecimal?, Decimal.ofText_toString, Decimal.int?_ofInt, Option.bind_some, toInt,
    Word.ofInt?_toInt]
  rfl

/-- A text with a character that no number has is not read as plain seconds.  So the reader goes on
to read it as a moment. -/
theorem ofDecimal?_of_mem {text : String} {b : UInt8} (hmem : b ∈ Bytes.ofText text)
    (hb : ¬ Decimal.IsNumeralByte b) : ofDecimal? text = none := by
  have hnone : Decimal.int? (Bytes.ofText text) = none := by
    rw [Option.eq_none_iff_forall_ne_some]
    intro i hi
    exact hb (Decimal.isNumeralByte_of_int? hi b hmem)
  rw [ofDecimal?, hnone]
  rfl

theorem ofDecimal?_display (m : Calendar.Moment) : ofDecimal? m.display = none := by
  refine ofDecimal?_of_mem (b := 84) ?_ ?_
  · have hmark : (84 : UInt8) ∈ Bytes.ofText "T" := by decide
    unfold Calendar.Moment.display
    simp only [Bytes.ofText_append, List.mem_append, hmark, true_or, or_true]
  · unfold Decimal.IsNumeralByte
    decide

/-! ### Reading -/

theorem read_eq_ok {text : String} {time : Timestamp} (htrim : Blank.trim text = text)
    (h : ofText? text = some time) : read text = .ok time := by
  simp only [read, read?, htrim, h]

theorem read_eq_fail {text : String} (htrim : Blank.trim text = text) (h : ofText? text = none) :
    read text = fail (.unreadableTime text) := by
  simp only [read, read?, htrim, h]

theorem trim_toString (i : Int) : Blank.trim (toString i) = toString i := by
  have hrepr : ∀ n : Nat, ∀ c ∈ n.repr.toList, Blank.isBlank c = false := by
    intro n c hc
    rw [Nat.toList_repr] at hc
    exact Blank.isBlank_of_isDigit (Decimal.isDigit_of_mem_toDigits hc)
  refine Blank.trim_eq_self ?_
  cases i with
  | ofNat n => exact hrepr n
  | negSucc n =>
    show ∀ c ∈ ("-" ++ (n + 1).repr).toList, Blank.isBlank c = false
    rw [String.toList_append]
    exact List.forall_mem_cons.2 ⟨rfl, hrepr (n + 1)⟩

theorem trim_display (m : Calendar.Moment) : Blank.trim m.display = m.display :=
  Blank.trim_eq_self fun _ => m.isBlank_of_mem_display

/-- The text of a moment is read as the calendar reads it.  Nothing is cut off at its ends, and it
is not taken for plain seconds. -/
theorem ofText?_display (m : Calendar.Moment) : ofText? m.display
    = (Calendar.read? m.display.toList).map fun s => ⟨Int64.ofInt s⟩ := by
  rw [ofText?, ofDecimal?_display, Option.none_or]

/-- Every time is read back unless its year is shown with a sign. -/
theorem readsBack (t : Timestamp) : Calendar.IsGregorian ∧ t.ReadsBack := by
  have hmoment := isAt_momentOf t.toInt
  have hshown : t.IsRepresentable → t.display = (momentOf t.toInt).display := by
    intro h
    rw [display, moment?, if_pos h]
  refine ⟨Calendar.isGregorian, hmoment, fun h => ?_, fun h hlow hhigh => ?_, fun h hyear => ?_⟩
  · have hplain : t.display = toString t.toInt := by rw [display, moment?, if_neg h]
    have htext : ofText? (toString t.toInt) = some t := by
      rw [ofText?, ofDecimal?_toString, Option.some_or]
    rw [hplain]
    exact ⟨rfl, read_eq_ok (trim_toString _) htext⟩
  · have htext : ofText? (momentOf t.toInt).display = some t := by
      rw [ofText?_display, Calendar.read?_display hmoment hlow hhigh, Option.map_some, toInt,
        Int64.ofInt_toInt]
    rw [hshown h]
    exact read_eq_ok (trim_display _) htext
  · have htext : ofText? (momentOf t.toInt).display = none := by
      rw [ofText?_display, Calendar.read?_display_signed hyear, Option.map_none]
    rw [hshown h]
    exact ⟨_, read_eq_fail (trim_display _) htext, rfl, rfl⟩

example : (⟨-8334601228800⟩ : Timestamp).display = "-262143-01-01T00:00:00+00:00" := by
  decide +kernel

end Timestamp

end BlogLedger
