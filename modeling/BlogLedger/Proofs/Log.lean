import BlogLedger.Log
import BlogLedger.Proofs.Command.Answers
import BlogLedger.Proofs.Json.Fields
import BlogLedger.Proofs.Json.Line
import Mathlib.Data.List.Nodup
import Mathlib.Data.String.Basic

/-!
# Log lines that are read back

A line of the log is one JSON object, from which a reader gets what was logged and nothing else.

A log is read by lines, and its texts come from outside.  A text with a line feed or a quote in it
could otherwise end a line early, or pass for a member that nobody logged.  Hence what is shown is
how the line is read, by the reader of JSON that requests go through, and not how it looks.

## Main Definitions

* `Json.Text.Spells` — bytes between quotes, and the bytes that they stand for.
* `Json.texts?` — the members of an object of texts.
* `LogEntry.StablySorted` — fields in the order of their names.
* `LogEntry.Faithful` — what a reader gets from the line of an entry.

## Main Results

* `LogEntry.spells_escape` — an escaped text stands for that text, whatever characters it has.
* `LogEntry.ofText_line` — the line is the compact form of an object.
* `LogEntry.stablySorted_sortFields` — the fields are sorted.
* `LogEntry.faithful` — every line is read back.

## Design Notes

The log has an escaping of its own: fewer short escapes than the compact form, and digits for delete
and for the controls up to `0x9f` too.  It is followed through the reader character by character,
since an escape covers all bytes of its character.
-/

namespace BlogLedger

/-! ### Bytes between quotes -/

namespace Json

/-- Bytes between quotes, and the bytes that they stand for.  The reader of tokens must not end at
them and the unescaping must give them, whatever comes after, and there is no line feed among them.
Each of the three is closed under concatenation, so it is enough to look at single characters. -/
structure Text.Spells (lexeme read : Bytes) : Prop where
  closed : Closed lexeme
  reads : ∀ rest, unescapeFrom .plain (lexeme ++ rest) = (unescapeFrom .plain rest).map (read ++ ·)
  unbroken : (10 : UInt8) ∉ lexeme

/-- The members of an object of texts, in order.  It is the reader that a line is meant for, and
there is none if a member is no text. -/
def texts? : Json → Option (List (String × String))
  | .object members =>
    (namedMembers? members).bind fun named =>
      named.mapM fun m => m.2.text?.map fun text => (m.1, text)
  | _ => none

namespace Text

theorem Spells.nil : Spells [] [] := by
  refine ⟨closed_nil, fun rest => ?_, List.not_mem_nil⟩
  simp

theorem Spells.append {x y first second : Bytes} (hx : Spells x first) (hy : Spells y second) :
    Spells (x ++ y) (first ++ second) := by
  refine ⟨hx.closed.append hy.closed, fun rest => ?_, fun hmem => ?_⟩
  · rw [List.append_assoc, hx.reads, hy.reads, Option.map_map]
    simp [Function.comp_def]
  · exact (List.mem_append.1 hmem).elim hx.unbroken hy.unbroken

theorem Spells.flatMap {α : Type} {l : List α} {lexeme read : α → Bytes}
    (h : ∀ a ∈ l, Spells (lexeme a) (read a)) : Spells (l.flatMap lexeme) (l.flatMap read) := by
  induction l with
  | nil => exact .nil
  | cons a rest ih =>
    have hrest := ih fun b hb => h b (List.mem_cons_of_mem a hb)
    exact (h a List.mem_cons_self).append hrest

/-- What is spelled is read.  Here nothing comes after the bytes. -/
theorem Spells.unescape {lexeme read : Bytes} (h : Spells lexeme read) :
    unescape lexeme = some read := by
  have hreads := h.reads []
  rwa [List.append_nil, unescapeFrom, Option.map_some, List.append_nil] at hreads

/-- A byte after a backslash.  The letter of the escapes with digits is excluded, as the reader goes
on after it, and so is the line feed itself. -/
theorem spells_short {b c : UInt8} (reads : shortEscape? c = some b) (hunit : c ≠ 117)
    (hfeed : c ≠ 10) : Spells [92, c] [b] := by
  have hslash : next .plain 92 = some (.escape, []) := rfl
  have hnext : next .escape c = some (.plain, [b]) := by simp [next, hunit, reads]
  refine ⟨fun read done => ?_, fun rest => ?_, ?_⟩
  · simp [Scan.feed, reads, hunit]
  · simp only [List.cons_append, List.nil_append]
    rw [unescapeFrom_cons hslash, unescapeFrom_cons hnext]
    cases unescapeFrom .plain rest <;> rfl
  · simp [hfeed.symm]

/-- A code point below 256 by its four digits.  The first two are always zero, since no control
character has a greater code point. -/
theorem spells_digits {n : Nat} (h : n < 256) :
    Spells [92, 117, 48, 48, hexDigit (n / 16), hexDigit (n % 16)] (codePoint n) := by
  refine ⟨closed_digits h, unescapeFrom_digits h, ?_⟩
  have hdigit : ∀ k < 16, (10 : UInt8) ≠ hexDigit k := by decide
  have hhigh := hdigit (n / 16) (by omega)
  have hlow := hdigit (n % 16) (by omega)
  simp [hhigh, hlow]

/-- Bytes that stand for themselves.  A reader would stop at a quote, go on differently after a
backslash, and refuse a control byte. -/
theorem spells_plain {bytes : Bytes} (h : ∀ b ∈ bytes, 32 ≤ b ∧ b ≠ 34 ∧ b ≠ 92) :
    Spells bytes bytes := by
  induction bytes with
  | nil => exact .nil
  | cons b rest ih =>
    obtain ⟨hlow, hquote, hslash⟩ := h b List.mem_cons_self
    have hcontrol : ¬ b < 32 := UInt8.not_lt.2 hlow
    have hnext : next .plain b = some (.plain, [b]) := by simp [next, hquote, hslash, hcontrol]
    have hbyte : Spells [b] [b] := by
      refine ⟨fun read done => ?_, unescapeFrom_cons hnext, ?_⟩
      · simp [Scan.feed, hquote, hslash, hcontrol]
      · rw [List.mem_singleton]
        rintro rfl
        exact absurd hlow (by decide)
    exact hbyte.append (ih fun c hc => h c (List.mem_cons_of_mem b hc))

end Text

end Json

/-- Different events have different names.  So the event is determined by the line. -/
theorem Event.name_inj {e f : Event} : e.name = f.name ↔ e = f := by
  refine ⟨?_, congrArg Event.name⟩
  cases e <;> cases f <;> decide

/-- Different levels have different names.  So the level is determined by the line, too. -/
theorem Level.name_inj {l m : Level} : l.name = m.name ↔ l = m := by
  refine ⟨?_, congrArg Level.name⟩
  cases l <;> cases m <;> decide

namespace LogEntry

open Json.Text (Spells)

/-! ### Definitions -/

/-- Fields in the order of their names, where those of one name keep their order.  The three parts
say that nothing is lost, that it is sorted, and that the sorting is stable.  There is one such list
only. -/
structure StablySorted (sorted fields : List (String × String)) : Prop where
  perm : sorted.Perm fields
  ordered : sorted.Pairwise fun x y => x.1 ≤ y.1
  stable : ∀ name, (sorted.filter fun f => f.1 = name) = fields.filter fun f => f.1 = name

/-- What a reader gets from the line of an entry.  The parts cover the line by itself, the line
among others, and what can be concluded from it. -/
structure Faithful (e : LogEntry) : Prop where
  /-- One line feed ends the line, and there is no other. -/
  ends : Bytes.ofText e.written = Bytes.ofText e.line ++ [10] ∧ (10 : UInt8) ∉ Bytes.ofText e.line
  /-- Whatever is logged after it does not change the line.  The lines are cut as those of requests
  are. -/
  apart : ∀ more, Command.splitLines (Bytes.ofText e.written ++ more)
    = Bytes.ofText e.line :: Command.splitLines more
  /-- The line is one object, with the event and the level before the sorted fields. -/
  reads : ∃ sorted, StablySorted sorted e.fields
    ∧ (Json.parse? (Bytes.ofText e.line)).bind Json.texts?
      = some (("event", e.event.name) :: ("level", e.level.name) :: sorted)
  /-- The order in which fields of different names are given does not matter.  Fields of one name
  are kept in their order, so for them it does. -/
  permuted : ∀ fields, fields.Perm e.fields → (fields.map Prod.fst).Nodup →
    { e with fields := fields }.written = e.written
  /-- Only what was logged has this line.  The fields are known up to sorting, since the line has
  them sorted. -/
  determined : ∀ other : LogEntry, other.line = e.line →
    other.event = e.event ∧ other.level = e.level ∧ sortFields other.fields = sortFields e.fields

/-! ### Escaped texts -/

theorem utf8EncodeChar_hexDigit : ∀ n < 16,
    String.utf8EncodeChar (hexDigit n) = [Json.Text.hexDigit n] := by decide

theorem codePoint_toNat (c : Char) : Json.Text.codePoint c.toNat = String.utf8EncodeChar c := by
  rw [Json.Text.codePoint, Char.ofNat_toNat, Char.toString_eq_singleton, String.singleton_eq_ofList,
    Bytes.ofText_ofList, List.flatMap_singleton]

/-- A control character is written in four digits.  This includes delete and the controls after it,
which the compact form leaves as they are, and whose UTF-8 form can have two bytes. -/
theorem spells_control {c : Char} (h : isControl c = true) :
    Spells (['\\', 'u', '0', '0', hexDigit (c.toNat / 16), hexDigit (c.toNat % 16)].flatMap
      String.utf8EncodeChar) (String.utf8EncodeChar c) := by
  have hlt : c.toNat < 256 := by
    unfold isControl at h
    simp only [Bool.or_eq_true, Bool.and_eq_true, decide_eq_true_eq] at h
    omega
  have hhigh := utf8EncodeChar_hexDigit (c.toNat / 16) (by omega)
  have hlow := utf8EncodeChar_hexDigit (c.toNat % 16) (by omega)
  have hfront : ['\\', 'u', '0', '0'].flatMap String.utf8EncodeChar = [92, 117, 48, 48] := by decide
  have hdigits : [hexDigit (c.toNat / 16), hexDigit (c.toNat % 16)].flatMap String.utf8EncodeChar
      = [Json.Text.hexDigit (c.toNat / 16), Json.Text.hexDigit (c.toNat % 16)] := by
    rw [List.flatMap_cons, List.flatMap_singleton, hhigh, hlow]
    rfl
  rw [← codePoint_toNat]
  show Spells ((['\\', 'u', '0', '0'] ++ [hexDigit (c.toNat / 16), hexDigit (c.toNat % 16)]).flatMap
    String.utf8EncodeChar) _
  rw [List.flatMap_append, hfront, hdigits]
  exact Json.Text.spells_digits hlt

/-- The bytes of a character that is not escaped need no escape.  For an ASCII character this is
gone through.  The bytes of any other character have their highest bit set. -/
theorem plain_of_mem_utf8EncodeChar {c : Char} (hquote : c ≠ '\"') (hslash : c ≠ '\\')
    (hcontrol : isControl c = false) {b : UInt8} (hb : b ∈ String.utf8EncodeChar c) :
    32 ≤ b ∧ b ≠ 34 ∧ b ≠ 92 := by
  by_cases hascii : c.toNat < 128
  · rw [Bytes.utf8EncodeChar_of_lt hascii, List.mem_singleton] at hb
    rw [hb]
    exact Bytes.of_ascii (P := fun c => c ≠ '\"' ∧ c ≠ '\\' ∧ isControl c = false →
      32 ≤ UInt8.ofNat c.toNat ∧ UInt8.ofNat c.toNat ≠ 34 ∧ UInt8.ofNat c.toNat ≠ 92)
      (by decide +kernel) hascii ⟨hquote, hslash, hcontrol⟩
  · have hhigh := Json.le_of_mem_utf8EncodeChar (Nat.not_lt.1 hascii) hb
    refine ⟨UInt8.le_trans (by decide) hhigh, ?_, ?_⟩
    · rintro rfl
      exact absurd hhigh (by decide)
    · rintro rfl
      exact absurd hhigh (by decide)

/-- An escaped character stands for that character.  The cases are those of the escaping, in its
order. -/
theorem spells_escapeChar (c : Char) :
    Spells ((escapeChar c).flatMap String.utf8EncodeChar) (String.utf8EncodeChar c) := by
  unfold escapeChar
  split; · next h => rw [h]; exact Json.Text.spells_short (c := 34) rfl (by decide) (by decide)
  split; · next h => rw [h]; exact Json.Text.spells_short (c := 92) rfl (by decide) (by decide)
  split; · next h => rw [h]; exact Json.Text.spells_short (c := 110) rfl (by decide) (by decide)
  split; · next h => rw [h]; exact Json.Text.spells_short (c := 114) rfl (by decide) (by decide)
  split; · next h => rw [h]; exact Json.Text.spells_short (c := 116) rfl (by decide) (by decide)
  split
  · next hcontrol => exact spells_control hcontrol
  · next hquote hslash _ _ _ hcontrol =>
    rw [List.flatMap_singleton]
    exact Json.Text.spells_plain fun b hb =>
      plain_of_mem_utf8EncodeChar hquote hslash (Bool.not_eq_true _ ▸ hcontrol) hb

/-- An escaped text stands for that text.  It is the concatenation of its escaped characters. -/
theorem spells_escape (text : String) :
    Spells (Bytes.ofText (escape text)) (Bytes.ofText text) := by
  have hchars := Spells.flatMap (l := text.toList) fun c _ => spells_escapeChar c
  rw [escape, Bytes.ofText_ofList, List.flatMap_assoc]
  rwa [← Bytes.ofText_ofList, String.ofList_toList] at hchars

/-- An escaped text reads back.  The bytes are those of a text, so they are taken for one. -/
theorem lexemeText?_escape (text : String) :
    Json.lexemeText? (Bytes.ofText (escape text)) = some text := by
  rw [Json.lexemeText?, (spells_escape text).unescape, Option.bind_some, Bytes.toText?_ofText]

/-! ### The line as an object -/

/-- A member of the line: its name and its text between quotes.  It is given as the bytes that a
reader of JSON sees, before they are unescaped. -/
def lexemes (m : String × String) : Bytes × Json :=
  (Bytes.ofText (escape m.1), .string (Bytes.ofText (escape m.2)))

theorem ofText_member (m : String × String) : Bytes.ofText (member m.1 m.2)
    = Json.quote (lexemes m).1 ++ 58 :: (lexemes m).2.print := by
  have hquote : Bytes.ofText "\"" = [34] := by decide
  have hbetween : Bytes.ofText "\":\"" = [34, 58, 34] := by decide
  simp only [member, Bytes.ofText_append, hquote, hbetween]
  simp [lexemes, Json.print, Json.quote]

theorem ofText_members (ms : List (String × String)) :
    Bytes.ofText (String.intercalate "," (ms.map fun m => member m.1 m.2))
      = Json.printMembers (ms.map lexemes) := by
  have hcomma : Bytes.ofText "," = [44] := by decide
  induction ms with
  | nil => rfl
  | cons m rest ih =>
    cases rest with
    | nil =>
      rw [List.map_singleton, String.intercalate_singleton, ofText_member]
      rfl
    | cons n rest =>
      rw [List.map_cons, List.map_cons, String.intercalate_cons_cons, Bytes.ofText_append,
        Bytes.ofText_append, ← List.map_cons (f := fun m : String × String => member m.1 m.2), ih,
        ofText_member, hcomma]
      simp [Json.printMembers]

/-- The line is the compact form of an object.  With this the reader of JSON need not be followed
again: it is known to read every compact form back. -/
theorem ofText_line (e : LogEntry) :
    Bytes.ofText e.line = (Json.object (e.members.map lexemes)).print := by
  have hopen : Bytes.ofText "\x7b" = [123] := by decide
  have hclose : Bytes.ofText "\x7d" = [125] := by decide
  rw [line, Bytes.ofText_append, Bytes.ofText_append, ofText_members, hopen, hclose]
  simp [Json.print]

theorem written_object (ms : List (String × String)) :
    (Json.object (ms.map lexemes)).Written := by
  rw [Json.Written, Json.writtenMembers_iff, List.forall_mem_map]
  exact fun m _ => ⟨(spells_escape m.1).closed, (spells_escape m.2).closed⟩

/-- The members of the object are read back one by one.  Names may occur twice here, as fields of
one name are all kept. -/
theorem texts?_object (ms : List (String × String)) :
    (Json.object (ms.map lexemes)).texts? = some ms := by
  have hnamed : Json.namedMembers? (ms.map lexemes)
      = some (ms.map fun m => (m.1, (lexemes m).2)) := by
    rw [Json.namedMembers?, List.mapM_map]
    induction ms with
    | nil => rfl
    | cons m rest ih => simp [List.mapM_cons, ih, lexemes, lexemeText?_escape]
  rw [Json.texts?, hnamed, Option.bind_some, List.mapM_map]
  clear hnamed
  induction ms with
  | nil => rfl
  | cons m rest ih =>
    have hm : (lexemes m).2.text? = some m.2 := lexemeText?_escape m.2
    rw [List.mapM_cons, ih, Function.comp_apply, hm]
    rfl

/-- The members of a line are read back.  They are the event, the level, and the sorted fields. -/
theorem texts?_line (e : LogEntry) :
    (Json.parse? (Bytes.ofText e.line)).bind Json.texts? = some e.members := by
  rw [ofText_line, Json.parse?_print (written_object _), Option.bind_some, texts?_object]

/-! ### Sorting -/

theorem perm_insertField (f : String × String) (sorted : List (String × String)) :
    (insertField f sorted).Perm (f :: sorted) := by
  induction sorted with
  | nil => exact .refl _
  | cons g rest ih =>
    rw [insertField]
    split
    · exact .refl _
    · exact (ih.cons g).trans (.swap f g rest)

/-- A field is put where it keeps the order.  The induction is on the fields that are there. -/
theorem ordered_insertField (f : String × String) {sorted : List (String × String)}
    (h : sorted.Pairwise fun x y => x.1 ≤ y.1) :
    (insertField f sorted).Pairwise fun x y => x.1 ≤ y.1 := by
  induction sorted with
  | nil => exact List.pairwise_singleton _ _
  | cons g rest ih =>
    obtain ⟨hg, hrest⟩ := List.pairwise_cons.1 h
    rw [insertField]
    split
    · next hlt =>
      refine List.pairwise_cons.2 ⟨fun x hx => ?_, h⟩
      rcases List.mem_cons.1 hx with rfl | hx
      · exact le_of_lt hlt
      · exact le_trans (le_of_lt hlt) (hg x hx)
    · next hlt =>
      refine List.pairwise_cons.2 ⟨fun x hx => ?_, ih hrest⟩
      rcases List.mem_cons.1 ((perm_insertField f rest).mem_iff.1 hx) with rfl | hx
      · exact not_lt.1 hlt
      · exact hg x hx

/-- A field is put after those of its name.  That makes the sorting stable, as the fields are put in
one after the other. -/
theorem filter_insertField (f : String × String) {sorted : List (String × String)}
    (h : sorted.Pairwise fun x y => x.1 ≤ y.1) (name : String) :
    ((insertField f sorted).filter fun g => g.1 = name)
      = (sorted.filter fun g => g.1 = name) ++ [f].filter fun g => g.1 = name := by
  induction sorted with
  | nil => rfl
  | cons g rest ih =>
    obtain ⟨hg, hrest⟩ := List.pairwise_cons.1 h
    rw [insertField]
    split
    · next hlt =>
      by_cases hname : f.1 = name
      · -- No field from here on has the name.
        have hnone : ((g :: rest).filter fun g => g.1 = name) = [] := by
          rw [List.filter_eq_nil_iff]
          intro x hx
          have hle : g.1 ≤ x.1 := (List.mem_cons.1 hx).elim (fun h => h ▸ le_rfl) (hg x)
          simpa [hname] using (lt_of_lt_of_le hlt hle).ne'
        rw [List.filter_cons_of_pos (by simpa using hname), hnone]
        simp [hname]
      · simp [hname]
    · by_cases hname : g.1 = name
      · simp [hname, ih hrest]
      · simp [hname, ih hrest]

/-- Sorting goes on from fields that are sorted.  This is the invariant of the loop: after some of
the fields, they are sorted stably. -/
theorem StablySorted.foldl {sorted front : List (String × String)} (h : StablySorted sorted front)
    (rest : List (String × String)) :
    StablySorted (rest.foldl (fun sorted f => insertField f sorted) sorted) (front ++ rest) := by
  induction rest generalizing sorted front with
  | nil => rwa [List.append_nil]
  | cons f rest ih =>
    have hstep : StablySorted (insertField f sorted) (front ++ [f]) := by
      refine ⟨?_, ordered_insertField f h.ordered, fun name => ?_⟩
      · exact (perm_insertField f sorted).trans
          ((h.perm.cons f).trans (List.perm_append_singleton f front).symm)
      · rw [filter_insertField f h.ordered, h.stable, List.filter_append]
    have hrest := ih hstep
    rwa [List.append_assoc] at hrest

/-- The fields are sorted, and those of one name stand as they were given. -/
theorem stablySorted_sortFields (fields : List (String × String)) :
    StablySorted (sortFields fields) fields := by
  have hnil : StablySorted [] [] := ⟨.refl _, .nil, fun _ => rfl⟩
  exact hnil.foldl fields

/-- Fields of different names are sorted in one way only.  Two sorted lists of the same fields are
equal when no two fields compare equal. -/
theorem sortFields_perm {fields others : List (String × String)} (hperm : fields.Perm others)
    (hnames : (fields.map Prod.fst).Nodup) : sortFields fields = sortFields others := by
  have hfields := stablySorted_sortFields fields
  have hothers := stablySorted_sortFields others
  refine List.Perm.eq_of_pairwise (fun x y hx hy hxy hyx => ?_) hfields.ordered hothers.ordered
    (hfields.perm.trans (hperm.trans hothers.perm.symm))
  have hx' := hfields.perm.mem_iff.1 hx
  have hy' := hperm.mem_iff.2 (hothers.perm.mem_iff.1 hy)
  exact List.inj_on_of_nodup_map hnames hx' hy' (le_antisymm hxy hyx)

/-! ### Lines -/

theorem not_mem_printMembers (ms : List (String × String)) :
    (10 : UInt8) ∉ Json.printMembers (ms.map lexemes) := by
  have hmember : ∀ m : String × String,
      (10 : UInt8) ∉ Json.quote (lexemes m).1 ++ 58 :: (lexemes m).2.print := by
    intro m
    simp [lexemes, Json.print, Json.quote, (spells_escape m.1).unbroken,
      (spells_escape m.2).unbroken]
  induction ms with
  | nil => exact List.not_mem_nil
  | cons m rest ih =>
    cases rest with
    | nil => exact hmember m
    | cons n rest =>
      rw [List.map_cons, List.map_cons, Json.printMembers, ← List.map_cons, List.mem_append,
        List.mem_cons, not_or, not_or]
      · exact ⟨hmember m, by decide, ih⟩
      · exact List.cons_ne_nil _ _

/-- There is no line feed inside a line.  Names and texts are escaped, and the marks between them
are none. -/
theorem not_mem_line (e : LogEntry) : (10 : UInt8) ∉ Bytes.ofText e.line := by
  have hmembers := not_mem_printMembers e.members
  rw [ofText_line]
  simp [Json.print, hmembers]

/-- Every line is read back, whatever texts are logged. -/
theorem faithful (e : LogEntry) : e.Faithful := by
  have hwritten : Bytes.ofText e.written = Bytes.ofText e.line ++ [10] := Bytes.ofText_append _ _
  refine ⟨⟨hwritten, not_mem_line e⟩, fun more => ?_,
    ⟨_, stablySorted_sortFields e.fields, texts?_line e⟩, fun fields hperm hnames => ?_,
    fun other hline => ?_⟩
  · rw [hwritten, List.append_assoc]
    exact Command.splitLines_append (not_mem_line e) more
  · rw [written, written, line, line, members, members, sortFields_perm hperm hnames]
  · have hmembers := texts?_line other
    rw [hline, texts?_line, Option.some.injEq] at hmembers
    simp only [members, List.cons.injEq, Prod.mk.injEq, true_and] at hmembers
    obtain ⟨hevent, hlevel, hfields⟩ := hmembers
    exact ⟨Event.name_inj.1 hevent.symm, Level.name_inj.1 hlevel.symm, hfields.symm⟩

end LogEntry

end BlogLedger
