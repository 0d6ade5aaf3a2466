import BlogLedger.Json.Parser
import BlogLedger.Json.Printer
import BlogLedger.Proofs.Json.Lexeme
import BlogLedger.Proofs.Json.Numeral

/-!
# Printed values are read back

The compact form of a value is cut into the tokens of the value, and the tokens build the value
again.

Text is read in two stages with a row of tokens in between, and both stages are machines that take
one byte or one token at a time.  A printed value is therefore followed through both.  The
difficulty is with numbers and words, which have no mark at their end: the reader of tokens has such
a token only when the next byte has come.  So the invariant says what would be the case if the text
ended here, and also if a mark came next.

## Main Definitions

* `Json.Written` — every lexeme in a value is one that the ledger could have written.
* `Json.tokens` — the tokens of a value.

## Main Results

* `Json.tokens?_print` — the compact form is cut into the tokens of the value.
* `Json.foldlM_tokens` — the tokens of a value build the value.
* `Json.parse?_print` — a value reads back from its compact form.
-/

namespace BlogLedger.Json

/-! ### Written values -/

/-- A number lexeme: bytes of a number, the first of which starts one, and a literal as a whole.  It
is all that the reader of tokens asks for. -/
structure NumberLexeme (lexeme : Bytes) : Prop where
  starts : ∃ b rest, lexeme = b :: rest ∧ (b = 45 ∨ Decimal.isDigit b = true)
  numeric : ∀ b ∈ lexeme, Scan.isNumeric b = true
  literal : (Number.literal? lexeme).isSome = true

mutual

/-- Every number is a number lexeme, and every string and name stays between its quotes.  It is
asked of lexemes and not of values, so a value that was read could be printed too. -/
def Written : Json → Prop
  | .number lexeme => NumberLexeme lexeme
  | .string lexeme => Text.Closed lexeme
  | .array items => WrittenItems items
  | .object members => WrittenMembers members
  | _ => True

/-- Every item is written. -/
def WrittenItems : List Json → Prop
  | [] => True
  | item :: rest => item.Written ∧ WrittenItems rest

/-- Every name and every value is written. -/
def WrittenMembers : List (Bytes × Json) → Prop
  | [] => True
  | (name, value) :: rest => Text.Closed name ∧ value.Written ∧ WrittenMembers rest

end

theorem writtenItems_iff {items : List Json} :
    WrittenItems items ↔ ∀ item ∈ items, item.Written := by
  induction items with
  | nil => simp [WrittenItems]
  | cons item rest ih => simp [WrittenItems, ih]

theorem writtenMembers_iff {members : List (Bytes × Json)} :
    WrittenMembers members ↔ ∀ m ∈ members, Text.Closed m.1 ∧ m.2.Written := by
  induction members with
  | nil => simp [WrittenMembers]
  | cons m rest ih => simp [WrittenMembers, ih, and_assoc]

theorem numberLexeme_ofInt (i : Int) : NumberLexeme (Decimal.ofInt i) := by
  have hdigits : ∀ n : Nat, ∀ b ∈ Decimal.ofNat n, Scan.isNumeric b = true := by
    intro n b hb
    simp [Scan.isNumeric, Decimal.isDigit_of_mem_ofNat hb]
  refine ⟨?_, ?_, by simp [Number.literal?_ofInt]⟩
  · cases i with
    | negSucc n => exact ⟨45, _, rfl, .inl rfl⟩
    | ofNat n =>
      obtain ⟨b, rest, hb⟩ := List.exists_cons_of_ne_nil (Decimal.ofNat_ne_nil n)
      exact ⟨b, rest, hb, .inr (Decimal.isDigit_of_mem_ofNat (hb ▸ List.mem_cons_self))⟩
  · cases i with
    | ofNat n => exact hdigits n
    | negSucc n =>
      intro b hb
      rcases List.mem_cons.1 hb with rfl | hb
      · rfl
      · exact hdigits _ b hb

@[simp] theorem written_ofInt (i : Int) : (ofInt i).Written := numberLexeme_ofInt i

@[simp] theorem written_ofNat (n : Nat) : (ofNat n).Written := numberLexeme_ofInt n

@[simp] theorem written_ofText (text : String) : (ofText text).Written :=
  Text.closed_escape (Bytes.ofText text)

@[simp] theorem written_array {items : List Json} :
    (array items).Written ↔ ∀ item ∈ items, item.Written :=
  writtenItems_iff

@[simp] theorem written_ofMembers {members : List (String × Json)} :
    (ofMembers members).Written ↔ ∀ m ∈ members, m.2.Written := by
  simp only [ofMembers, Written, writtenMembers_iff, List.forall_mem_map]
  exact forall₂_congr fun m _ => and_iff_right (Text.closed_escape _)

/-! ### Tokens of a value -/

mutual

/-- The tokens of a value, without blanks.  The row of tokens is what both stages have in common. -/
def tokens : Json → List Token
  | .null => [.scalar .null]
  | .bool b => [.scalar (.bool b)]
  | .number lexeme => [.scalar (.number lexeme)]
  | .string lexeme => [.string lexeme]
  | .array items => .openArray :: (itemTokens items ++ [Token.closeArray])
  | .object members => .openObject :: (memberTokens members ++ [Token.closeObject])

/-- The tokens of items with commas between them. -/
def itemTokens : List Json → List Token
  | [] => []
  | [item] => item.tokens
  | item :: rest => item.tokens ++ .comma :: itemTokens rest

/-- The tokens of members with commas between them. -/
def memberTokens : List (Bytes × Json) → List Token
  | [] => []
  | [(name, value)] => .string name :: .colon :: value.tokens
  | (name, value) :: rest =>
    .string name :: .colon :: (value.tokens ++ .comma :: memberTokens rest)

end

/-! ### Scanning -/

/-- A reader that has the given tokens, in reverse order: the text may end here, and a mark may
follow.  A number or a word that was read last is settled only then. -/
structure Settled (s : Scan) (done : List Token) : Prop where
  finish : s.finish = some done.reverse
  mark : ∀ b token, Scan.mark? b = some token → s.feed b = some ⟨.between, token :: done⟩

theorem settled_between (done : List Token) : Settled ⟨.between, done⟩ done := by
  refine ⟨rfl, fun b token hb => ?_⟩
  simp [Scan.feed, Scan.begin, hb]

theorem mark?_eq_some {b : UInt8} {token : Token} (h : Scan.mark? b = some token) :
    b = 91 ∨ b = 93 ∨ b = 123 ∨ b = 125 ∨ b = 58 ∨ b = 44 := by
  unfold Scan.mark? at h
  grind

theorem settled_number {read : Bytes} {done : List Token}
    (h : (Number.literal? read.reverse).isSome = true) :
    Settled ⟨.number read, done⟩ (.scalar (.number read.reverse) :: done) := by
  have hnumber : Scan.number? read.reverse = some (.scalar (.number read.reverse)) := by
    simp [Scan.number?, h]
  refine ⟨by simp [Scan.finish, hnumber], fun b token hb => ?_⟩
  have hnumeric : Scan.isNumeric b = false := by
    rcases mark?_eq_some hb with rfl | rfl | rfl | rfl | rfl | rfl <;> rfl
  simp [Scan.feed, hnumeric, hnumber, Scan.begin, hb]

theorem settled_word {read : Bytes} {token : Token} {done : List Token}
    (h : Scan.word? read.reverse = some token) : Settled ⟨.word read, done⟩ (token :: done) := by
  refine ⟨by simp [Scan.finish, h], fun b mark hb => ?_⟩
  have hletter : Scan.isLetter b = false := by
    rcases mark?_eq_some hb with rfl | rfl | rfl | rfl | rfl | rfl <;> rfl
  simp [Scan.feed, hletter, h, Scan.begin, hb]

theorem foldlM_numeric {bytes : Bytes} (h : ∀ b ∈ bytes, Scan.isNumeric b = true) (read : Bytes)
    (done : List Token) :
    bytes.foldlM Scan.feed ⟨.number read, done⟩ = some ⟨.number (bytes.reverse ++ read), done⟩ := by
  induction bytes generalizing read with
  | nil => rfl
  | cons b rest ih =>
    have hb := h b List.mem_cons_self
    have hrest := ih (fun d hd => h d (List.mem_cons_of_mem _ hd)) (b :: read)
    simp only [List.foldlM_cons, Scan.feed, hb, if_true]
    simpa using hrest

theorem scan_number {lexeme : Bytes} (h : NumberLexeme lexeme) (done : List Token) :
    ∃ s, lexeme.foldlM Scan.feed ⟨.between, done⟩ = some s
      ∧ Settled s (.scalar (.number lexeme) :: done) := by
  obtain ⟨b, rest, rfl, hb⟩ := h.starts
  -- The first byte of a number begins no other token.
  have hbegin : Scan.begin done b = some ⟨.number [b], done⟩ := by
    have hmark : Scan.mark? b = none := by
      cases hm : Scan.mark? b with
      | none => rfl
      | some token =>
        rcases mark?_eq_some hm with rfl | rfl | rfl | rfl | rfl | rfl <;>
          simp [Decimal.isDigit] at hb
    have hspace : Scan.isSpace b = false := by
      rcases hb with rfl | hb
      · rfl
      · unfold Decimal.isDigit at hb
        unfold Scan.isSpace
        grind
    have hquote : b ≠ 34 := by
      rintro rfl
      simp [Decimal.isDigit] at hb
    rcases hb with rfl | hb
    · rfl
    · simp [Scan.begin, hmark, hspace, hquote, hb]
  have hrest := foldlM_numeric (fun d hd => h.numeric d (List.mem_cons_of_mem _ hd)) [b] done
  have hreverse : (rest.reverse ++ [b]).reverse = b :: rest := by simp
  refine ⟨⟨.number (rest.reverse ++ [b]), done⟩, ?_, ?_⟩
  · rw [List.foldlM_cons]
    show (Scan.begin done b).bind _ = _
    rw [hbegin]
    exact hrest
  · rw [← hreverse]
    exact settled_number (hreverse ▸ h.literal)

theorem foldlM_quote {lexeme : Bytes} (h : Text.Closed lexeme) (done : List Token) :
    (quote lexeme).foldlM Scan.feed ⟨.between, done⟩
      = some ⟨.between, .string lexeme :: done⟩ := by
  have hopen : Scan.feed ⟨.between, done⟩ 34 = some ⟨.string [], done⟩ := rfl
  rw [quote, List.foldlM_cons, hopen]
  show (lexeme ++ [34]).foldlM Scan.feed ⟨.string [], done⟩ = _
  rw [List.foldlM_append, h [] done]
  simp [Scan.feed]

mutual

/-- The compact form of a value is cut into the tokens of the value.  The recursion is over the
value, together with its items and its members. -/
theorem scan_print (j : Json) (h : j.Written) (done : List Token) :
    ∃ s, j.print.foldlM Scan.feed ⟨.between, done⟩ = some s
      ∧ Settled s (j.tokens.reverse ++ done) := by
  cases j with
  | null => exact ⟨_, rfl, settled_word rfl⟩
  | bool b => cases b <;> exact ⟨_, rfl, settled_word rfl⟩
  | number lexeme =>
    rw [Written] at h
    exact scan_number h done
  | string lexeme =>
    rw [Written] at h
    exact ⟨_, foldlM_quote h done, settled_between _⟩
  | array items =>
    obtain ⟨s, hs, hsettled⟩ := scan_items items h (.openArray :: done)
    have hopen : Scan.feed ⟨.between, done⟩ 91 = some ⟨.between, .openArray :: done⟩ := rfl
    have hclose := hsettled.mark 93 .closeArray rfl
    refine ⟨⟨.between, (tokens (.array items)).reverse ++ done⟩, ?_, settled_between _⟩
    simp [print, tokens, List.foldlM_append, hopen, hs, hclose]
  | object members =>
    obtain ⟨s, hs, hsettled⟩ := scan_members members h (.openObject :: done)
    have hopen : Scan.feed ⟨.between, done⟩ 123 = some ⟨.between, .openObject :: done⟩ := rfl
    have hclose := hsettled.mark 125 .closeObject rfl
    refine ⟨⟨.between, (tokens (.object members)).reverse ++ done⟩, ?_, settled_between _⟩
    simp [print, tokens, List.foldlM_append, hopen, hs, hclose]

/-- The compact form of items is cut into the tokens of the items. -/
theorem scan_items (items : List Json) (h : WrittenItems items) (done : List Token) :
    ∃ s, (printItems items).foldlM Scan.feed ⟨.between, done⟩ = some s
      ∧ Settled s ((itemTokens items).reverse ++ done) := by
  match items, h with
  | [], _ => exact ⟨_, rfl, settled_between _⟩
  | [item], h => exact scan_print item h.1 done
  | item :: next :: rest, h =>
    obtain ⟨s, hs, hsettled⟩ := scan_print item h.1 done
    have hcomma := hsettled.mark 44 .comma rfl
    obtain ⟨t, ht, htsettled⟩ :=
      scan_items (next :: rest) h.2 (.comma :: (item.tokens.reverse ++ done))
    refine ⟨t, ?_, ?_⟩
    · simp [printItems, List.foldlM_append, hs, hcomma, ht]
    · simpa [itemTokens] using htsettled

/-- The compact form of members is cut into the tokens of the members. -/
theorem scan_members (members : List (Bytes × Json)) (h : WrittenMembers members)
    (done : List Token) :
    ∃ s, (printMembers members).foldlM Scan.feed ⟨.between, done⟩ = some s
      ∧ Settled s ((memberTokens members).reverse ++ done) := by
  have hcolon : ∀ name : Bytes, Scan.feed ⟨.between, .string name :: done⟩ 58
      = some ⟨.between, .colon :: .string name :: done⟩ := fun _ => rfl
  match members, h with
  | [], _ => exact ⟨_, rfl, settled_between _⟩
  | [(name, value)], h =>
    obtain ⟨s, hs, hsettled⟩ := scan_print value h.2.1 (.colon :: .string name :: done)
    refine ⟨s, ?_, ?_⟩
    · simp [printMembers, List.foldlM_append, foldlM_quote h.1, hcolon, hs]
    · simpa [memberTokens] using hsettled
  | (name, value) :: next :: rest, h =>
    obtain ⟨s, hs, hsettled⟩ := scan_print value h.2.1 (.colon :: .string name :: done)
    have hcomma := hsettled.mark 44 .comma rfl
    obtain ⟨t, ht, htsettled⟩ := scan_members (next :: rest) h.2.2
      (.comma :: (value.tokens.reverse ++ .colon :: .string name :: done))
    refine ⟨t, ?_, ?_⟩
    · simp [printMembers, List.foldlM_append, foldlM_quote h.1, hcolon, hs, hcomma, ht]
    · simpa [memberTokens] using htsettled

end

/-- The compact form of a value is cut into the tokens of the value.  Here the reader starts with
nothing and the text ends. -/
theorem tokens?_print {j : Json} (h : j.Written) : tokens? j.print = some j.tokens := by
  obtain ⟨s, hs, hsettled⟩ := scan_print j h []
  have hfinish : s.finish = some j.tokens := by simpa using hsettled.finish
  rw [tokens?, Scan.start, hs]
  exact hfinish

/-! ### Building -/

/-- The first token of a value decides as where any value may stand, also in an empty array.  After
it, it is no longer seen that the array was empty. -/
theorem feed_firstItem (j : Json) (frames : List Frame) (rest : List Token) :
    (j.tokens ++ rest).foldlM Build.feed ⟨.firstItem, frames⟩
      = (j.tokens ++ rest).foldlM Build.feed ⟨.value, .array [] :: frames⟩ := by
  cases j <;> simp [tokens, Build.feed]

mutual

/-- The tokens of a value build the value, whatever is still open around it.  The recursion is over
the value, and what is open is carried along unchanged. -/
theorem foldlM_tokens (j : Json) (frames : List Frame) :
    j.tokens.foldlM Build.feed ⟨.value, frames⟩ = some ⟨.after j, frames⟩ := by
  cases j with
  | null | bool | number | string => rfl
  | array items =>
    have hopen : Build.feed ⟨.value, frames⟩ .openArray = some ⟨.firstItem, frames⟩ := rfl
    rw [tokens, List.foldlM_cons, hopen]
    match items with
    | [] => rfl
    | item :: rest =>
      have hfirst : (itemTokens (item :: rest) ++ [Token.closeArray]).foldlM Build.feed
          ⟨.firstItem, frames⟩ = (itemTokens (item :: rest) ++ [Token.closeArray]).foldlM
            Build.feed ⟨.value, .array [] :: frames⟩ := by
        cases rest with
        | nil => exact feed_firstItem item frames _
        | cons next rest =>
          have h := feed_firstItem item frames
            (.comma :: itemTokens (next :: rest) ++ [.closeArray])
          rwa [← List.append_assoc] at h
      exact hfirst.trans (foldlM_itemTokens (item :: rest) (by simp) [] frames)
  | object members =>
    have hopen : Build.feed ⟨.value, frames⟩ .openObject = some ⟨.firstName, frames⟩ := rfl
    rw [tokens, List.foldlM_cons, hopen]
    match members with
    | [] => rfl
    | (name, value) :: rest =>
      have hfirst : (memberTokens ((name, value) :: rest) ++ [Token.closeObject]).foldlM
          Build.feed ⟨.firstName, frames⟩ = (memberTokens ((name, value) :: rest)
            ++ [Token.closeObject]).foldlM Build.feed ⟨.name [], frames⟩ := by
        cases rest <;> rfl
      exact hfirst.trans (foldlM_memberTokens ((name, value) :: rest) (by simp) [] frames)

/-- The tokens of items and the end of the array add the items to those read before.  For an empty
array there is another rule, as there is no value before its end. -/
theorem foldlM_itemTokens (items : List Json) (h : items ≠ []) (read : List Json)
    (frames : List Frame) :
    (itemTokens items ++ [Token.closeArray]).foldlM Build.feed ⟨.value, .array read :: frames⟩
      = some ⟨.after (.array (read.reverse ++ items)), frames⟩ := by
  match items, h with
  | [item], _ =>
    rw [itemTokens, List.foldlM_append, foldlM_tokens item]
    simp [Build.feed, Build.follow]
  | item :: next :: rest, _ =>
    have hrest := foldlM_itemTokens (next :: rest) (by simp) (item :: read) frames
    rw [itemTokens, List.append_assoc, List.foldlM_append, foldlM_tokens item]
    · simpa [Build.feed, Build.follow] using hrest
    · simp

/-- The tokens of members and the end of the object add the members to those read before.  Each
member has its name and its value. -/
theorem foldlM_memberTokens (members : List (Bytes × Json)) (h : members ≠ [])
    (read : List (Bytes × Json)) (frames : List Frame) :
    (memberTokens members ++ [Token.closeObject]).foldlM Build.feed ⟨.name read, frames⟩
      = some ⟨.after (.object (read.reverse ++ members)), frames⟩ := by
  have hname : ∀ (name : Bytes) (rest : List Token),
      (.string name :: .colon :: rest : List Token).foldlM Build.feed ⟨.name read, frames⟩
        = rest.foldlM Build.feed ⟨.value, .object read name :: frames⟩ := fun _ _ => rfl
  match members, h with
  | [(name, value)], _ =>
    rw [memberTokens, List.cons_append, List.cons_append, hname, List.foldlM_append,
      foldlM_tokens value]
    simp [Build.feed, Build.follow]
  | (name, value) :: next :: rest, _ =>
    have hrest := foldlM_memberTokens (next :: rest) (by simp) ((name, value) :: read) frames
    rw [memberTokens, List.cons_append, List.cons_append, hname, List.append_assoc,
      List.foldlM_append, foldlM_tokens value]
    · simpa [Build.feed, Build.follow] using hrest
    · simp

end

/-- A value reads back from its compact form.  It is the two stages, one after the other. -/
theorem parse?_print {j : Json} (h : j.Written) : parse? j.print = some j := by
  rw [parse?, tokens?_print h]
  show (j.tokens.foldlM Build.feed ⟨.value, []⟩).bind Build.finish = some j
  rw [foldlM_tokens]
  rfl

end BlogLedger.Json
