import BlogLedger.Json.Basic

/-!
# Tokens of a JSON text

The text is cut into marks, strings and scalars; blanks between them are dropped.

## Main Definitions

* `Json.Token` — a token.
* `Json.Scan`, `Json.Scan.feed` — the reader, one byte at a time.
* `Json.tokens?` — the tokens of a byte string.

## Design Notes

A word or a number ends at the first byte that cannot belong to it, and only then is it checked.
That byte is read again between tokens, so the reader never looks ahead.
-/

namespace BlogLedger.Json

/-- A token of a JSON text. -/
inductive Token where
  | openArray
  | closeArray
  | openObject
  | closeObject
  | colon
  | comma
  | string (lexeme : Bytes)
  /-- A value that is no string and has no parts. -/
  | scalar (value : Json)
  deriving Inhabited

/-- What a reader is in the middle of; bytes read so far stand in reverse order. -/
inductive Reading where
  | between
  | word (read : Bytes)
  | number (read : Bytes)
  | string (read : Bytes)
  /-- After a backslash inside a string. -/
  | escape (read : Bytes)
  /-- Inside a numeric escape with `due` digits to come. -/
  | unit (due : Nat) (read : Bytes)

/-- A reader: what it is in the middle of, and the tokens so far in reverse order. -/
structure Scan where
  reading : Reading
  done : List Token

namespace Scan

/-- The reader before the first byte. -/
def start : Scan := ⟨.between, []⟩

/-- The value of a word. -/
def word? (read : Bytes) : Option Token :=
  if read = [110, 117, 108, 108] then some (.scalar .null)
  else if read = [116, 114, 117, 101] then some (.scalar (.bool true))
  else if read = [102, 97, 108, 115, 101] then some (.scalar (.bool false))
  else none

/-- The value of a number. -/
def number? (read : Bytes) : Option Token :=
  if (Number.literal? read).isSome then some (.scalar (.number read)) else none

/-- Whether a byte is a lower-case letter. -/
def isLetter (b : UInt8) : Bool :=
  97 ≤ b && b ≤ 122

/-- Whether a byte may stand in a number: digits, signs, the point and the exponent letters. -/
def isNumeric (b : UInt8) : Bool :=
  Decimal.isDigit b || b = 43 || b = 45 || b = 46 || b = 69 || b = 101

/-- Whether a byte is a blank between tokens. -/
def isSpace (b : UInt8) : Bool :=
  b = 32 || b = 10 || b = 13 || b = 9

/-- The mark that a byte is. -/
def mark? (b : UInt8) : Option Token :=
  if b = 91 then some .openArray
  else if b = 93 then some .closeArray
  else if b = 123 then some .openObject
  else if b = 125 then some .closeObject
  else if b = 58 then some .colon
  else if b = 44 then some .comma
  else none

/-- Read a byte between tokens. -/
def begin (done : List Token) (b : UInt8) : Option Scan :=
  match mark? b with
  | some token => some ⟨.between, token :: done⟩
  | none =>
    if isSpace b then some ⟨.between, done⟩
    else if b = 34 then some ⟨.string [], done⟩
    else if b = 45 || Decimal.isDigit b then some ⟨.number [b], done⟩
    else if isLetter b then some ⟨.word [b], done⟩
    else none

/-- Read one byte. -/
def feed (s : Scan) (b : UInt8) : Option Scan :=
  match s.reading with
  | .between => begin s.done b
  | .word read =>
    if isLetter b then some ⟨.word (b :: read), s.done⟩
    else do begin ((← word? read.reverse) :: s.done) b
  | .number read =>
    if isNumeric b then some ⟨.number (b :: read), s.done⟩
    else do begin ((← number? read.reverse) :: s.done) b
  | .string read =>
    if b = 34 then some ⟨.between, .string read.reverse :: s.done⟩
    else if b = 92 then some ⟨.escape (b :: read), s.done⟩
    else if b < 32 then none
    else some ⟨.string (b :: read), s.done⟩
  | .escape read =>
    if b = 117 then some ⟨.unit 4 (b :: read), s.done⟩
    else if (Text.shortEscape? b).isSome then some ⟨.string (b :: read), s.done⟩
    else none
  | .unit due read =>
    if (Text.hexValue? b).isNone then none
    else if due ≤ 1 then some ⟨.string (b :: read), s.done⟩
    else some ⟨.unit (due - 1) (b :: read), s.done⟩

/-- The tokens read when the text ends here. -/
def finish (s : Scan) : Option (List Token) :=
  match s.reading with
  | .between => some s.done.reverse
  | .word read => do return ((← word? read.reverse) :: s.done).reverse
  | .number read => do return ((← number? read.reverse) :: s.done).reverse
  | _ => none

end Scan

/-- The tokens of a byte string. -/
def tokens? (bytes : Bytes) : Option (List Token) :=
  (bytes.foldlM Scan.feed Scan.start).bind Scan.finish

end BlogLedger.Json
