import BlogLedger.Failure

/-!
# Field formats

The formats of names, titles and texts, and the collection of what is wrong with the fields of one
record or message.

## Main Definitions

* `Format`, `Format.accepts` — a set of characters and a range of lengths.
* `Format.username`, `Format.bio`, `Format.title`, `Format.body` — the four formats.
* `Flaws.conclude` — one failure for all the flaws found.

## Design Notes

Lengths are counted in characters.  The characters that the formats allow are ASCII, so for a text
that is accepted they are also its bytes.
-/

namespace BlogLedger

/-- A format of texts: the characters that may occur and how many there are. -/
structure Format where
  allows : Char → Bool
  least : Nat
  most : Nat

namespace Format

/-- Whether a text is of a format. -/
def accepts (f : Format) (text : String) : Bool :=
  let chars := text.toList
  f.least ≤ chars.length && chars.length ≤ f.most && chars.all f.allows

/-- ASCII letters, digits, the underscore, the full stop and the hyphen. -/
def username : Format where
  allows c := c.isAlphanum || c = '_' || c = '.' || c = '-'
  least := 4
  most := 16

/-- ASCII letters, digits, the underscore and the space. -/
def bio : Format where
  allows c := c.isAlphanum || c = '_' || c = ' '
  least := 4
  most := 200

/-- The characters of titles and texts: ASCII letters and digits, some marks, and everything from
the semicolon up to the underscore. -/
def isTextChar (c : Char) : Bool :=
  c.isAlphanum || (';' ≤ c && c ≤ '_')
    || c = '$' || c = '!' || c = '%' || c = '*' || c = '&' || c = '#' || c = Quoted.apostrophe
    || c = '.' || c = ' ' || c = '+'

/-- Titles of blogs and articles. -/
def title : Format where
  allows := isTextChar
  least := 4
  most := 32

/-- Descriptions of blogs and contents of articles. -/
def body : Format where
  allows := isTextChar
  least := 4
  most := 1000

end Format

/-- What is wrong with the fields of one record or message, in the order of the fields. -/
abbrev Flaws := List FieldFlaw

namespace Flaws

/-- The flaw of a field, unless it is in order. -/
def check (ok : Bool) (field : String) (flaw : Flaw) : Flaws :=
  if ok then [] else [⟨field, flaw⟩]

/-- A failure that names every flaw, unless there is none; the first one gives the field. -/
def conclude : Flaws → Except Failure Unit
  | [] => .ok ()
  | first :: rest => fail (.flawed first rest)

/-- The flaw of a time that the calendar cannot show. -/
def ofRange (field : String) (time : Timestamp) : Flaws :=
  check time.IsRepresentable field (.outOfRange time)

/-- The flaws of a time that must be set. -/
def ofTime (field : String) (time : Timestamp) : Flaws :=
  ofRange field time ++ check (time ≠ .unset) field .unset

end Flaws

/-- Refuse a time that the calendar cannot show. -/
def Timestamp.validate (t : Timestamp) : Except Failure Unit :=
  if t.IsRepresentable then .ok () else fail (.outOfRange t)

end BlogLedger
