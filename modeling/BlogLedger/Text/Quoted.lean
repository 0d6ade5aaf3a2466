import BlogLedger.Text.Printable

/-!
# Quoted characters and texts

How a character or a text is shown inside a message: between quotes, with what cannot be seen
written as an escape.

## Main Definitions

* `Quoted.char` — a character between single quotes.
* `Quoted.text` — a text between double quotes.
-/

namespace BlogLedger.Quoted

/-- The hexadecimal digits of a number, without leading zeros. -/
def hexDigits (n : Nat) : String :=
  String.ofList (Nat.toDigits 16 n)

/-- A character inside the quotes `quote`: the usual short escapes, `\u{…}` for what is not
printable, and otherwise the character itself. -/
def escaped (quote : Char) (c : Char) : String :=
  if c = Char.ofNat 0 then "\\0"
  else if c = '\t' then "\\t"
  else if c = '\r' then "\\r"
  else if c = '\n' then "\\n"
  else if c = '\\' then "\\\\"
  else if c = quote then "\\" ++ quote.toString
  else if Printable.isPrintable c then c.toString
  else "\\u\x7b" ++ hexDigits c.toNat ++ "\x7d"

/-- The apostrophe. -/
def apostrophe : Char := Char.ofNat 39

/-- A character between single quotes. -/
def char (c : Char) : String :=
  apostrophe.toString ++ escaped apostrophe c ++ apostrophe.toString

/-- A text between double quotes. -/
def text (t : String) : String :=
  "\"" ++ String.join (t.toList.map (escaped '\"')) ++ "\""

end BlogLedger.Quoted
