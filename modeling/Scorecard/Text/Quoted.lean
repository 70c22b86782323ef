import Scorecard.Text.Printable

set_option autoImplicit false

/-! # Quoted text

The quoted form of a text: single quotes unless only they occur in the text, a backslash before the
quote and the backslash, short escapes for the tab, the newline and the carriage return, and numeric
escapes for every other character that is not printable.
-/

namespace Scorecard.Text

/-- `n` in hexadecimal with at least `width` digits. -/
def hexDigits (width n : Nat) : String :=
  let digits := Nat.toDigits 16 n
  String.ofList (List.replicate (width - digits.length) '0' ++ digits)

/-- The numeric escape of a character code. -/
def numericEscape (n : Nat) : String :=
  if n < 0x100 then "\\x" ++ hexDigits 2 n
  else if n < 0x10000 then "\\u" ++ hexDigits 4 n
  else "\\U" ++ hexDigits 8 n

/-- A character with an escape if it is a backslash or is not printable. -/
def escapeChar (c : Char) : String :=
  if c == '\\' then "\\\\"
  else if c == '\n' then "\\n"
  else if c == '\r' then "\\r"
  else if c == '\t' then "\\t"
  else if isPrintable c then c.toString
  else numericEscape c.toNat

/-- The quote that stands around a text. -/
def quoteFor (cs : List Char) : Char := if cs.contains '\'' && !cs.contains '"' then '"' else '\''

/-- The characters of a text as they stand between its quotes. -/
def quotedBody (s : String) : String :=
  let cs := s.toList
  let quote := quoteFor cs
  String.join (cs.map fun c => if c == quote then "\\" ++ c.toString else escapeChar c)

/-- The quoted form of a text. -/
def quoted (s : String) : String :=
  let quote := (quoteFor s.toList).toString
  quote ++ quotedBody s ++ quote

/-- The quoted form of a sequence of bytes. -/
def quotedBytes (bytes : List Nat) : String :=
  let quote := quoteFor (bytes.map Char.ofNat)
  let escaped (n : Nat) : String :=
    if n < 0x80 then
      let c := Char.ofNat n
      if c == quote then "\\" ++ c.toString else escapeChar c
    else numericEscape n
  "b" ++ quote.toString ++ String.join (bytes.map escaped) ++ quote.toString

end Scorecard.Text
