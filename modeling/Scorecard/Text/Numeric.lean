import Scorecard.Number.Decimal
import Scorecard.Text.Blank
import Scorecard.Text.Digit

set_option autoImplicit false

/-! # Numbers as text

Digits may be separated by single underscores. A number that somebody typed may have blanks around
it and may use the decimal digits of any script.
-/

namespace Scorecard.Text

/-! ## Digits -/

/-- Further digits of a number, each with or without an underscore before it, and the rest. -/
def moreDigits (isDigit : Char → Bool) : List Char → List Char × List Char
  | [] => ([], [])
  | [c] => if isDigit c then ([c], []) else ([], [c])
  | c :: d :: cs =>
    if isDigit c then
      let (digits, rest) := moreDigits isDigit (d :: cs)
      (c :: digits, rest)
    else if c == '_' && isDigit d then
      let (digits, rest) := moreDigits isDigit cs
      (d :: digits, rest)
    else ([], c :: d :: cs)

/-- Digits, at least one, and the rest. -/
def readDigits (isDigit : Char → Bool) : List Char → Option (List Char × List Char)
  | [] => none
  | c :: cs =>
    if isDigit c then
      let (digits, rest) := moreDigits isDigit cs
      some (c :: digits, rest)
    else none

/-- The number that digits write in a base. -/
def ofDigits (base : Nat) (digits : List Char) : Nat :=
  digits.foldl (fun n d => base * n + (hexValue? d).getD 0) 0

/-- A sign, if there is one: whether it is a minus, and the rest. -/
def readSign : List Char → Bool × List Char
  | '-' :: cs => (true, cs)
  | '+' :: cs => (false, cs)
  | cs => (false, cs)

/-- An exponent, if there is one, and the rest. -/
def readExponent (cs : List Char) : Option Int × List Char :=
  match cs with
  | c :: rest =>
    if c == 'e' || c == 'E' then
      let (negative, body) := readSign rest
      match readDigits Char.isDigit body with
      | some (digits, after) =>
        let n : Int := ofDigits 10 digits
        (some (if negative then -n else n), after)
      | none => (none, cs)
    else (none, cs)
  | [] => (none, cs)

/-! ## Typed numbers -/

/-- A blank or digit of any script as the one in ASCII. What is neither becomes a character that is
in no number. -/
def plain (c : Char) : Char :=
  if c.toNat < 127 then c
  else if isBlank c then ' '
  else
    match digitValue? c with
    | some d => Char.ofNat ('0'.toNat + d)
    | none => '?'

/-- A blank around a typed number. -/
def isPadding (c : Char) : Bool := c == ' ' || (9 ≤ c.toNat && c.toNat ≤ 13)

/-- The characters of a typed number. -/
def typedChars (s : String) : List Char :=
  dropEnd isPadding ((s.toList.map plain).dropWhile isPadding)

/-- Reads an integer, unless it has too many digits. -/
def integer? (s : String) : Option Int :=
  let (negative, body) := readSign (typedChars s)
  match readDigits Char.isDigit body with
  | some (digits, []) =>
    let n : Int := ofDigits 10 digits
    if digitLimit < digits.length then none else some (if negative then -n else n)
  | _ => none

/-- The numbers that have names; the case of the letters does not count. -/
def namedNumber? (negative : Bool) (cs : List Char) : Option Number :=
  match String.ofList (cs.map Char.toLower) with
  | "inf" | "infinity" => some (.infinite negative)
  | "nan" => some .nan
  | _ => none

/-- A decimal with digits before the point or after it. -/
def decimal? (negative : Bool) (cs : List Char) : Option Number :=
  let (whole, afterWhole) := (readDigits Char.isDigit cs).getD ([], cs)
  let (places, afterPlaces) :=
    match afterWhole with
    | '.' :: rest => (readDigits Char.isDigit rest).getD ([], rest)
    | rest => ([], rest)
  let (exponent, rest) := readExponent afterPlaces
  if (whole ++ places).isEmpty || !rest.isEmpty then none
  else some (.ofDecimal negative (ofDigits 10 (whole ++ places)) (exponent.getD 0 - places.length))

/-- Reads a number. -/
def number? (s : String) : Option Number :=
  let (negative, body) := readSign (typedChars s)
  match namedNumber? negative body with
  | some x => some x
  | none => decimal? negative body

end Scorecard.Text
