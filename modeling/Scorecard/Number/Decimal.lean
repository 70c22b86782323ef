import Scorecard.Number.Basic

set_option autoImplicit false

/-! # Decimal text of numbers

Three ways to write a number: the fewest digits that read back (`Number.text`), a fixed count of
places (`Number.fixed`), and six significant digits without trailing zeros (`Number.general`). All
three work on the exact value. Reading goes the other way: a decimal is a rational, and
`Rounding.nearest` makes it a number.
-/

namespace Scorecard

namespace Decimal

/-- `count` copies of the digit zero. -/
def zeros (count : Nat) : String := String.ofList (List.replicate count '0')

/-- How many decimal digits a natural number has. -/
def length (n : Nat) : Nat := (Nat.toDigits 10 n).length

/-- The digits of `n`, filled up with zeros on the left to at least `width` of them. -/
def padded (width n : Nat) : String :=
  let digits := Nat.repr n
  zeros (width - digits.length) ++ digits

/-- `⌊log₁₀ (n / d)⌋` for positive `n` and `d`. -/
def floorLog10 (n d : Nat) : Int :=
  let e : Int := (length n : Int) - (length d : Int)
  if d * Nat.pow 10 e.toNat ≤ n * Nat.pow 10 (-e).toNat then e else e - 1

/-- The rational `c * 10 ^ s`. -/
def scaled (c : Nat) (s : Int) : Rat :=
  mkRat (c * Nat.pow 10 s.toNat : Nat) (Nat.pow 10 (-s).toNat)

/-- Digits and the exponent of the first of them, without trailing zeros. -/
structure Digits where
  digits : List Char
  exponent : Int

/-- The digits of `c * 10 ^ s`. -/
def Digits.of (c : Nat) (s : Int) : Digits :=
  let all := Nat.toDigits 10 c
  let kept := (all.reverse.dropWhile (· == '0')).reverse
  { digits := if kept.isEmpty then ['0'] else kept, exponent := s + (all.length : Int) - 1 }

/-- Of the two decimals with `count` digits around the positive value `x`, the nearer one that reads
back as `x`. -/
def readingBack? (x : Rat) (count : Nat) : Option Digits :=
  let n := x.num.natAbs
  let s := floorLog10 n x.den - (count - 1 : Nat)
  let top := n * Nat.pow 10 (-s).toNat
  let bottom := x.den * Nat.pow 10 s.toNat
  let low := top / bottom
  let readsBack (c : Nat) : Bool := Rounding.nearest (scaled c s) == .finite x
  let nearer := roundQuotient top bottom
  let farther := if nearer = low then low + 1 else low
  if readsBack nearer then some (.of nearer s)
  else if readsBack farther then some (.of farther s)
  else none

/-- The fewest digits that read back as the positive value `x`; seventeen always suffice for a
double. -/
def shortest (x : Rat) : Digits :=
  match (List.range 17).findSome? (fun i => readingBack? x (i + 1)) with
  | some d => d
  -- not reached for the value of a double
  | none =>
    let s := floorLog10 x.num.natAbs x.den - 16
    .of (roundQuotient (x.num.natAbs * Nat.pow 10 (-s).toNat) (x.den * Nat.pow 10 s.toNat)) s

/-- Positional notation: `12.5`, `0.001`; `whole` closes a number without a fraction. -/
def positional (d : Digits) (whole : String) : String :=
  if d.exponent < 0 then
    "0." ++ zeros (-d.exponent - 1).toNat ++ String.ofList d.digits
  else
    let places := d.exponent.toNat + 1
    if d.digits.length ≤ places then
      String.ofList d.digits ++ zeros (places - d.digits.length) ++ whole
    else
      String.ofList (d.digits.take places) ++ "." ++ String.ofList (d.digits.drop places)

/-- Exponent notation: `1e-05`, `1.5e+16`; the exponent has a sign and at least two digits. -/
def scientific (d : Digits) : String :=
  let mantissa := match d.digits with
    | [] => "0"
    | [c] => String.ofList [c]
    | c :: rest => String.ofList [c] ++ "." ++ String.ofList rest
  mantissa ++ "e" ++ (if d.exponent < 0 then "-" else "+") ++ padded 2 d.exponent.natAbs

end Decimal

namespace Number

open Decimal

/-- The sign in front of the digits. -/
def signText (a : Number) : String := if a.isNegative then "-" else ""

/-- Writes the magnitude of a finite number by `body`; the other numbers have fixed names. -/
def written (a : Number) (body : Rat → String) : String :=
  match a with
  | finite x => a.signText ++ body (if x < 0 then -x else x)
  | negZero => a.signText ++ body 0
  | infinite _ => a.signText ++ "inf"
  | nan => "nan"

/-- The fewest digits that read back, positional from `10⁻⁴` up to below `10¹⁶`, always with a
fraction. -/
def text (a : Number) : String :=
  a.written fun x =>
    if x = 0 then "0.0"
    else
      let d := shortest x
      if -4 ≤ d.exponent && d.exponent < 16 then positional d ".0" else scientific d

/-- Exactly `places` decimal places, ties to even. -/
def fixed (places : Nat) (a : Number) : String :=
  a.written fun x =>
    let k := roundQuotient (Nat.pow 10 places * x.num.natAbs) x.den
    let digits := (padded (places + 1) k).toList
    let whole := digits.length - places
    if places = 0 then String.ofList digits
    else String.ofList (digits.take whole) ++ "." ++ String.ofList (digits.drop whole)

/-- Six significant digits, trailing zeros dropped, positional from `10⁻⁴` up to below `10⁶`. -/
def general (a : Number) : String :=
  a.written fun x =>
    if x = 0 then "0"
    else
      let s := floorLog10 x.num.natAbs x.den - 5
      let c := roundQuotient (x.num.natAbs * Nat.pow 10 (-s).toNat) (x.den * Nat.pow 10 s.toNat)
      let d := Digits.of c s
      if -4 ≤ d.exponent && d.exponent < 6 then positional d "" else scientific d

/-- The number nearest to `digits * 10 ^ exponent`. Decimals far outside the range are decided by
their size alone, so that no large power is computed. -/
def ofDecimal (negative : Bool) (digits : Nat) (exponent : Int) : Number :=
  let size := (length digits : Int) + exponent
  if digits = 0 then .zero negative
  else if 320 < size then .infinite negative
  else if size < -340 then .zero negative
  else
    let x := scaled digits exponent
    Rounding.nearest (if negative then -x else x)

end Number

/-! ## Integers -/

/-- Integers with more decimal digits than this are neither read nor written. -/
def digitLimit : Nat := 4300

/-- Whether an integer has few enough digits to be written. -/
def isPrintable (n : Int) : Bool := (Nat.toDigits 10 n.natAbs).length ≤ digitLimit

/-- The message for an integer with more digits than are converted; the count is given where the
digits were read. -/
def digitLimitMessage (count : Option Nat) : String :=
  let counted := match count with
    | some n => ": value has " ++ Nat.repr n ++ " digits"
    | none => ""
  "Exceeds the limit (" ++ Nat.repr digitLimit ++ " digits) for integer string conversion" ++
    counted ++ "; use sys.set_int_max_str_digits() to increase the limit"

/-- Why an integer is not written. -/
inductive DigitError where
  | tooManyDigits
deriving DecidableEq, Repr

def DigitError.message : DigitError → String
  | tooManyDigits => digitLimitMessage none

/-- An integer in decimal digits, if these are few enough. -/
def writtenInt (n : Int) : Except DigitError String :=
  if isPrintable n then .ok (Int.repr n) else .error .tooManyDigits

end Scorecard
