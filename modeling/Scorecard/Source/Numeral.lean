import Scorecard.Source.Token
import Scorecard.Text.CharClass

set_option autoImplicit false

/-! # Numerals

Reading of number literals: decimal integers, integers in base 16, 8 and 2, numbers with a fraction
or an exponent, and imaginary numbers. Single underscores may separate digits. A literal must not
run into a name, except that a few keywords may follow a digit at once.
-/

namespace Scorecard.Source.Numeral

/-- The rest of a text after a literal. -/
abbrev Rest := List Char

/-- A character that could belong to a name. -/
def isNameChar (c : Char) : Bool := c.isAlphanum || c == '_' || 128 ≤ c.toNat

/-- Whether a literal may end before `rest`: no name may follow, but the keywords that can stand
after a number may. -/
def mayEnd (rest : Rest) : Bool :=
  match rest with
  | [] => true
  | c :: cs =>
    let continues (word : String) : Bool := word.toList.isPrefixOf cs
    if c == 'a' && continues "nd" then true
    else if c == 'e' && continues "lse" then true
    else if c == 'f' && continues "or" then true
    else if c == 'i' && (continues "f" || continues "n" || continues "s") then true
    else if c == 'o' && continues "r" then true
    else if c == 'n' && continues "ot" then true
    else !isNameChar c

/-- Digits in groups separated by single underscores. Nothing is read if the text does not start
with a digit, and an underscore without a digit after it is an error. -/
def digitGroups (isDigit : Char → Bool) (done : List Char) : List Char → Option (List Char × Rest)
  | [] => some (done.reverse, [])
  | [c] =>
      if c == '_' then none else if isDigit c then some ((c :: done).reverse, [])
        else some (done.reverse, [c])
  | c :: d :: cs =>
    if isDigit c then digitGroups isDigit (c :: done) (d :: cs)
    else if c == '_' && !done.isEmpty then
      if isDigit d then digitGroups isDigit (d :: done) cs else none
    else some (done.reverse, c :: d :: cs)

/-- The number written by digits in a base. -/
def ofDigits (base : Nat) (cs : List Char) : Nat :=
  cs.foldl (fun n c => base * n + (Text.hexValue? c).getD 0) 0

/-- An integer after its base letter; an underscore may follow the letter. -/
def based (base : Nat) (isDigit : Char → Bool) (cs : List Char) : Option (Constant × Rest) := do
  let cs := match cs with
    | '_' :: rest => rest
    | rest => rest
  let (digits, rest) ← digitGroups isDigit [] cs
  if digits.isEmpty then none
  else if mayEnd rest then some (.int (ofDigits base digits), rest)
  else none

/-- The sign at the front of a text, with whether it is a minus, and the text after it. -/
def signed : List Char → Option Bool × Rest
  | '+' :: rest => (some false, rest)
  | '-' :: rest => (some true, rest)
  | rest => (none, rest)

/-- An exponent at the front of `cs`: its value and the rest. The outer `none` is a malformed
exponent, the inner one says that there is no exponent, as in `1else`. -/
def exponent (cs : List Char) : Option (Option (Int × Rest)) :=
  match cs with
  | e :: rest =>
    if e == 'e' || e == 'E' then
      let (sign, body) := signed rest
      if body.head?.any Char.isDigit then
        match digitGroups Char.isDigit [] body with
        | none => none
        | some (digits, after) =>
          let n : Int := ofDigits 10 digits
          some (some (if sign == some true then -n else n, after))
      else if sign.isSome then none
      else if mayEnd cs then some none
      else none
    else some none
  | [] => some none

/-- A decimal literal after its last digit, with the digits `whole`, the digits `fraction` if a
point was read, and its exponent. -/
def ending (whole : List Char) (fraction : Option (List Char)) (leadingZero : Bool) (e : Option Int)
    (rest : List Char) : Option (Constant × Rest) :=
  let places := fraction.getD []
  let decimal : Number :=
    .ofDecimal false (ofDigits 10 (whole ++ places)) (e.getD 0 - places.length)
  match rest with
  | c :: after =>
    if c == 'j' || c == 'J' then
      if mayEnd after then some (.imaginary decimal, after) else none
    else if !mayEnd rest then none
    else if fraction.isSome || e.isSome then some (.float decimal, rest)
    -- only zero may be written with zeros in front
    else if leadingZero && whole.any (· != '0') then none
    else if digitLimit < whole.length then none
    else some (.int (ofDigits 10 whole), rest)
  | [] =>
    if fraction.isSome || e.isSome then some (.float decimal, rest)
    else if leadingZero && whole.any (· != '0') then none
    else if digitLimit < whole.length then none
    else some (.int (ofDigits 10 whole), rest)

/-- The rest of a decimal literal after its digits. -/
def finish (whole : List Char) (fraction : Option (List Char)) (leadingZero : Bool)
    (cs : List Char) : Option (Constant × Rest) := do
  match ← exponent cs with
  | some (e, rest) => ending whole fraction leadingZero (some e) rest
  | none => ending whole fraction leadingZero none cs

/-- A fraction after the point, possibly without digits, and the rest of the literal. -/
def afterPoint (whole : List Char) (leadingZero : Bool) (cs : List Char) :
    Option (Constant × Rest) := do
  let (places, rest) ←
    if cs.head?.any Char.isDigit then digitGroups Char.isDigit [] cs else some ([], cs)
  finish whole (some places) leadingZero rest

/-- A number literal at the front of a text that starts with a digit, or with a point before a
digit. -/
def read (cs : List Char) : Option (Constant × Rest) :=
  match cs with
  | '.' :: rest => afterPoint [] false rest
  | '0' :: 'x' :: rest | '0' :: 'X' :: rest => based 16 (fun c => (Text.hexValue? c).isSome) rest
  | '0' :: 'o' :: rest | '0' :: 'O' :: rest => based 8 (fun c => '0' ≤ c && c ≤ '7') rest
  | '0' :: 'b' :: rest | '0' :: 'B' :: rest => based 2 (fun c => c == '0' || c == '1') rest
  | _ => do
    let (whole, rest) ← digitGroups Char.isDigit [] cs
    let leadingZero := whole.head? == some '0'
    match rest with
    | '.' :: rest => afterPoint whole leadingZero rest
    | rest => finish whole none leadingZero rest

end Scorecard.Source.Numeral
