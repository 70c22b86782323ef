import Scorecard.Text.Numeric
import Scorecard.Value.Basic

set_option autoImplicit false

/-! # TOML scalars

Texts in quotes, numbers, dates and times. Every function reads at the front of the characters it
gets and returns what is left.
-/

namespace Scorecard.Toml

/-- Blanks within a line. -/
def isSpace (c : Char) : Bool := c == ' ' || c == '\t'

/-- A control character that may not stand in a text or a comment. A text of several lines may hold
line feeds. -/
def isControl (multiline : Bool) (c : Char) : Bool :=
  (c.toNat < 32 || c.toNat == 127) && c != '\t' && !(multiline && c == '\n')

/-! ## Texts -/

/-- The character written by the escape `\c`. -/
def simpleEscape? : Char → Option Char
  | 'b' => some '\x08'
  | 't' => some '\t'
  | 'n' => some '\n'
  | 'f' => some '\x0c'
  | 'r' => some '\r'
  | '"' => some '"'
  | '\\' => some '\\'
  | _ => none

/-- The character with a number in hexadecimal digits; there is none for a surrogate or beyond the
last character. -/
def hexChar? (digits : List Char) : Option Char := do
  if !digits.all fun d => (Text.hexValue? d).isSome then none
  else
    let n := Text.ofHex digits
    if n < 0xD800 || (0xDFFF < n && n < 0x110000) then some (Char.ofNat n) else none

/-- What a backslash before a blank leaves out: the blanks up to the end of the line, then all
blanks and line ends up to the next character. -/
inductive Gap where
  | none
  | toLineEnd
  | toNextChar
deriving DecidableEq, Repr

/-- The rest of a text after its opening double quotes, with the characters read so far reversed in
`done`. -/
def basicText (multiline : Bool) (gap : Gap) (done : List Char) :
    List Char → Option (List Char × List Char)
  | [] => none
  | c :: cs =>
    if gap = .toLineEnd then
      if isSpace c then basicText multiline .toLineEnd done cs
      else if c == '\n' then basicText multiline .toNextChar done cs
      else none
    else if gap = .toNextChar && (isSpace c || c == '\n') then
      basicText multiline .toNextChar done cs
    else if c == '"' then
      -- only three quotes end a text of several lines
      match cs with
      | '"' :: '"' :: rest =>
        if multiline then some (done.reverse, rest) else some (done.reverse, cs)
      | _ => if multiline then basicText multiline .none (c :: done) cs else some (done.reverse, cs)
    else if c == '\\' then
      match cs with
      | 'u' :: a :: b :: c :: d :: rest =>
        match hexChar? [a, b, c, d] with
        | some x => basicText multiline .none (x :: done) rest
        | none => none
      | 'U' :: a :: b :: c :: d :: e :: f :: g :: h :: rest =>
        match hexChar? [a, b, c, d, e, f, g, h] with
        | some x => basicText multiline .none (x :: done) rest
        | none => none
      | e :: rest =>
        if multiline && isSpace e then basicText multiline .toLineEnd done rest
        else if multiline && e == '\n' then basicText multiline .toNextChar done rest
        else
          match simpleEscape? e with
          | some x => basicText multiline .none (x :: done) rest
          | none => none
      | [] => none
    else if isControl multiline c then none
    else basicText multiline .none (c :: done) cs

/-- The characters before the first `quote` that is the first of three, and what follows the
three. -/
def untilTriple (quote : Char) (done : List Char) : List Char → Option (List Char × List Char)
  | [] => none
  | c :: cs =>
    if c == quote && [quote, quote].isPrefixOf cs then some (done.reverse, cs.drop 2)
    else untilTriple quote (c :: done) cs

/-- The rest of a text after its opening single quotes. Nothing is escaped. -/
def literalText (multiline : Bool) (cs : List Char) : Option (List Char × List Char) := do
  let (body, rest) ←
    if multiline then untilTriple '\'' [] cs
    else
      match cs.dropWhile (· != '\'') with
      | _ :: rest => some (cs.takeWhile (· != '\''), rest)
      | [] => none
  if body.any (isControl multiline) then none else some (body, rest)

/-- A line feed right after the opening quotes of a text of several lines does not count. -/
def skipLineFeed : List Char → List Char
  | '\n' :: cs => cs
  | cs => cs

/-- Up to two quotes right after the three closing ones belong to the text. -/
def withQuotes (quote : Char) (body rest : List Char) : List Char × List Char :=
  let extra := (rest.take 2).takeWhile (· == quote)
  (body ++ extra, rest.drop extra.length)

/-- A text on one line, as a value or a part of a key. -/
def readLineText : List Char → Option (String × List Char)
  | '"' :: cs => do
    let (body, rest) ← basicText false .none [] cs
    return (String.ofList body, rest)
  | '\'' :: cs => do
    let (body, rest) ← literalText false cs
    return (String.ofList body, rest)
  | _ => none

/-- A text in quotes. -/
def readText : List Char → Option (String × List Char)
  | '"' :: '"' :: '"' :: cs => do
    let (body, rest) ← basicText true .none [] (skipLineFeed cs)
    let (body, rest) := withQuotes '"' body rest
    return (String.ofList body, rest)
  | '\'' :: '\'' :: '\'' :: cs => do
    let (body, rest) ← literalText true (skipLineFeed cs)
    let (body, rest) := withQuotes '\'' body rest
    return (String.ofList body, rest)
  | cs => readLineText cs

/-! ## Dates and times -/

/-- A number of exactly `count` digits. -/
def fixedDigits (count : Nat) (cs : List Char) : Option (Nat × List Char) :=
  let digits := cs.take count
  if digits.length = count && digits.all Char.isDigit then
    some (digits.foldl (fun n d => 10 * n + (d.toNat - '0'.toNat)) 0, cs.drop count)
  else none

/-- A number of two digits from `least` to `most`. -/
def twoDigits (least most : Nat) (cs : List Char) : Option (Nat × List Char) := do
  let (n, rest) ← fixedDigits 2 cs
  if least ≤ n && n ≤ most then some (n, rest) else none

/-- A character that has to stand at the front. -/
def exactly (c : Char) : List Char → Option (List Char)
  | d :: cs => if d == c then some cs else none
  | [] => none

/-- What is left after a time of day `hh:mm:ss` with or without a fraction. -/
def skipTime (cs : List Char) : Option (List Char) := do
  let (_, cs) ← twoDigits 0 23 cs
  let (_, cs) ← twoDigits 0 59 (← exactly ':' cs)
  let (_, cs) ← twoDigits 0 59 (← exactly ':' cs)
  match cs with
  | '.' :: d :: rest => if d.isDigit then some (rest.dropWhile Char.isDigit) else some cs
  | _ => some cs

/-- What is left after an offset from universal time. -/
def skipOffset (cs : List Char) : Option (List Char) :=
  match cs with
  | c :: rest =>
    if c == 'Z' || c == 'z' then some rest
    else if c == '+' || c == '-' then do
      let (_, rest) ← twoDigits 0 23 rest
      let (_, rest) ← twoDigits 0 59 (← exactly ':' rest)
      some rest
    else none
  | [] => none

/-- A date: year, month, day. -/
def readDate (cs : List Char) : Option ((Nat × Nat × Nat) × List Char) := do
  let (year, cs) ← fixedDigits 4 cs
  let (month, cs) ← twoDigits 1 12 (← exactly '-' cs)
  let (day, cs) ← twoDigits 1 31 (← exactly '-' cs)
  some ((year, month, day), cs)

/-- What is left after a time that follows a date; without one nothing is skipped. -/
def skipTimeOfDate (cs : List Char) : List Char :=
  match cs with
  | c :: rest =>
    if c == 'T' || c == 't' || c == ' ' then
      match skipTime rest with
      | some after => (skipOffset after).getD after
      -- the blank after a date may also stand before something else
      | none => cs
    else cs
  | [] => cs

def isLeapYear (year : Nat) : Bool := year % 4 == 0 && (year % 100 != 0 || year % 400 == 0)

def daysInMonth (year month : Nat) : Nat :=
  if month = 2 then (if isLeapYear year then 29 else 28)
  else if [4, 6, 9, 11].contains month then 30
  else 31

/-- The calendar starts with the year one. -/
def isDate (year month day : Nat) : Bool := 1 ≤ year && day ≤ daysInMonth year month

/-- The value for what was written between `cs` and `rest`. -/
def momentBetween (cs rest : List Char) : Value :=
  .moment (String.ofList (cs.take (cs.length - rest.length)))

/-- A date, a time, or both. A date that is not in the calendar is an error. -/
def readMoment? (cs : List Char) : Option (Except ReadError (Value × List Char)) :=
  match readDate cs with
  | some ((year, month, day), rest) =>
    let rest := skipTimeOfDate rest
    some (if isDate year month day then .ok (momentBetween cs rest, rest) else .error .malformed)
  | none => (skipTime cs).map fun rest => .ok (momentBetween cs rest, rest)

/-! ## Numbers -/

def isHexDigit (c : Char) : Bool := (Text.hexValue? c).isSome

def isOctalDigit (c : Char) : Bool := '0' ≤ c && c ≤ '7'

def isBinaryDigit (c : Char) : Bool := c == '0' || c == '1'

/-- An integer in base 16, 8 or 2. -/
def readBased? : List Char → Option (Value × List Char)
  | '0' :: 'x' :: cs =>
      (Text.readDigits isHexDigit cs).map fun (ds, rest) => (.int (Text.ofDigits 16 ds), rest)
  | '0' :: 'o' :: cs =>
      (Text.readDigits isOctalDigit cs).map fun (ds, rest) => (.int (Text.ofDigits 8 ds), rest)
  | '0' :: 'b' :: cs =>
      (Text.readDigits isBinaryDigit cs).map fun (ds, rest) => (.int (Text.ofDigits 2 ds), rest)
  | _ => none

/-- The digits of a fraction, if there is one. -/
def readFraction (cs : List Char) : Option (List Char) × List Char :=
  match cs with
  | '.' :: rest =>
    match Text.readDigits Char.isDigit rest with
    | some (digits, after) => (some digits, after)
    | none => (none, cs)
  | _ => (none, cs)

/-- The digits before the point. A leading zero is a digit of its own. -/
def readWhole : List Char → Option (List Char × List Char)
  | '0' :: cs => some (['0'], cs)
  | cs => Text.readDigits Char.isDigit cs

/-- A decimal number; without fraction and exponent it is an integer. -/
def readDecimal? (cs : List Char) : Option (Except ReadError (Value × List Char)) := do
  let (negative, body) := Text.readSign cs
  let (whole, afterWhole) ← readWhole body
  let (fraction, afterFraction) := readFraction afterWhole
  let (exponent, rest) := Text.readExponent afterFraction
  match fraction, exponent with
  | none, none =>
    if digitLimit < whole.length then some (.error (.tooManyDigits whole.length))
    else
      let n : Int := Text.ofDigits 10 whole
      some (.ok (.int (if negative then -n else n), rest))
  | _, _ =>
    let places := fraction.getD []
    some (.ok
      (.number (.ofDecimal negative (Text.ofDigits 10 (whole ++ places))
        (exponent.getD 0 - places.length)), rest))

/-- The words that stand for a value. -/
def words : List (String × Value) :=
  [("true", .bool true), ("false", .bool false), ("inf", .number (.infinite false)),
    ("nan", .number .nan),
   ("+inf", .number (.infinite false)), ("-inf", .number (.infinite true)), ("+nan", .number .nan),
   ("-nan", .number .nan)]

/-- A word that stands for a value. -/
def readWord? (cs : List Char) : Option (Value × List Char) :=
  words.findSome? fun (word, v) =>
    if word.toList.isPrefixOf cs then some (v, cs.drop word.length) else none

/-- A value that is neither an array nor a table. -/
def readScalar (cs : List Char) : Except ReadError (Value × List Char) :=
  match cs with
  | '"' :: _ | '\'' :: _ =>
    match readText cs with
    | some (s, rest) => .ok (.text s, rest)
    | none => .error .malformed
  | _ =>
    match readWord? cs <|> readBased? cs with
    | some found => .ok found
    -- a date starts like an integer, so it is tried first
    | none => ((readMoment? cs) <|> readDecimal? cs).getD (.error .malformed)

end Scorecard.Toml
