import Scorecard.Value.Basic
import Scorecard.Text.Blank
import Scorecard.Text.CharClass

set_option autoImplicit false

/-! # JSON

Reading and writing of values as JSON. A number with a fraction or an exponent is a `Number`, any
other one an integer; `NaN`, `Infinity` and `-Infinity` are numbers too. A repeated member keeps its
last value. Texts are written in ASCII, and members of an object in the order of their names.

A text is made of characters, and half of a surrogate pair is none. Where an escape writes such a
half without the other one, `U+FFFD` is read in its place: two different halves are read as the same
text, and what is read can always be written.
-/

namespace Scorecard.Json

/-! ## Reading -/

/-- The value of four hexadecimal digits. -/
def hex4? (a b c d : Char) : Option Nat := do
  let digits ← [a, b, c, d].mapM Text.hexValue?
  return digits.foldl (fun n k => 16 * n + k) 0

/-- The character of a code unit; a surrogate without its partner has none and becomes `U+FFFD`. -/
def charOfUnit (n : Nat) : Char := if 0xD800 ≤ n && n ≤ 0xDFFF then '�' else Char.ofNat n

/-- The character written by the escape `\c`. -/
def simpleEscape? : Char → Option Char
  | '"' => some '"'
  | '\\' => some '\\'
  | '/' => some '/'
  | 'b' => some '\x08'
  | 'f' => some '\x0c'
  | 'n' => some '\n'
  | 'r' => some '\r'
  | 't' => some '\t'
  | _ => none

/-- The rest of a text after its opening quote, with the characters read so far reversed in `done`.
Two escapes that form a surrogate pair are one character. -/
def readText (done : List Char) : List Char → Option (String × List Char)
  | [] => none
  | '"' :: cs => some (String.ofList done.reverse, cs)
  | '\\' :: 'u' :: a :: b :: c :: d :: '\\' :: 'u' :: e :: f :: g :: h :: cs =>
    match hex4? a b c d with
    | none => none
    | some hi =>
      match hex4? e f g h with
      | some lo =>
        if 0xD800 ≤ hi && hi ≤ 0xDBFF && 0xDC00 ≤ lo && lo ≤ 0xDFFF then
          readText (Char.ofNat (0x10000 + (hi - 0xD800) * 0x400 + (lo - 0xDC00)) :: done) cs
        -- no pair: the second escape is read again on its own
        else readText (charOfUnit hi :: done) ('\\' :: 'u' :: e :: f :: g :: h :: cs)
      | none => none
  | '\\' :: 'u' :: a :: b :: c :: d :: cs =>
    match hex4? a b c d with
    | none => none
    | some n => readText (charOfUnit n :: done) cs
  | '\\' :: c :: cs =>
    match simpleEscape? c with
    | some e => readText (e :: done) cs
    | none => none
  | c :: cs => if c.toNat < 32 then none else readText (c :: done) cs

/-- The number that decimal digits write. -/
def ofDigits (cs : List Char) : Nat := cs.foldl (fun n c => 10 * n + (c.toNat - '0'.toNat)) 0

/-- A fraction `.digits` at the front, if there is one, and the rest. -/
def readFraction (cs : List Char) : Option (List Char) × List Char :=
  match cs with
  | '.' :: rest =>
    let digits := rest.takeWhile Char.isDigit
    if digits.isEmpty then (none, cs) else (some digits, rest.dropWhile Char.isDigit)
  | _ => (none, cs)

/-- An exponent at the front, if there is one, and the rest. -/
def readExponent (cs : List Char) : Option Int × List Char :=
  match cs with
  | e :: rest =>
    if e == 'e' || e == 'E' then
      let (negative, body) := match rest with
        | '-' :: r => (true, r)
        | '+' :: r => (false, r)
        | r => (false, r)
      let digits := body.takeWhile Char.isDigit
      if digits.isEmpty then (none, cs)
      else
        let n : Int := ofDigits digits
        (some (if negative then -n else n), body.dropWhile Char.isDigit)
    else (none, cs)
  | [] => (none, cs)

/-- The digits of a number before its fraction. A leading zero is a digit of its own. -/
def wholePart : List Char → List Char
  | '0' :: _ => ['0']
  | cs => cs.takeWhile Char.isDigit

/-- A number at the front, after its sign. -/
def readNumber (negative : Bool) (cs : List Char) : Except ReadError (Value × List Char) :=
  let whole := wholePart cs
  if whole.isEmpty then .error .malformed
  else
    let (fraction, afterFraction) := readFraction (cs.drop whole.length)
    let (exponent, rest) := readExponent afterFraction
    match fraction, exponent with
    | none, none =>
      if digitLimit < whole.length then .error (.tooManyDigits whole.length)
      else
        let n : Int := ofDigits whole
        .ok (.int (if negative then -n else n), rest)
    | _, _ =>
      let places := fraction.getD []
      .ok (.number (.ofDecimal negative (ofDigits (whole ++ places))
        (exponent.getD 0 - places.length)), rest)

/-- White space between tokens. -/
def isSpace (c : Char) : Bool := c == ' ' || c == '\t' || c == '\n' || c == '\r'

def skipSpace (cs : List Char) : List Char := cs.dropWhile isSpace

/-- The words that stand for a value. -/
def literals : List (String × Value) :=
  [("null", .null), ("true", .bool true), ("false", .bool false), ("NaN", .number .nan),
   ("Infinity", .number (.infinite false)), ("-Infinity", .number (.infinite true))]

/-- A literal word at the front. -/
def readLiteral? (cs : List Char) : Option (Value × List Char) :=
  literals.findSome? fun (word, v) =>
    if word.toList.isPrefixOf cs then some (v, cs.drop word.length) else none

mutual

/-- A value at the front of the text, nested at most `depth` deep. -/
def readValue (depth : Nat) (cs : List Char) : Except ReadError (Value × List Char) :=
  match depth, cs with
  | 0, _ => .error .malformed
  | _ + 1, '"' :: rest =>
    match readText [] rest with
    | some (s, rest) => .ok (.text s, rest)
    | none => .error .malformed
  | d + 1, '[' :: rest =>
    match skipSpace rest with
    | ']' :: rest => .ok (.list [], rest)
    | rest => do
      let (items, rest) ← readItems d rest
      return (.list items, rest)
  | d + 1, '\x7b' :: rest =>
    match skipSpace rest with
    | '\x7d' :: rest => .ok (.table [], rest)
    | rest => do
      let (fields, rest) ← readMembers d [] rest
      return (.table fields, rest)
  | _ + 1, rest =>
    match readLiteral? rest with
    | some found => .ok found
    | none =>
      match rest with
      | '-' :: digits => readNumber true digits
      | digits => readNumber false digits

/-- The items of a list up to its closing bracket. -/
def readItems (depth : Nat) (cs : List Char) : Except ReadError (List Value × List Char) :=
  match depth with
  | 0 => .error .malformed
  | d + 1 => do
    let (v, rest) ← readValue d cs
    match skipSpace rest with
    | ']' :: rest => return ([v], rest)
    | ',' :: rest =>
      let (vs, rest) ← readItems d (skipSpace rest)
      return (v :: vs, rest)
    | _ => .error .malformed

/-- The members of an object up to its closing brace, added to the `fields` read so far. -/
def readMembers (depth : Nat) (fields : Fields) (cs : List Char) :
    Except ReadError (Fields × List Char) :=
  match depth with
  | 0 => .error .malformed
  | d + 1 =>
    match cs with
    | '"' :: rest =>
      match readText [] rest with
      | none => .error .malformed
      | some (name, rest) =>
        match skipSpace rest with
        | ':' :: rest => do
          let (v, rest) ← readValue d (skipSpace rest)
          let fields := fields.set name v
          match skipSpace rest with
          | '\x7d' :: rest => return (fields, rest)
          | ',' :: rest => readMembers d fields (skipSpace rest)
          | _ => .error .malformed
        | _ => .error .malformed
    | _ => .error .malformed

end

/-- Reads a whole text as one value. A text of `n` characters nests fewer than `n + 1` values. -/
def parse (s : String) : Except ReadError Value := do
  let cs := s.toList
  let (v, rest) ← readValue (cs.length + 1) (skipSpace cs)
  if (skipSpace rest).isEmpty then return v else .error .malformed

/-! ## Writing -/

/-- A number below `16 ^ width` in hexadecimal digits. -/
def hexText (width n : Nat) : String :=
  let digits := Nat.toDigits 16 n
  String.ofList (List.replicate (width - digits.length) '0' ++ digits)

/-- A character outside the basic plane is written as two code units. -/
def unitText (n : Nat) : String :=
  if n < 0x10000 then "\\u" ++ hexText 4 n
  else "\\u" ++ hexText 4 (0xD800 + (n - 0x10000) / 0x400) ++ "\\u" ++
    hexText 4 (0xDC00 + (n - 0x10000) % 0x400)

/-- How a character is written inside quotes. -/
def escaped (c : Char) : String :=
  match c with
  | '"' => "\\\""
  | '\\' => "\\\\"
  | '\n' => "\\n"
  | '\r' => "\\r"
  | '\t' => "\\t"
  | '\x08' => "\\b"
  | '\x0c' => "\\f"
  | c => if c.toNat < 32 || 126 < c.toNat then unitText c.toNat else String.ofList [c]

/-- A text in quotes. -/
def quote (s : String) : String := "\"" ++ String.join (s.toList.map escaped) ++ "\""

/-- A number; the three that are not finite have names of their own. -/
def numberText : Number → String
  | .nan => "NaN"
  | .infinite false => "Infinity"
  | .infinite true => "-Infinity"
  | x => x.text

mutual

/-- Writes a value on one line. -/
def render : Value → String
  | .null => "null"
  | .bool b => if b then "true" else "false"
  | .int n => toString n
  | .number x => numberText x
  | .text s => quote s
  | .moment s => quote s
  | .list items => "[" ++ String.intercalate ", " (renderItems items) ++ "]"
  | .table fields =>
    let members := (renderFields fields).mergeSort fun a b => Text.precedes a.1 b.1
    "\x7b" ++ String.intercalate ", " (members.map fun m => quote m.1 ++ ": " ++ m.2) ++ "\x7d"

def renderItems : List Value → List String
  | [] => []
  | v :: vs => render v :: renderItems vs

def renderFields : List (String × Value) → List (String × String)
  | [] => []
  | (name, v) :: fs => (name, render v) :: renderFields fs

end

end Scorecard.Json
