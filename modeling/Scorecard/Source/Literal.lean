import Scorecard.Source.Lexer
import Scorecard.Text.CharacterName

set_option autoImplicit false

/-! # Contents of text literals

The value of a text or bytes literal follows from its body by decoding escapes. A formatted literal
is first cut into pieces: literal text, and fields in braces with the text of an expression, an
optional conversion, and an optional format, which is again a list of pieces. The expressions are
left as text here; the grammar reads them.

A text here has no surrogates. An escape for one is read as `U+FFFD`, so literals that differ only
in their surrogates have one value.
-/

namespace Scorecard.Source.Literal

variable [Text.CharacterNames]

/-! ## Escapes -/

/-- The value of exactly `count` hexadecimal digits at the front, and the rest. -/
def hexDigits? (count : Nat) (cs : List Char) : Option (Nat × List Char) :=
  let digits := cs.take count
  if digits.length = count && digits.all (fun c => (Text.hexValue? c).isSome) then
    some (Text.ofHex digits, cs.drop count)
  else none

/-- Up to `count` octal digits at the front: their value and the rest. -/
def octalDigits (count : Nat) (cs : List Char) : Nat × List Char :=
  let digits := (cs.take count).takeWhile fun c => '0' ≤ c && c ≤ '7'
  (digits.foldl (fun n c => 8 * n + (c.toNat - '0'.toNat)) 0, cs.drop digits.length)

/-- The character of a one-letter escape that text and bytes share. -/
def letterEscape? : Char → Option Char
  | '\\' => some '\\'
  | '\'' => some '\''
  | '"' => some '"'
  | 'a' => some '\x07'
  | 'b' => some '\x08'
  | 'f' => some '\x0c'
  | 'n' => some '\n'
  | 'r' => some '\r'
  | 't' => some '\t'
  | 'v' => some '\x0b'
  | _ => none

/-- The character with a code point; a surrogate has none and becomes `U+FFFD`. -/
def charOfCode? (n : Nat) : Option Char :=
  if 0x10FFFF < n then none
  else if 0xD800 ≤ n && n ≤ 0xDFFF then some '�'
  else some (Char.ofNat n)

/-- A character name in braces at the front: the character and the rest. -/
def namedChar? (cs : List Char) : Option (Char × List Char) :=
  match cs with
  | '\x7b' :: rest =>
    let name := rest.takeWhile (· != '\x7d')
    match rest.dropWhile (· != '\x7d') with
    | _ :: after => (Text.CharacterNames.named? (String.ofList name)).map fun c => (c, after)
    | [] => none
  | _ => none

/-- The text after a backslash: what the escape stands for, and the rest. An unknown escape stands
for itself. -/
def escape? (cs : List Char) : Option (List Char × List Char) :=
  match cs with
  | [] => some (['\\'], [])
  -- the literal goes on in the next line
  | '\n' :: rest => some ([], rest)
  | c :: rest =>
    let coded (count : Nat) : Option (List Char × List Char) := do
      let (n, after) ← hexDigits? count rest
      let ch ← charOfCode? n
      return ([ch], after)
    match letterEscape? c with
    | some e => some ([e], rest)
    | none =>
      if '0' ≤ c && c ≤ '7' then
        let (n, after) := octalDigits 3 cs
        some ([Char.ofNat n], after)
      else if c == 'x' then coded 2
      else if c == 'u' then coded 4
      else if c == 'U' then coded 8
      else if c == 'N' then (namedChar? rest).map fun (ch, after) => ([ch], after)
      else some (['\\', c], rest)

/-- Decodes escapes, with fuel for every character. -/
def decodeFrom (fuel : Nat) (cs : List Char) : Option (List Char) :=
  match fuel, cs with
  | _, [] => some []
  | 0, _ => none
  | fuel + 1, '\\' :: rest => do
    let (e, rest) ← escape? rest
    let tail ← decodeFrom fuel rest
    return e ++ tail
  | fuel + 1, c :: rest => do
    let tail ← decodeFrom fuel rest
    return c :: tail

/-- The text that a piece of a literal stands for. -/
def decodeText (isRaw : Bool) (cs : List Char) : Option (List Char) :=
  if isRaw then some cs else decodeFrom cs.length cs

/-- The bytes after a backslash, and the rest. -/
def byteEscape? (cs : List Char) : Option (List Nat × List Char) :=
  match cs with
  | [] => some ([92], [])
  | '\n' :: rest => some ([], rest)
  | c :: rest =>
    match letterEscape? c with
    | some e => some ([e.toNat], rest)
    | none =>
      if '0' ≤ c && c ≤ '7' then
        let (n, after) := octalDigits 3 cs
        -- three octal digits may be too large for a byte
        some ([n % 256], after)
      else if c == 'x' then (hexDigits? 2 rest).map fun (n, after) => ([n], after)
      else some ([92, c.toNat], rest)

/-- Decodes the escapes of a bytes literal, with fuel for every character. -/
def decodeBytesFrom (fuel : Nat) (cs : List Char) : Option (List Nat) :=
  match fuel, cs with
  | _, [] => some []
  | 0, _ => none
  | fuel + 1, '\\' :: rest => do
    let (e, rest) ← byteEscape? rest
    let tail ← decodeBytesFrom fuel rest
    return e ++ tail
  | fuel + 1, c :: rest => do
    let tail ← decodeBytesFrom fuel rest
    return c.toNat :: tail

/-- The value of a bytes literal, which may hold ASCII characters only. -/
def decodeBytes (q : Quoted) : Option (List Nat) :=
  if q.body.any (128 ≤ ·.toNat) then none
  else if q.isRaw then some (q.body.map Char.toNat)
  else decodeBytesFrom q.body.length q.body

/-! ## Formatted literals -/

/-- A piece of a formatted literal. A field holds the text of its expression, how many lines below
the start of the literal that text begins, its conversion, and the pieces of its format. -/
inductive Piece where
  | text (cs : List Char)
  | field (expression : List Char) (below : Nat) (conversion : Option Char)
      (format : Option (List Piece))

/-- The literal text up to the next field. `closed` says that a doubled brace ended it, so that more
text follows; otherwise the rest is empty or starts with a brace. -/
structure LiteralRun where
  text : List Char
  closed : Bool
  rest : List Char

/-- At a brace of literal text. Outside a format two equal braces stand for one, and a closing brace
cannot stand alone. -/
def atBrace (inFormat : Bool) (done : List Char) (c : Char) (cs : List Char) : Option LiteralRun :=
  if inFormat then some ⟨done.reverse, false, c :: cs⟩
  else if cs.head? = some c then some ⟨(c :: done).reverse, true, cs.tail⟩
  else if c == '\x7d' then none
  else some ⟨done.reverse, false, c :: cs⟩

def isBrace (c : Char) : Bool := c == '\x7b' || c == '\x7d'

/-- Reads literal text, with the characters read so far reversed in `done`. The braces of a
character name, inside of which `naming` holds, belong to the text. -/
def literalRun (isRaw inFormat naming : Bool) (done : List Char) : List Char → Option LiteralRun
  | [] => some ⟨done.reverse, false, []⟩
  | [c] =>
    if isBrace c && !naming then atBrace inFormat done c []
      else some ⟨(c :: done).reverse, false, []⟩
  | c :: d :: rest =>
    if naming then literalRun isRaw inFormat (c != '\x7d') (c :: done) (d :: rest)
    else if !isRaw && c == '\\' then
      if d == 'N' && rest.head? = some '\x7b' then literalRun isRaw inFormat true
        (d :: c :: done) rest
      -- a backslash does not escape a brace
      else if isBrace d then atBrace inFormat (c :: done) d rest
      else literalRun isRaw inFormat false (d :: c :: done) rest
    else if isBrace c then atBrace inFormat done c (d :: rest)
    else literalRun isRaw inFormat false (c :: done) (d :: rest)

/-- Whether one bracket closes another. -/
def closes (opening closing : Char) : Bool :=
  (opening == '(' && closing == ')') || (opening == '[' && closing == ']') ||
    (opening == '\x7b' && closing == '\x7d')

/-- The text of a field's expression, up to the character that ends it, which starts the rest. The
next `skip` characters belong to the text as they are; `quote` is the quote of an open text literal
with whether it is tripled, and `brackets` are the open brackets. Comparison operators do not end
the expression. -/
def fieldExpression (skip : Nat) (quote : Option (Char × Bool)) (brackets : List Char)
    (done : List Char) : List Char → Option (List Char × List Char)
  | [] => none
  | c :: cs =>
    let go (skip : Nat) (quote : Option (Char × Bool)) (brackets : List Char) :=
      fieldExpression skip quote brackets (c :: done) cs
    let tripled := [c, c].isPrefixOf cs
    match skip, quote with
    | skip + 1, _ => go skip quote brackets
    | 0, some (q, isTripled) =>
      if c == '\\' then none
      else if c != q then go 0 quote brackets
      else if !isTripled then go 0 none brackets
      else if tripled then go 2 none brackets
      else go 0 quote brackets
    | 0, none =>
      -- neither may stand in a field, even where it would do no harm
      if c == '\\' || c == '#' then none
      else if c == '\'' || c == '"' then
        if tripled then go 2 (some (c, true)) brackets else go 0 (some (c, false)) brackets
      else if ['(', '[', '\x7b'].contains c then
        if bracketLimit ≤ brackets.length then none else go 0 none (c :: brackets)
      else if brackets.isEmpty && ['!', ':', '\x7d', '=', '<', '>'].contains c then
        if cs.head? = some '=' && ['!', '=', '<', '>'].contains c then go 1 none brackets
        else if c == '<' || c == '>' then go 0 none brackets
        else some (done.reverse, c :: cs)
      else if [')', ']', '\x7d'].contains c then
        match brackets with
        | b :: bs => if closes b c then go 0 none bs else none
        | [] => none
      else go 0 none brackets

/-- White space that separates tokens. -/
def isFiller (c : Char) : Bool := c == ' ' || c == '\t' || c == '\n' || c == '\x0c'

/-- White space after the equals sign of a field that shows its own text. -/
def isSpacing (c : Char) : Bool := c == ' ' || (9 ≤ c.toNat && c.toNat ≤ 13)

/-- The conversion letter of a field, if it has one, and the rest. -/
def conversion? (cs : List Char) : Option (Option Char × List Char) :=
  match cs with
  | '!' :: c :: rest => if c == 's' || c == 'r' || c == 'a' then some (some c, rest) else none
  | '!' :: [] => none
  | rest => some (none, rest)

/-- The text of its own that a field with an equals sign shows, and the rest. -/
def shownText (expression cs : List Char) : Option (List Char) × List Char :=
  match cs with
  | '=' :: after =>
      (some (expression ++ '=' :: after.takeWhile isSpacing), after.dropWhile isSpacing)
  | _ => (none, cs)

/-- The format of a field, which `inner` reads after a colon, and the rest. -/
def fieldFormat (inner : List Char → Option (List Piece × List Char)) (cs : List Char) :
    Option (Option (List Piece) × List Char) :=
  match cs with
  | ':' :: after => (inner after).map fun found => (some found.1, found.2)
  | _ => some (none, cs)

/-- A field at its closing brace. With an equals sign it is preceded by its own text, and shown by
`repr` unless a conversion or a format is given. -/
def closeField (expression : List Char) (below : Nat) (shown : Option (List Char))
    (conversion : Option Char) (format : Option (List Piece)) (cs : List Char) :
    Option (List Piece × List Char) :=
  match cs with
  | '\x7d' :: rest =>
    let conversion :=
      if shown.isSome && conversion.isNone && format.isNone then some 'r' else conversion
    some (shown.toList.map Piece.text ++ [.field expression below conversion format], rest)
  | _ => none

mutual

/-- The pieces of a formatted literal. `level` is `0` outside of formats and at most `1`; the pieces
of a format end at a closing brace, which starts the rest. `breaks` counts the line ends of the
whole literal. -/
def pieces (fuel : Nat) (isRaw : Bool) (breaks level : Nat) (cs : List Char) :
    Option (List Piece × List Char) :=
  match fuel with
  | 0 => none
  | fuel + 1 => do
    let run ← literalRun isRaw (level != 0) false [] cs
    let text ← decodeText isRaw run.text
    if run.closed then
      let (more, rest) ← pieces fuel isRaw breaks level run.rest
      return (.text text :: more, rest)
    else
      match run.rest with
      | '\x7b' :: rest =>
        let (field, rest) ← fieldPieces fuel isRaw breaks level rest
        let (more, rest) ← pieces fuel isRaw breaks level rest
        return (.text text :: field ++ more, rest)
      | rest => return ([.text text], rest)

/-- The field after its opening brace. -/
def fieldPieces (fuel : Nat) (isRaw : Bool) (breaks level : Nat) (cs : List Char) :
    Option (List Piece × List Char) :=
  match fuel with
  | 0 => none
  | fuel + 1 => do
    -- a format may have fields, and these formats that have none
    if 2 ≤ level then none
    else
      let (expression, rest) ← fieldExpression 0 none [] [] cs
      if expression.all isFiller then none
      else
        let (shown, rest) := shownText expression rest
        let (conversion, rest) ← conversion? rest
        let (format, rest) ← fieldFormat (pieces fuel isRaw breaks (level + 1)) rest
        -- the line ends before the field are those that are not ahead any more
        closeField expression (breaks - lineBreaks cs) shown conversion format rest

end

/-- The pieces of a formatted literal. -/
def formattedPieces (q : Quoted) : Option (List Piece) := do
  let (found, rest) ← pieces (2 * q.body.length + 2) q.isRaw (lineBreaks q.body) 0 q.body
  if rest.isEmpty then return found else none

end Scorecard.Source.Literal
