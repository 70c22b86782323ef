import Scorecard.Source.Numeral
import Scorecard.Text.Identifier
import Scorecard.Text.Normalization

set_option autoImplicit false

/-! # Splitting source text into tokens

The text is read line by line. The white space at the start of a line is compared with the
indentation of the open blocks; blank lines, comment lines and lines inside brackets do not take
part. Indentation is measured twice, with tab stops at eight and at one, and both measures must
agree on every comparison. A text that cannot be split has no tokens.
-/

namespace Scorecard.Source

/-- Where the lexer stands: the text ahead, its line, the open brackets with the innermost first,
and the indentation of the open blocks in both measures with the innermost first. -/
structure LexState where
  rest : List Char
  line : Nat
  brackets : List Char
  indents : List (Nat × Nat)

/-- Blocks nest at most this deep. -/
def indentLimit : Nat := 100

/-- Brackets nest at most this deep. -/
def bracketLimit : Nat := 200

/-! ## Indentation -/

/-- Both measures of the white space read so far, with the column at which a first backslash
continued the line. -/
structure Margin where
  column : Nat := 0
  alternate : Nat := 0
  continued : Nat := 0

/-- The two columns that count: a continued line has the column of its first part. -/
def Margin.columns (m : Margin) : Nat × Nat :=
  if m.continued = 0 then (m.column, m.alternate) else (m.continued, m.continued)

/-- Reads the white space at the start of a line. The result has the text after it and its line. -/
def readMargin (m : Margin) (line : Nat) : List Char → Option (Margin × Nat × List Char)
  | ' ' :: cs => readMargin { m with column := m.column + 1, alternate := m.alternate + 1 } line cs
  | '\t' :: cs =>
    readMargin { m with column := (m.column / 8 + 1) * 8, alternate := m.alternate + 1 } line cs
  -- a form feed starts the line anew
  | '\x0c' :: cs => readMargin { m with column := 0, alternate := 0 } line cs
  | '\\' :: '\n' :: c :: cs =>
    let continued := if m.continued = 0 then m.column else m.continued
    readMargin { m with continued := continued } (line + 1) (c :: cs)
  | '\\' :: _ => none
  | cs => some (m, line, cs)

/-- Compares a margin with the open blocks: the new stack and the marks to emit. -/
def indentation (columns : Nat × Nat) (indents : List (Nat × Nat)) :
    Option (List (Nat × Nat) × List TokenKind) :=
  match indents with
  | [] => none
  | top :: _ =>
    if columns.1 = top.1 then
      if columns.2 = top.2 then some (indents, []) else none
    else if top.1 < columns.1 then
      if indentLimit ≤ indents.length || columns.2 ≤ top.2 then none
      else some (columns :: indents, [.indent])
    else
      -- a block can only go on at the margin it started at
      let kept := indents.dropWhile fun i => columns.1 < i.1
      if kept.head? = some columns then
        some (kept, List.replicate (indents.length - kept.length) .dedent)
      else none

/-! ## Single tokens -/

/-- The letters before a quote, and the text from the quote on. -/
def literalPrefix? (cs : List Char) : Option (String × List Char) :=
  let isQuote (c : Char) : Bool := c == '\'' || c == '"'
  match cs with
  | q :: _ =>
    if isQuote q then some ("", cs)
    else
      match cs with
      | a :: q :: rest =>
        if isQuote q then
          -- a capital `U` says nothing
          let letters := if a == 'U' then "" else String.ofList [a.toLower]
          if ["", "r", "u", "b", "f"].contains letters then some (letters, q :: rest) else none
        else
          match rest with
          | r :: _ =>
            let letters := String.ofList [a.toLower, q.toLower]
            if isQuote r && ["rb", "br", "rf", "fr"].contains letters then some (letters, rest)
              else none
          | [] => none
      | _ => none
  | [] => none

/-- The body of a literal that ends at `quote` on the same line, and the text after it. A backslash
takes the next character with it. -/
def shortBody (quote : Char) (done : List Char) : List Char → Option (List Char × List Char)
  | [] => none
  | '\\' :: c :: cs => shortBody quote (c :: '\\' :: done) cs
  | c :: cs =>
    if c == quote then some (done.reverse, cs)
    else if c == '\n' then none
    else shortBody quote (c :: done) cs

/-- The body of a literal that ends at three quotes, and the text after it. -/
def longBody (quote : Char) (done : List Char) : List Char → Option (List Char × List Char)
  | [] => none
  | '\\' :: c :: cs => longBody quote (c :: '\\' :: done) cs
  | [_] | [_, _] => none
  | a :: b :: c :: cs =>
    if a == quote && b == quote && c == quote then some (done.reverse, cs)
    else longBody quote (a :: done) (b :: c :: cs)

/-- A text literal at its opening quote. -/
def readQuoted (letters : String) (cs : List Char) : Option (Quoted × List Char) :=
  let quoted (body : List Char) : Quoted :=
    { isBytes := letters.toList.contains 'b', isRaw := letters.toList.contains 'r',
      isFormatted := letters.toList.contains 'f', isMarked := letters.toList.contains 'u', body }
  match cs with
  | a :: b :: c :: rest =>
    -- two equal quotes without a third one are an empty literal
    if a == b && b == c then (longBody a [] rest).map fun (body, rest) => (quoted body, rest)
    else (shortBody a [] (b :: c :: rest)).map fun (body, rest) => (quoted body, rest)
  | a :: rest => (shortBody a [] rest).map fun (body, rest) => (quoted body, rest)
  | [] => none

/-- The operator at the front of the text, and the text after it. -/
def readOperator? (cs : List Char) : Option (String × List Char) :=
  operators.findSome? fun o => if o.toList.isPrefixOf cs then some (o, cs.drop o.length) else none

/-- The brackets that are open after an operator; a closing bracket must match the innermost open
one. -/
def bracketsAfter (symbol : String) (brackets : List Char) : Option (List Char) :=
  let closes (opening : Char) : Option (List Char) :=
    match brackets with
    | b :: rest => if b == opening then some rest else none
    | [] => none
  match symbol.toList with
  | ['('] | ['['] | ['\x7b'] =>
      if bracketLimit ≤ brackets.length then none else some (symbol.toList ++ brackets)
  | [')'] => closes '('
  | [']'] => closes '['
  | ['\x7d'] => closes '\x7b'
  | _ => some brackets

/-- The token of a name or keyword. -/
def wordToken? (word : List Char) : Option TokenKind :=
  let text := String.ofList word
  -- a keyword is one as it is written, a name after it is normalized
  if keywords.contains text then some (.keyword text)
  else if Text.isIdentifier word then some (.name (Text.normalizeIdentifier text))
  else none

/-- How many lines a text goes down. -/
def lineBreaks (cs : List Char) : Nat := cs.countP (· == '\n')

/-- The token at the front of the text, which is not blank: its kind, the lines it spans beyond its
first, the open brackets after it and the text after it. -/
def readToken (s : LexState) : Option (TokenKind × Nat × List Char × List Char) :=
  match s.rest with
  | [] => none
  | c :: next =>
    match literalPrefix? s.rest with
    | some (letters, cs) => do
      let (q, rest) ← readQuoted letters cs
      return (.quoted q, lineBreaks q.body, s.brackets, rest)
    | none =>
      if c.isAlpha || c == '_' || 128 ≤ c.toNat then do
        let kind ← wordToken? (s.rest.takeWhile Numeral.isNameChar)
        return (kind, 0, s.brackets, s.rest.dropWhile Numeral.isNameChar)
      else if c.isDigit || (c == '.' && next.head?.any Char.isDigit) then do
        let (value, rest) ← Numeral.read s.rest
        return (.number value, 0, s.brackets, rest)
      else do
        let (symbol, rest) ← readOperator? s.rest
        let brackets ← bracketsAfter symbol s.brackets
        return (.op symbol, 0, brackets, rest)

/-! ## Lines -/

/-- White space between the tokens of a line. -/
def isGap (c : Char) : Bool := c == ' ' || c == '\t' || c == '\x0c'

/-- Tokens without text of their own. -/
def marksAt (line : Nat) (kinds : List TokenKind) : List Token :=
  kinds.map fun kind => ⟨kind, line, line⟩

mutual

/-- The tokens from the start of a line on. -/
def lexLine (fuel : Nat) (s : LexState) : Option (List Token) :=
  match fuel with
  | 0 => none
  | fuel + 1 => do
    let (margin, line, rest) ← readMargin {} s.line s.rest
    let s := { s with rest, line }
    match rest with
    | [] =>
      -- the end closes every open block
      if s.brackets.isEmpty then
        return marksAt line (List.replicate (s.indents.length - 1) TokenKind.dedent ++
          [TokenKind.done])
      else none
    | c :: _ =>
      if c == '#' || c == '\n' then
        match rest.dropWhile (· != '\n') with
        | _ :: rest => lexLine fuel { s with rest, line := line + 1 }
        | [] => lexLine fuel { s with rest := [] }
      else if s.brackets.isEmpty then
        let (indents, marks) ← indentation margin.columns s.indents
        let tokens ← lexRest fuel { s with indents }
        return marksAt line marks ++ tokens
      else lexRest fuel s

/-- The tokens from inside a line on. -/
def lexRest (fuel : Nat) (s : LexState) : Option (List Token) :=
  match fuel with
  | 0 => none
  | fuel + 1 =>
    let rest := s.rest.dropWhile isGap
    match rest with
    | [] => if s.brackets.isEmpty then lexLine fuel { s with rest } else none
    | '\n' :: rest =>
      let below := { s with rest, line := s.line + 1 }
      if s.brackets.isEmpty then do
        let tokens ← lexLine fuel below
        return ⟨.newline, s.line, s.line⟩ :: tokens
      else lexLine fuel below
    | '#' :: rest => lexRest fuel { s with rest := rest.dropWhile (· != '\n') }
    -- there must be a line to go on with
    | '\\' :: '\n' :: c :: rest => lexRest fuel { s with rest := c :: rest, line := s.line + 1 }
    | '\\' :: _ => none
    | rest => do
      let (kind, below, brackets, after) ← readToken { s with rest }
      let tokens ← lexRest fuel { s with rest := after, line := s.line + below, brackets }
      return ⟨kind, s.line, s.line + below⟩ :: tokens

end

/-- The text with a newline at its end. -/
def closeLastLine (cs : List Char) : List Char :=
  if cs.getLast? = some '\n' then cs else cs ++ ['\n']

/-- The tokens of a source text whose first line has the given number. Every step reads a character
or turns from the start of a line to its inside, so twice the length of the text is enough fuel. -/
def tokens? (firstLine : Nat) (cs : List Char) : Option (List Token) :=
  if cs.contains '\x00' then none
  else
    let cs := closeLastLine cs
    lexLine (2 * cs.length + 4)
      { rest := cs, line := firstLine, brackets := [], indents := [(0, 0)] }

end Scorecard.Source
