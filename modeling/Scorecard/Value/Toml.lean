import Scorecard.Value.Toml.Scalar
import Scorecard.Value.Toml.Tree

set_option autoImplicit false

/-! # TOML

Reading of values in TOML. A document is a sequence of statements, one on a line: headers,
assignments and comments. Only an array, and a text in three quotes, can go over several lines.
-/

namespace Scorecard.Toml

def skipSpace (cs : List Char) : List Char := cs.dropWhile isSpace

/-- What is left after a comment, which goes to the end of the line. Text that is not a comment is
left alone. -/
def skipComment (cs : List Char) : Option (List Char) :=
  match cs with
  | '#' :: rest =>
    if (rest.takeWhile (· != '\n')).any (isControl false) then none
      else some (rest.dropWhile (· != '\n'))
  | _ => some cs

/-- What is left after blanks, line ends and comments. -/
def skipFiller (inComment : Bool) : List Char → Option (List Char)
  | [] => some []
  | c :: cs =>
    if inComment then
      if c == '\n' then skipFiller false cs
      else if isControl false c then none
      else skipFiller true cs
    else if isSpace c || c == '\n' then skipFiller false cs
    else if c == '#' then skipFiller true cs
    else some (c :: cs)

/-! ## Keys -/

/-- A character of a key without quotes. -/
def isBareKeyChar (c : Char) : Bool := c.isAlphanum || c == '-' || c == '_'

/-- One part of a key. -/
def readKeyPart (cs : List Char) : Option (String × List Char) :=
  let bare := cs.takeWhile isBareKeyChar
  if bare.isEmpty then readLineText cs else some (String.ofList bare, cs.dropWhile isBareKeyChar)

/-- The parts of a key, separated by dots; there are at most `fuel` of them. The blanks after the
key are skipped. -/
def readKeyParts : Nat → List Char → Option (List String × List Char)
  | 0, _ => none
  | fuel + 1, cs => do
    let (part, rest) ← readKeyPart cs
    match skipSpace rest with
    | '.' :: rest =>
      let (parts, rest) ← readKeyParts fuel (skipSpace rest)
      return (part :: parts, rest)
    | rest => return ([part], rest)

/-- A key: its parts, of which there are fewer than characters. -/
def readKey (cs : List Char) : Except ReadError (List String × List Char) :=
  match readKeyParts cs.length cs with
  | some found => .ok found
  | none => .error .malformed

/-- A condition of the grammar. -/
def required {α : Type} : Option α → Except ReadError α
  | some a => .ok a
  | none => .error .malformed

/-! ## Values -/

mutual

/-- A value, nested at most `depth` deep. -/
def readValue (depth : Nat) (cs : List Char) : Except ReadError (Value × List Char) :=
  match depth, cs with
  | 0, _ => .error .malformed
  | d + 1, '[' :: rest => do
    match ← required (skipFiller false rest) with
    | ']' :: rest => return (.list [], rest)
    | rest =>
      let (items, rest) ← readItems d rest
      return (.list items, rest)
  | d + 1, '\x7b' :: rest =>
    match skipSpace rest with
    | '\x7d' :: rest => .ok (.table [], rest)
    | rest => do
      let (branches, rest) ← readPairs d [] rest
      return (.table (fieldsOf branches), rest)
  | _ + 1, cs => readScalar cs

/-- The items of an array up to its closing bracket; a comma may follow the last one. -/
def readItems (depth : Nat) (cs : List Char) : Except ReadError (List Value × List Char) :=
  match depth with
  | 0 => .error .malformed
  | d + 1 => do
    let (v, rest) ← readValue d cs
    match ← required (skipFiller false rest) with
    | ']' :: rest => return ([v], rest)
    | ',' :: rest =>
      match ← required (skipFiller false rest) with
      | ']' :: rest => return ([v], rest)
      | rest =>
        let (vs, rest) ← readItems d rest
        return (v :: vs, rest)
    | _ => .error .malformed

/-- The assignments of an inline table up to its closing brace, added to the `branches` read so far.
No header can come in between, so that they are all of one section. -/
def readPairs (depth : Nat) (branches : Branches) (cs : List Char) :
    Except ReadError (Branches × List Char) :=
  match depth with
  | 0 => .error .malformed
  | d + 1 => do
    let (key, rest) ← readKey cs
    let (v, rest) ← readValue d (skipSpace (← required (exactly '=' rest)))
    let branches ← required (assign 0 v key branches)
    match skipSpace rest with
    | '\x7d' :: rest => return (branches, rest)
    | ',' :: rest => readPairs d branches (skipSpace rest)
    | _ => .error .malformed

end

/-! ## Documents -/

/-- What has been read of a document: its tables, and the number and the header of the current
section. -/
structure Draft where
  branches : Branches := []
  sectionNumber : Nat := 0
  header : List String := []

/-- Starts a section with the header `[key]`. -/
def readHeader (draft : Draft) (cs : List Char) : Except ReadError (Draft × List Char) := do
  let (key, rest) ← readKey (skipSpace cs)
  let number := draft.sectionNumber + 1
  let branches ← required (atKey (openTable number) key draft.branches)
  let rest ← required (exactly ']' rest)
  return ({ branches, sectionNumber := number, header := key }, rest)

/-- Starts a section with the header `[[key]]`. -/
def readArrayHeader (draft : Draft) (cs : List Char) : Except ReadError (Draft × List Char) := do
  let (key, rest) ← readKey (skipSpace cs)
  let branches ← required (atKey addTable key draft.branches)
  let rest ← required (do exactly ']' (← exactly ']' rest))
  return ({ branches, sectionNumber := draft.sectionNumber + 1, header := key }, rest)

/-- An assignment `key = value` in the current section. -/
def readAssignment (draft : Draft) (cs : List Char) : Except ReadError (Draft × List Char) := do
  let (key, rest) ← readKey cs
  let rest ← required (exactly '=' rest)
  let (v, rest) ← readValue (cs.length + 1) (skipSpace rest)
  let branches ← required (changeAt (assign draft.sectionNumber v key) draft.header draft.branches)
  return ({ draft with branches }, rest)

/-- A statement, if the line has one. -/
def readStatement (draft : Draft) (cs : List Char) : Except ReadError (Draft × List Char) :=
  match cs with
  | '[' :: '[' :: rest => readArrayHeader draft rest
  | '[' :: rest => readHeader draft rest
  | c :: _ =>
    if isBareKeyChar c || c == '"' || c == '\'' then readAssignment draft cs
    else if c == '#' || c == '\n' then .ok (draft, cs)
    else .error .malformed
  | [] => .ok (draft, [])

/-- Reads the statements of a document, at most `fuel` lines. -/
def readStatements : Nat → Draft → List Char → Except ReadError Draft
  | 0, _, _ => .error .malformed
  | fuel + 1, draft, cs => do
    let (draft, rest) ← readStatement draft (skipSpace cs)
    match ← required (skipComment (skipSpace rest)) with
    | [] => return draft
    | '\n' :: rest => readStatements fuel draft rest
    | _ => .error .malformed

/-- Carriage returns before line feeds do not count. -/
def joinLineEnds : List Char → List Char
  | '\r' :: '\n' :: cs => '\n' :: joinLineEnds cs
  | c :: cs => c :: joinLineEnds cs
  | [] => []

/-- Reads a document. Every line but the last ends with a character of its own, so that there are at
most as many as characters, and one. -/
def parse (cs : List Char) : Except ReadError Fields := do
  let cs := joinLineEnds cs
  let draft ← readStatements (cs.length + 1) {} cs
  return fieldsOf draft.branches

end Scorecard.Toml
