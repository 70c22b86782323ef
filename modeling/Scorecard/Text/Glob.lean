set_option autoImplicit false

/-! # Glob patterns

A pattern for whole texts: `*` stands for any sequence of characters, `?` for any single one, `[…]`
for one of a set and `[!…]` for one outside it. Slashes are characters like any other. A bracket
that is never closed stands for itself.
-/

namespace Scorecard.Text

/-- A range of characters, both ends included. -/
structure CharRange where
  first : Char
  last : Char
deriving DecidableEq, Repr

/-- A piece of a pattern. -/
inductive GlobPiece where
  | star
  | any
  | char (c : Char)
  | oneOf (ranges : List CharRange)
  | noneOf (ranges : List CharRange)
deriving DecidableEq, Repr

/-- The characters and ranges of a set. A hyphen at either end stands for itself, and so does one
right after a range. -/
def setRanges : List Char → List CharRange
  | [] => []
  | a :: '-' :: b :: rest => ⟨a, b⟩ :: setRanges rest
  | a :: rest => ⟨a, a⟩ :: setRanges rest

/-- A range that holds no character. -/
def CharRange.isEmpty (r : CharRange) : Bool := r.last.val < r.first.val

/-- The piece for a set. Empty ranges are dropped before anything else, so that a set is also
negated by an exclamation mark that only then comes to its front; a range from the mark is then read
as two characters. -/
def setPiece (negated : Bool) (inside : List Char) : GlobPiece :=
  let ranges := (setRanges inside).filter fun r => !r.isEmpty
  if negated then .noneOf ranges
  else
    match ranges with
    | ⟨'!', '!'⟩ :: rest => .noneOf rest
    | ⟨'!', last⟩ :: rest => .noneOf (⟨'-', '-'⟩ :: ⟨last, last⟩ :: rest)
    | ranges => .oneOf ranges

/-- The inside of a set after its opening bracket and the text after it. A closing bracket at the
very front stands for itself. -/
def readSet? (cs : List Char) : Option (List Char × List Char) :=
  let closed (front : List Char) (rest : List Char) : Option (List Char × List Char) :=
    match rest.dropWhile (· != ']') with
    | _ :: after => some (front ++ rest.takeWhile (· != ']'), after)
    | [] => none
  match cs with
  | ']' :: rest => closed [']'] rest
  | rest => closed [] rest

/-- The pieces of a pattern, at most `fuel` of them. -/
def globPiecesWithin : Nat → List Char → List GlobPiece
  | 0, _ => []
  | _, [] => []
  | fuel + 1, c :: cs =>
    if c == '*' then .star :: globPiecesWithin fuel cs
    else if c == '?' then .any :: globPiecesWithin fuel cs
    else if c == '[' then
      let negated := cs.head? == some '!'
      match readSet? (if negated then cs.drop 1 else cs) with
      | some (inside, rest) => setPiece negated inside :: globPiecesWithin fuel rest
      | none => .char c :: globPiecesWithin fuel cs
    else .char c :: globPiecesWithin fuel cs

/-- The pieces of a pattern. -/
def globPieces (pattern : String) : List GlobPiece := globPiecesWithin pattern.length pattern.toList

def CharRange.contains (r : CharRange) (c : Char) : Bool :=
  r.first.val ≤ c.val && c.val ≤ r.last.val

/-- Whether a piece other than the star stands for a character. -/
def GlobPiece.accepts (c : Char) : GlobPiece → Bool
  | star => false
  | any => true
  | char d => c == d
  | oneOf ranges => ranges.any (·.contains c)
  | noneOf ranges => !ranges.any (·.contains c)

/-- Whether `p` holds of the text or of what is left after some of its first characters. -/
def anySuffix (p : List Char → Bool) : List Char → Bool
  | [] => p []
  | c :: cs => p (c :: cs) || anySuffix p cs

/-- Whether a text as a whole fits a pattern. -/
def globMatches : List GlobPiece → List Char → Bool
  | [], cs => cs.isEmpty
  | .star :: ps, cs => anySuffix (globMatches ps) cs
  | _ :: _, [] => false
  | p :: ps, c :: cs => p.accepts c && globMatches ps cs

/-- Whether a text fits a pattern. -/
def fits (pattern text : String) : Bool := globMatches (globPieces pattern) text.toList

end Scorecard.Text
