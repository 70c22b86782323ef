import Scorecard.Source.Tree

set_option autoImplicit false

/-! # Reading tokens

A reader takes tokens from the front of the input and gives a result, or fails and takes none.
Alternatives are tried in order, and a repetition takes as many items as it can. The cursor
remembers the last line of the tokens taken, so that a node built at the end of a reader knows where
it ends.
-/

namespace Scorecard.Source

/-- The tokens ahead, and the last line of the tokens taken so far. -/
structure Cursor where
  tokens : List Token
  lastLine : Nat

/-- A reader of tokens. -/
abbrev Reader := StateT Cursor Option

namespace Reader

/-- The kind of the token `ahead` places in front. -/
def peek (ahead : Nat := 0) : Reader TokenKind := do
  match (← get).tokens.drop ahead with
  | t :: _ => return t.kind
  | [] => return .done

/-- Whether tokens of a kind are marks without text. -/
def isMark : TokenKind → Bool
  | .newline | .indent | .dedent | .done => true
  | _ => false

/-- The line of the next token, where something starts. Nothing starts at a mark. -/
def line : Reader Nat := do
  match (← get).tokens with
  | t :: _ => if isMark t.kind then failure else return t.line
  | [] => failure

/-- Takes the next token. Marks do not move the last line. -/
def next : Reader TokenKind := fun s =>
  match s.tokens with
  | t :: rest =>
      let lastLine := if isMark t.kind then s.lastLine else t.lastLine
      some (t.kind, { tokens := rest, lastLine })
  | [] => none

/-- Takes the next token if it is of the given kind, and fails otherwise. -/
def expect (kind : TokenKind) : Reader Unit := do
  if (← peek) = kind then discard next else failure

def symbol (s : String) : Reader Unit := expect (.op s)

def keyword (w : String) : Reader Unit := expect (.keyword w)

/-- Takes the next token if it is of the given kind, and says whether it did. -/
def accept (kind : TokenKind) : Reader Bool := do
  if (← peek) = kind then
    discard next
    return true
  else return false

def acceptSymbol (s : String) : Reader Bool := accept (.op s)

def acceptKeyword (w : String) : Reader Bool := accept (.keyword w)

def atSymbol (s : String) : Reader Bool := return (← peek) = .op s

def atKeyword (w : String) : Reader Bool := return (← peek) = .keyword w

/-- A name that is not a keyword. -/
def identifier : Reader String := do
  match ← next with
  | .name id => return id
  | _ => failure

/-- The result of a reader, or none without taking a token. -/
def optional {α : Type} (r : Reader α) : Reader (Option α) := (some <$> r) <|> pure none

/-- What stands after a token of the given kind, or none if that token is not ahead. -/
def following {α : Type} (kind : TokenKind) (r : Reader α) : Reader (Option α) := do
  if ← accept kind then some <$> r else return none

/-- As many results as `fuel` allows. -/
def manyWithin {α : Type} (r : Reader α) : Nat → Cursor → List α × Cursor
  | 0, s => ([], s)
  | fuel + 1, s =>
    match r.run s with
    | none => ([], s)
    | some (a, s) =>
      let (as, s) := manyWithin r fuel s
      (a :: as, s)

/-- As many results as there are. A reader that takes tokens can succeed at most once for each of
them. -/
def many {α : Type} (r : Reader α) : Reader (List α) :=
  fun s => some (manyWithin r (s.tokens.length + 1) s)

/-- At least one result. -/
def many1 {α : Type} (r : Reader α) : Reader (List α) := do
  let first ← r
  return first :: (← many r)

/-- One or more results with a symbol between them; a symbol after the last one is not taken. -/
def separated {α : Type} (separator : String) (r : Reader α) : Reader (List α) := do
  let first ← r
  return first :: (← many (do symbol separator; r))

/-- Applies `step` to a result as often as it succeeds, at most `fuel` times. -/
def iterateWithin {α : Type} (step : α → Reader α) : Nat → α → Cursor → α × Cursor
  | 0, a, s => (a, s)
  | fuel + 1, a, s =>
    match (step a).run s with
    | none => (a, s)
    | some (a, s) => iterateWithin step fuel a s

/-- Applies `step` to a result as often as it succeeds. -/
def iterate {α : Type} (step : α → Reader α) (a : α) : Reader α :=
  fun s => some (iterateWithin step (s.tokens.length + 1) a s)

/-- A node from a first line to the last token taken. -/
def node (label : Label) (line : Nat) (children : List Node) : Reader Node := do
  return .mk .root label line (← get).lastLine children

end Reader

/-- The readers through which the grammar refers to itself: an expression, a condition without `if`
and `lambda`, an operand without comparisons, a factor, an atom with its attributes, calls and
subscripts, a pattern, and a line of statements. -/
structure Grammar where
  expression : Reader Node
  condition : Reader Node
  inversion : Reader Node
  operand : Reader Node
  factor : Reader Node
  primary : Reader Node
  pattern : Reader Node
  statement : Reader (List Node)

namespace Grammar

/-- The grammar without any sentence. -/
def empty : Grammar := ⟨failure, failure, failure, failure, failure, failure, failure, failure⟩

end Grammar

/-! ## Targets

What can be assigned to is read as an expression and then checked. -/

namespace Node

/-- A name, an attribute or a subscript. -/
def isSingleTarget (n : Node) : Bool :=
  match n.label with
  | .name _ | .attribute _ | .subscript => true
  | _ => false

mutual

/-- A single target, or a tuple or list of targets, where an element may be starred. -/
def isTarget : Node → Bool
  | mk _ label _ _ children =>
    match label with
    | .name _ | .attribute _ | .subscript => true
    | .tuple | .list => areTargets children
    | _ => false

/-- Elements of a target. -/
def areTargets : List Node → Bool
  | [] => true
  | mk _ label _ _ children :: rest =>
    (match label with
      | .name _ | .attribute _ | .subscript => true
      | .tuple | .list => areTargets children
      | .starred => areUnstarredTargets children
      | _ => false) && areTargets rest

/-- What a star may stand before. -/
def areUnstarredTargets : List Node → Bool
  | [] => true
  | n :: rest => isTarget n && areUnstarredTargets rest

end

/-- A target that may be starred. -/
def isStarTarget (n : Node) : Bool := areTargets [n]

mutual

/-- A single target, or a tuple or list of targets without stars: what can be deleted. -/
def isDeletable : Node → Bool
  | mk _ label _ _ children =>
    match label with
    | .name _ | .attribute _ | .subscript => true
    | .tuple | .list => areDeletable children
    | _ => false

def areDeletable : List Node → Bool
  | [] => true
  | n :: rest => isDeletable n && areDeletable rest

end

end Node

end Scorecard.Source
