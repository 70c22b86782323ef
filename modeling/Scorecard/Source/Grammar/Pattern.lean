import Scorecard.Source.Grammar.Expression

set_option autoImplicit false

/-! # Patterns

The patterns of a `case` block: literals, captures, dotted names, sequences, mappings, classes, and
the combinations of them by `|` and `as`.
-/

namespace Scorecard.Source.Grammar

open Reader

variable [Text.CharacterNames] (g : Grammar)

/-- An optionally negated number for which `isKind` holds. -/
def signedNumber (isKind : Constant → Bool) : Reader Node := do
  let start ← line
  let negative ← acceptSymbol "-"
  let inner ← line
  match ← next with
  | .number c =>
    if isKind c then
      let n ← node (.constant c) inner []
      if negative then node (.unaryOp .minus) start [n.as .operand] else return n
    else failure
  | _ => failure

def isImaginary : Constant → Bool
  | .imaginary _ => true
  | _ => false

/-- The sign between the parts of a complex number. -/
def signOp : Reader BinaryOp := do
  match ← next with
  | .op "+" => return .add
  | .op "-" => return .sub
  | _ => failure

/-- A sum or difference of a real and an imaginary number. -/
def complexNumber : Reader Node := do
  let start ← line
  let first ← signedNumber fun c => !isImaginary c
  let op ← signOp
  let inner ← line
  match ← next with
  | .number c =>
    if isImaginary c then
      let second ← node (.constant c) inner []
      node (.binOp op) start [first.as .left, second.as .right]
    else failure
  | _ => failure

/-- A number that may be complex. -/
def numberExpr : Reader Node := complexNumber <|> signedNumber fun _ => true

/-- A literal that may stand in a pattern. -/
def literalExpr : Reader Node := do
  let start ← line
  match ← peek with
  | .number _ | .op "-" => numberExpr
  | .quoted _ => literal (fieldNode g)
  | .keyword "None" => discard next; node (.constant .none) start []
  | .keyword "True" => discard next; node (.constant (.bool true)) start []
  | .keyword "False" => discard next; node (.constant (.bool false)) start []
  | _ => failure

/-- A name that a pattern binds: not the wildcard, and not the start of something longer. -/
def captureTarget : Reader String := do
  let name ← identifier
  if name = "_" then failure
  else
    match ← peek with
    | .op "." | .op "(" | .op "=" => failure
    | _ => return name

/-- A dotted name. -/
def dottedValue : Reader Node := do
  let start ← line
  let name ← identifier
  let first ← node (.name name) start []
  iterate (fun value => do
    symbol "."
    let member ← identifier
    node (.attribute member) start [value.as .value]) first

/-- A starred name or wildcard in a sequence. -/
def starPattern : Reader Node := do
  let start ← line
  symbol "*"
  match ← peek with
  | .name "_" => discard next; node (.matchStar none) start []
  | _ =>
    let name ← captureTarget
    node (.matchStar (some name)) start []

def maybeStarPattern : Reader Node := do
  if ← atSymbol "*" then starPattern else g.pattern

/-- Patterns with commas between and possibly after them. -/
def sequenceItems : Reader (List Node) := do
  let items ← separated "," (maybeStarPattern g)
  discard (acceptSymbol ",")
  return items.map (·.as .pattern)

/-- A group or a sequence from its opening parenthesis on. -/
def groupPattern : Reader Node := do
  let start ← line
  symbol "("
  if ← acceptSymbol ")" then node .matchSequence start []
  else
    let first ← maybeStarPattern g
    if ← acceptSymbol "," then
      let more ← Reader.optional (sequenceItems g)
      symbol ")"
      node .matchSequence start (first.as .pattern :: more.getD [])
    else
      symbol ")"
      match first.label with
      -- only a sequence can have a starred part
      | .matchStar _ => failure
      | _ => return first

def bracketPattern : Reader Node := do
  let start ← line
  symbol "["
  let items ← Reader.optional (sequenceItems g)
  symbol "]"
  node .matchSequence start (items.getD [])

/-- A key of a mapping pattern: a literal or a dotted name with at least one dot. -/
def mappingKey : Reader Node := literalExpr g <|> do
  let n ← dottedValue
  match n.label with
  | .attribute _ => return n
  | _ => failure

/-- An entry of a mapping pattern: a key and the pattern of its value. -/
def mappingEntry : Reader (Node × Node) := do
  let key ← mappingKey g
  symbol ":"
  return (key, ← g.pattern)

/-- The name that takes the rest of a mapping, with a comma before it if entries precede it. -/
def mappingRest (isFirst : Bool) : Reader String := do
  if isFirst then
    symbol "**"
    captureTarget
  else
    symbol ","
    symbol "**"
    captureTarget

/-- A comma at the end of a list of items that is not empty. -/
def lastComma (isEmpty : Bool) : Reader Unit := do
  if isEmpty then return ()
  else discard (acceptSymbol ",")

def mappingPattern : Reader Node := do
  let start ← line
  symbol "\x7b"
  let items ← Reader.optional (separated "," (mappingEntry g))
  let items := items.getD []
  let name ← Reader.optional (mappingRest items.isEmpty)
  lastComma (items.isEmpty && name.isNone)
  symbol "\x7d"
  node (.matchMapping name) start (items.map (·.1.as .key) ++ items.map (·.2.as .pattern))

/-- One argument of a class pattern. Keywords come after positional patterns. -/
def classItem : Reader (Option String × Node) := do
  match ← peek, ← peek 1 with
  | .name id, .op "=" =>
    discard next
    discard next
    return (some id, ← g.pattern)
  | _, _ => return (none, ← g.pattern)

/-- The arguments of a class pattern after the class. -/
def classPattern (start : Nat) (cls : Node) : Reader Node := do
  symbol "("
  let items ← Reader.optional (separated "," (classItem g))
  let items := items.getD []
  lastComma items.isEmpty
  symbol ")"
  let keywords := items.dropWhile (·.1.isNone)
  if keywords.any (·.1.isNone) then failure
  else
    let positional := items.takeWhile (·.1.isNone)
    node (.matchClass (keywords.filterMap (·.1))) start
      (cls.as .function :: positional.map (·.2.as .pattern) ++
        keywords.map (·.2.as .keywordPattern))

/-- A pattern that starts with a name: a capture, the wildcard, a dotted value, or a class. -/
def namePattern : Reader Node := do
  let start ← line
  match ← peek, ← peek 1 with
  | .name "_", _ => discard next; node (.matchAs none) start []
  | .name _, .op "." | .name _, .op "(" =>
    let value ← dottedValue
    if ← atSymbol "(" then classPattern g start value
    else if ← atSymbol "=" then failure
    else node .matchValue start [value.as .value]
  | _, _ =>
    let name ← captureTarget
    node (.matchAs (some name)) start []

def closedPattern : Reader Node := do
  let start ← line
  match ← peek with
  | .name _ => namePattern g
  | .op "(" => groupPattern g
  | .op "[" => bracketPattern g
  | .op "\x7b" => mappingPattern g
  -- the three constants are matched by identity, other literals by equality
  | .keyword _ =>
    let n ← literalExpr g
    match n.label with
    | .constant c => node (.matchSingleton c) start []
    | _ => failure
  | _ =>
    let value ← literalExpr g
    node .matchValue start [value.as .value]

/-- One pattern, or alternatives. -/
def alternatives : Reader Node := do
  let start ← line
  match ← separated "|" (closedPattern g) with
  | [single] => return single
  | options => node .matchOr start (options.map (·.as .pattern))

/-- Alternatives, possibly bound to a name. -/
def patternRule : Reader Node := do
  let start ← line
  let value ← alternatives g
  let name ← Reader.optional (do keyword "as"; captureTarget)
  match name with
  | some name => node (.matchAs (some name)) start [value.as .pattern]
  | none => return value

/-- The pattern of a `case` block, where a sequence needs no brackets. -/
def topPattern : Reader Node := do
  let start ← line
  let first ← maybeStarPattern g
  if ← acceptSymbol "," then
    let more ← Reader.optional (sequenceItems g)
    node .matchSequence start (first.as .pattern :: more.getD [])
  else
    match first.label with
    | .matchStar _ => failure
    | _ => return first

end Scorecard.Source.Grammar
