import Scorecard.Source.Grammar.Basic
import Scorecard.Source.Literal

set_option autoImplicit false

/-! # Expressions

The expression part of the grammar, from atoms up to lists of starred expressions. Operators of one
level of precedence group to the left, except the power. A parenthesised expression is the
expression itself, but what is built around it starts at the parenthesis.
-/

namespace Scorecard.Source.Grammar

open Reader

variable [Text.CharacterNames] (g : Grammar)

/-! ## Operators -/

/-- A left-associative level of binary operators. -/
def binaryLevel (operators : List (String × BinaryOp)) (operand : Reader Node) : Reader Node := do
  let start ← line
  let first ← operand
  iterate (fun left => do
    match ← next with
    | .op s =>
      match operators.lookup s with
      | some op =>
        let right ← operand
        node (.binOp op) start [left.as .left, right.as .right]
      | none => failure
    | _ => failure) first

/-- Operands joined by a keyword; a single operand stands for itself. -/
def joined (word : String) (op : BoolOp) (operand : Reader Node) : Reader Node := do
  let start ← line
  let first ← operand
  let more ← many (do keyword word; operand)
  if more.isEmpty then return first
  else node (.boolOp op) start ((first :: more).map (·.as .value))

/-! ## Text literals -/

/-- One token of a literal with its line. -/
structure QuotedAt where
  quoted : Quoted
  line : Nat

/-- A text literal at the front of the input. -/
def quotedAt : Reader QuotedAt := do
  let start ← line
  match ← next with
  | .quoted q => return ⟨q, start⟩
  | _ => failure

/-- The bytes of adjacent bytes literals. -/
def bytesOf (parts : List QuotedAt) : Option (List Nat) :=
  if parts.all (·.quoted.isBytes) then
    (parts.mapM fun p => Literal.decodeBytes p.quoted).map List.flatten
  else none

/-- The text of adjacent text literals. -/
def textOf (parts : List QuotedAt) : Option (List Char) :=
  (parts.mapM fun p => Literal.decodeText p.quoted.isRaw p.quoted.body).map List.flatten

mutual

/-- The nodes of pieces of a formatted literal that spans the lines from `first` to `last`. The
fields of the token at `line` are read by `readField`, which gets the text of an expression and its
line. -/
def pieceNodes (readField : Nat → List Char → Option Node) (line first last : Nat) :
    List Literal.Piece → Option (List Node)
  | [] => some []
  | .text cs :: rest => do
    let more ← pieceNodes readField line first last rest
    return .mk .value (.constant (.text (String.ofList cs) false)) first last [] :: more
  | .field expression below conversion format :: rest => do
    let value ← readField (line + below) expression
    let spec ← formatNode readField line first last format
    let more ← pieceNodes readField line first last rest
    return .mk .value (.formattedValue conversion) first last (value.as .value :: spec) :: more

/-- The node of a format, if there is one. -/
def formatNode (readField : Nat → List Char → Option Node) (line first last : Nat) :
    Option (List Literal.Piece) → Option (List Node)
  | none => some []
  | some inner => do
    let nodes ← pieceNodes readField line first last inner
    return [.mk .formatSpec .joinedText first last nodes]

end

/-- The nodes of one part of a formatted literal that spans the lines from `first` to `last`. -/
def partNodes (readField : Nat → List Char → Option Node) (first last : Nat) (p : QuotedAt) :
    Option (List Node) :=
  if p.quoted.isFormatted then do
    let pieces ← Literal.formattedPieces p.quoted
    pieceNodes readField p.line first last pieces
  else do
    let cs ← Literal.decodeText p.quoted.isRaw p.quoted.body
    return [.mk .value (.constant (.text (String.ofList cs) false)) first last []]

/-- Joins neighbouring text constants and drops empty ones. -/
def mergeConstants : List Node → List Node
  | [] => []
  | n :: rest =>
    match n.label with
    | .constant (.text a _) =>
      match mergeConstants rest with
      | [] => if a.isEmpty then [] else [n]
      | m :: more =>
        match m.label with
        | .constant (.text b _) =>
            .mk n.role (.constant (.text (a ++ b) false)) n.line n.lastLine [] :: more
        | _ => if a.isEmpty then m :: more else n :: m :: more
    | _ => n :: mergeConstants rest

mutual

/-- Merges the text constants of a formatted literal and of the formats inside it. -/
def tidy : Node → Node
  | .mk role label a b children =>
    match label with
    | .joinedText => .mk role label a b (mergeConstants (tidyAll children))
    | .formattedValue _ => .mk role label a b (tidyAll children)
    | _ => .mk role label a b children

def tidyAll : List Node → List Node
  | [] => []
  | n :: rest => tidy n :: tidyAll rest

end

/-- Adjacent literals are one literal: bytes, text, or formatted if one of them is. -/
def literal (readField : Nat → List Char → Option Node) : Reader Node := do
  let start ← line
  let parts ← many1 quotedAt
  let stop := (← get).lastLine
  -- bytes do not mix with text
  if parts.any (·.quoted.isBytes) then
    match bytesOf parts with
    | some bs => node (.constant (.bytes bs)) start []
    | none => failure
  else if parts.any (·.quoted.isFormatted) then
    match parts.mapM (partNodes readField start stop) with
    | some nodes => return tidy (.mk .root .joinedText start stop nodes.flatten)
    | none => failure
  else
    match textOf parts with
    -- the first part decides whether the literal is marked
    | some cs =>
        node (.constant (.text (String.ofList cs) ((parts.take 1).any (·.quoted.isMarked))))
          start []
    | none => failure

/-! ## Parameters

Parameters come in the order positional-only (before `/`), positional, variadic (`*`), keyword-only,
and keyword-variadic (`**`). A parameter without a default cannot follow one with a default, except
after the star. -/

/-- The parameters read so far. -/
structure Params where
  positionalOnly : List Node := []
  positional : List Node := []
  defaults : List Node := []
  variadic : Option Node := none
  keywordOnly : List Node := []
  keywordDefaults : List (Option Node) := []
  keywordVariadic : Option Node := none
  starred : Bool := false
  sealed : Bool := false
  slashed : Bool := false

/-- The node of a list of parameters. -/
def Params.node (p : Params) (line lastLine : Nat) : Node :=
  .mk .arguments (.parameters (p.keywordDefaults.map (·.isSome))) line lastLine
    (p.positionalOnly.map (·.as .positionalOnly) ++ p.positional.map (·.as .positional) ++
      p.variadic.toList.map (·.as .variadic) ++ p.keywordOnly.map (·.as .keywordOnly) ++
      p.keywordDefaults.filterMap (·.map (·.as .keywordDefault)) ++
      p.keywordVariadic.toList.map (·.as .keywordVariadic) ++ p.defaults.map (·.as .default))

/-- The type of a parameter; only that of the variadic one may be starred. -/
def parameterType (starrable : Bool) (starred : Reader Node) : Reader Node := do
  if starrable && (← atSymbol "*") then starred else g.expression

/-- The annotation of a parameter. -/
def typeNote (annotated starrable : Bool) (starred : Reader Node) : Reader (List Node) := do
  if annotated && (← atSymbol ":") then
    symbol ":"
    let n ← parameterType g starrable starred
    return [n.as .typeNote]
  else return []

/-- A parameter: a name with its annotation. -/
def parameter (annotated starrable : Bool) (starred : Reader Node) : Reader Node := do
  let start ← line
  let name ← identifier
  let note ← typeNote g annotated starrable starred
  node (.parameter name) start note

/-- One item of a parameter list. -/
def parameterItem (annotated : Bool) (starred : Reader Node) (p : Params) : Reader Params := do
  if p.sealed then failure
  else if ← acceptSymbol "/" then
    if p.slashed || p.starred || p.positional.isEmpty then failure
    -- only the slash tells that the parameters before it are positional-only
    else return { p with positionalOnly := p.positional, positional := [], slashed := true }
  else if ← acceptSymbol "**" then
    let n ← parameter g annotated false starred
    if ← atSymbol "=" then failure
    else return { p with keywordVariadic := some n, sealed := true }
  else if ← acceptSymbol "*" then
    if p.starred then failure
    else if ← atSymbol "," then
      -- a bare star needs a parameter after it
      match ← peek 1 with
      | .name _ => return { p with starred := true }
      | _ => failure
    else
      let n ← parameter g annotated true starred
      if ← atSymbol "=" then failure
      else return { p with variadic := some n, starred := true }
  else
    let n ← parameter g annotated false starred
    let default ← following (.op "=") g.expression
    if p.starred then
      return { p with
        keywordOnly := p.keywordOnly ++ [n]
        keywordDefaults := p.keywordDefaults ++ [default] }
    else
      match default with
      | some d => return { p with positional := p.positional ++ [n], defaults := p.defaults ++ [d] }
      | none =>
        if p.defaults.isEmpty then return { p with positional := p.positional ++ [n] } else failure

/-- A list of parameters up to the symbol `close`, which is not taken. A comma may stand at its
end. -/
def parameterList (annotated : Bool) (starred : Reader Node) (close : String) : Reader Node := do
  let start ← line
  if ← atSymbol close then return ({} : Params).node start start
  else
    let first ← parameterItem g annotated starred {}
    let all ← iterate (fun p => do symbol ","; parameterItem g annotated starred p) first
    discard (acceptSymbol ",")
    if ← atSymbol close then return all.node start (← get).lastLine else failure

/-! ## Lists of expressions -/

/-- Whether `x := e` stands here, without parentheses. -/
def atNamed : Reader Bool := do
  match ← peek, ← peek 1 with
  | .name _, .op ":=" => return true
  | _, _ => return false

/-- `x := e` or an expression. -/
def namedExpression : Reader Node := do
  match ← peek, ← peek 1 with
  | .name id, .op ":=" =>
    let start ← line
    discard next
    let target ← node (.name id) start []
    symbol ":="
    let value ← g.expression
    node .namedExpr start [target.as .target, value.as .value]
  | _, _ => g.expression

/-- A starred operand. -/
def starredOperand : Reader Node := do
  let start ← line
  symbol "*"
  let value ← g.operand
  node .starred start [value.as .value]

def starExpression : Reader Node := do
  if ← atSymbol "*" then starredOperand g else g.expression

def starNamedExpression : Reader Node := do
  if ← atSymbol "*" then starredOperand g else namedExpression g

/-- One item stands for itself; with a comma it is a tuple. -/
def tupleOf (item : Reader Node) : Reader Node := do
  let start ← line
  let items ← separated "," item
  let comma ← acceptSymbol ","
  match items, comma with
  | [single], false => return single
  | items, _ => node .tuple start (items.map (·.as .element))

def starExpressions : Reader Node := tupleOf (starExpression g)

def yieldExpression : Reader Node := do
  let start ← line
  keyword "yield"
  if ← acceptKeyword "from" then
    let value ← g.expression
    node .yieldFrom start [value.as .value]
  else
    let value ← Reader.optional (starExpressions g)
    node .yieldExpr start (value.toList.map (·.as .value))

/-- A `yield` or a list of expressions: what may stand on the right of an assignment. -/
def assigned : Reader Node := do
  if ← atKeyword "yield" then yieldExpression g else starExpressions g

/-! ## Comprehensions, calls and subscripts -/

/-- An expression at the level of attributes, calls and subscripts, checked to be a target. -/
def starTarget : Reader Node := do
  let start ← line
  if ← acceptSymbol "*" then
    let n ← g.primary
    if n.isTarget then node .starred start [n.as .value] else failure
  else
    let n ← g.primary
    if n.isTarget then return n else failure

def starTargets : Reader Node := tupleOf (starTarget g)

/-- One `for` clause of a comprehension with its conditions. -/
def forClause : Reader Node := do
  let start ← line
  let isAsync ← acceptKeyword "async"
  keyword "for"
  let target ← starTargets g
  keyword "in"
  let iterable ← g.condition
  let conditions ← many (do keyword "if"; g.condition)
  node (.comprehension isAsync) start
    (target.as .target :: iterable.as .iterable :: conditions.map (·.as .condition))

def forClauses : Reader (List Node) := do
  return (← many1 (forClause g)).map (·.as .generator)

/-- Whether a comprehension starts here. -/
def atFor : Reader Bool := do
  match ← peek, ← peek 1 with
  | .keyword "for", _ => return true
  | .keyword "async", .keyword "for" => return true
  | _, _ => return false

/-- How far a list of arguments has come: positional ones, then keywords, then unpacked keywords. -/
structure Args where
  positional : List Node := []
  keywords : List Node := []
  sawKeyword : Bool := false
  sawUnpacked : Bool := false

/-- One argument of a call. -/
def argument (a : Args) : Reader Args := do
  let start ← line
  match ← peek, ← peek 1 with
  | .op "**", _ =>
    discard next
    let value ← g.expression
    let n ← node (.keywordArg none) start [value.as .value]
    return { a with keywords := a.keywords ++ [n], sawKeyword := true, sawUnpacked := true }
  | .op "*", _ =>
    -- one star may stand after a keyword, but not after two stars
    if a.sawUnpacked then failure
    else
      discard next
      let value ← g.expression
      let n ← node .starred start [value.as .value]
      return { a with positional := a.positional ++ [n] }
  | .name id, .op "=" =>
    discard next
    discard next
    let value ← g.expression
    let n ← node (.keywordArg (some id)) start [value.as .value]
    return { a with keywords := a.keywords ++ [n], sawKeyword := true }
  | _, _ =>
    if a.sawKeyword then failure
    else
      let n ← namedExpression g
      -- only a name can be a keyword
      if ← atSymbol "=" then failure else return { a with positional := a.positional ++ [n] }

/-- The arguments of a call or class up to the closing parenthesis, which is not taken. -/
def arguments : Reader (List Node) := do
  if ← atSymbol ")" then return []
  else
    let first ← argument g {}
    let all ← iterate (fun a => do symbol ","; argument g a) first
    discard (acceptSymbol ",")
    if ← atSymbol ")" then
      return all.positional.map (·.as .argument) ++ all.keywords.map (·.as .keyword)
    else failure

/-- Whether a positional argument without a star stands here. -/
def atPlainArgument : Reader Bool := do
  match ← peek, ← peek 1 with
  | .name _, .op "=" => return false
  | .op "*", _ | .op "**", _ | .op ")", _ => return false
  | _, _ => return true

/-- The arguments of a call with their parentheses. A generator expression may be the only argument
without parentheses of its own. -/
def callArguments : Reader (List Node) := do
  let start ← line
  symbol "("
  if ← atPlainArgument then
    let first ← namedExpression g
    if ← atFor then
      let clauses ← forClauses g
      symbol ")"
      let n ← node .generatorExpr start (first.as .element :: clauses)
      return [n.as .argument]
    else if ← atSymbol "=" then failure
    else
      let all ← iterate (fun a => do symbol ","; argument g a) ({ positional := [first] } : Args)
      discard (acceptSymbol ",")
      symbol ")"
      return all.positional.map (·.as .argument) ++ all.keywords.map (·.as .keyword)
  else
    let found ← arguments g
    symbol ")"
    return found

/-- A bound of a slice, if it is written. -/
def bound (role : Role) : Reader (List Node) := do
  let n ← Reader.optional g.expression
  return (n.map (·.as role)).toList

/-- A slice from its first colon on. -/
def sliceFrom (start : Nat) (lower : List Node) : Reader Node := do
  symbol ":"
  let upper ← bound g .upper
  let step ← following (.op ":") (bound g .step)
  node .slice start (lower ++ upper ++ step.getD [])

/-- A slice or an index. -/
def sliceItem : Reader Node := do
  let start ← line
  if ← atSymbol ":" then sliceFrom g start []
  else if ← atNamed then namedExpression g
  else
    let first ← g.expression
    if ← atSymbol ":" then sliceFrom g start [first.as .lower] else return first

/-- A slice, an index or a starred expression. -/
def subscriptItem : Reader Node := do
  if ← atSymbol "*" then
    let start ← line
    symbol "*"
    let value ← g.expression
    node .starred start [value.as .value]
  else sliceItem g

/-- The inside of a subscript. A starred item makes it a tuple. -/
def slices : Reader Node := do
  let start ← line
  let items ← separated "," (subscriptItem g)
  let comma ← acceptSymbol ","
  match items, comma with
  | [single], false =>
    match single.label with
    | .starred => node .tuple start [single.as .element]
    | _ => return single
  | items, _ => node .tuple start (items.map (·.as .element))

/-- What follows an atom: attributes, calls and subscripts. `start` is the line of the atom. -/
def trailer (start : Nat) (value : Node) : Reader Node := do
  match ← peek with
  | .op "." =>
    discard next
    let name ← identifier
    node (.attribute name) start [value.as .value]
  | .op "(" =>
    let found ← callArguments g
    node .call start (value.as .function :: found)
  | .op "[" =>
    discard next
    let index ← slices g
    symbol "]"
    node .subscript start [value.as .value, index.as .index]
  | _ => failure

/-! ## Displays -/

/-- A tuple, a group or a generator expression from its opening parenthesis on. -/
def parenthesised : Reader Node := do
  let start ← line
  symbol "("
  if ← acceptSymbol ")" then node .tuple start []
  else if ← atKeyword "yield" then
    let n ← yieldExpression g
    symbol ")"
    return n
  else
    let first ← starNamedExpression g
    let isStarred := first.label = .starred
    if ← atSymbol "," then
      let more ← many (do symbol ","; starNamedExpression g)
      discard (acceptSymbol ",")
      symbol ")"
      node .tuple start ((first :: more).map (·.as .element))
    else if ← atFor then
      if isStarred then failure
      else
        let clauses ← forClauses g
        symbol ")"
        node .generatorExpr start (first.as .element :: clauses)
    else
      symbol ")"
      -- a group is its expression, which cannot be a starred one
      if isStarred then failure else return first

/-- A list or a list comprehension from its opening bracket on. -/
def bracketed : Reader Node := do
  let start ← line
  symbol "["
  if ← acceptSymbol "]" then node .list start []
  else
    let first ← starNamedExpression g
    if ← atFor then
      if first.label = .starred then failure
      else
        let clauses ← forClauses g
        symbol "]"
        node .listComp start (first.as .element :: clauses)
    else
      let more ← many (do symbol ","; starNamedExpression g)
      discard (acceptSymbol ",")
      symbol "]"
      node .list start ((first :: more).map (·.as .element))

/-- One entry of a dictionary: an unpacked mapping, or a key and a value. -/
def dictItem : Reader (Option Node × Node) := do
  if ← acceptSymbol "**" then return (none, ← g.operand)
  else
    let key ← g.expression
    symbol ":"
    return (some key, ← g.expression)

/-- The node of a dictionary: all keys, then all values. -/
def dictNode (start : Nat) (items : List (Option Node × Node)) : Reader Node :=
  node (.dict (items.map (·.1.isNone))) start
    (items.filterMap (·.1.map (·.as .key)) ++ items.map (·.2.as .value))

/-- A dictionary, a set or one of their comprehensions from the opening brace on. -/
def braced : Reader Node := do
  let start ← line
  symbol "\x7b"
  if ← acceptSymbol "\x7d" then node (.dict []) start []
  else if ← atSymbol "**" then
    let items ← separated "," (dictItem g)
    discard (acceptSymbol ",")
    symbol "\x7d"
    dictNode start items
  else
    -- a key cannot be named, which the node no longer shows
    let named ← atNamed
    let first ← starNamedExpression g
    if ← atSymbol ":" then
      if named || first.label = .starred then failure
      else
        symbol ":"
        let value ← g.expression
        if ← atFor then
          let clauses ← forClauses g
          symbol "\x7d"
          node .dictComp start (first.as .key :: value.as .value :: clauses)
        else
          let more ← many (do symbol ","; dictItem g)
          discard (acceptSymbol ",")
          symbol "\x7d"
          dictNode start ((some first, value) :: more)
    else if ← atFor then
      if first.label = .starred then failure
      else
        let clauses ← forClauses g
        symbol "\x7d"
        node .setComp start (first.as .element :: clauses)
    else
      let more ← many (do symbol ","; starNamedExpression g)
      discard (acceptSymbol ",")
      symbol "\x7d"
      node .set start ((first :: more).map (·.as .element))

/-- The expression of a field, read from its own text in parentheses. -/
def fieldNode (line : Nat) (cs : List Char) : Option Node := do
  let tokens ← tokens? line ('(' :: cs ++ [')'])
  -- what may be left after the expression is not looked at
  let (n, _) ← (starExpressions g).run { tokens, lastLine := line }
  return n

def atom : Reader Node := do
  let start ← line
  match ← peek with
  | .name id => discard next; node (.name id) start []
  | .keyword "True" => discard next; node (.constant (.bool true)) start []
  | .keyword "False" => discard next; node (.constant (.bool false)) start []
  | .keyword "None" => discard next; node (.constant .none) start []
  | .op "..." => discard next; node (.constant .ellipsis) start []
  | .number c => discard next; node (.constant c) start []
  | .quoted _ => literal (fieldNode g)
  | .op "(" => parenthesised g
  | .op "[" => bracketed g
  | .op "\x7b" => braced g
  | _ => failure

/-- An atom with its attributes, calls and subscripts. -/
def primaryRule : Reader Node := do
  let start ← line
  let first ← atom g
  iterate (trailer g start) first

/-! ## The levels of an expression -/

/-- A primary that may be awaited. -/
def awaited : Reader Node := do
  let start ← line
  if ← acceptKeyword "await" then
    let value ← primaryRule g
    node .awaitExpr start [value.as .value]
  else primaryRule g

/-- A power binds stronger than a sign on its left and weaker than one on its right. -/
def power : Reader Node := do
  let start ← line
  let base ← awaited g
  if ← acceptSymbol "**" then
    let exponent ← g.factor
    node (.binOp .pow) start [base.as .left, exponent.as .right]
  else return base

/-- A factor after its sign. -/
def signedFactor (start : Nat) (op : UnaryOp) : Reader Node := do
  discard next
  let operand ← g.factor
  node (.unaryOp op) start [operand.as .operand]

/-- A signed or inverted factor, or a power. -/
def factorRule : Reader Node := do
  let start ← line
  match ← peek with
  | .op "+" => signedFactor g start .plus
  | .op "-" => signedFactor g start .minus
  | .op "~" => signedFactor g start .invert
  | _ => power g

/-- The comparison operator at the front. -/
def compareOp : Reader CompareOp := do
  match ← next with
  | .op "==" => return .eq
  | .op "!=" => return .notEq
  | .op "<" => return .lt
  | .op "<=" => return .ltE
  | .op ">" => return .gt
  | .op ">=" => return .gtE
  | .keyword "in" => return .isIn
  | .keyword "not" => do keyword "in"; return .notIn
  | .keyword "is" => if ← acceptKeyword "not" then return .isNot else return .is
  | _ => failure

def term : Reader Node :=
  binaryLevel [("*", .mul), ("/", .div), ("//", .floorDiv), ("%", .mod), ("@", .matMul)]
    (factorRule g)

def sum : Reader Node := binaryLevel [("+", .add), ("-", .sub)] (term g)

def shift : Reader Node := binaryLevel [("<<", .leftShift), (">>", .rightShift)] (sum g)

def bitAnd : Reader Node := binaryLevel [("&", .bitAnd)] (shift g)

def bitXor : Reader Node := binaryLevel [("^", .bitXor)] (bitAnd g)

def bitOr : Reader Node := binaryLevel [("|", .bitOr)] (bitXor g)

def comparison : Reader Node := do
  let start ← line
  let first ← bitOr g
  let pairs ← many (do let op ← compareOp; return (op, ← bitOr g))
  if pairs.isEmpty then return first
  else
    node (.compare (pairs.map (·.1))) start (first.as .left :: pairs.map (·.2.as .comparator))

/-- `not` binds weaker than comparisons. -/
def inversionRule : Reader Node := do
  let start ← line
  if ← acceptKeyword "not" then
    let operand ← g.inversion
    node (.unaryOp .not) start [operand.as .operand]
  else comparison g

def conjunction : Reader Node := joined "and" .and (inversionRule g)

def disjunction : Reader Node := joined "or" .or (conjunction g)

/-- A function without a name. -/
def lambdaRule : Reader Node := do
  let start ← line
  keyword "lambda"
  -- a colon ends the parameters, so they have no annotations
  let parameters ← parameterList g false failure ":"
  symbol ":"
  let body ← g.expression
  node .lambdaExpr start [parameters.as .arguments, body.as .body]

/-- A condition, a choice between two expressions, or a function without a name. -/
def expressionRule : Reader Node := do
  if ← atKeyword "lambda" then lambdaRule g
  else
    let start ← line
    let value ← disjunction g
    if ← acceptKeyword "if" then
      let test ← disjunction g
      keyword "else"
      -- choices group to the right
      let other ← g.expression
      node .ifExpr start [test.as .condition, value.as .body, other.as .orElse]
    else return value

end Scorecard.Source.Grammar
