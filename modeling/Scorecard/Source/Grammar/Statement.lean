import Scorecard.Source.Grammar.Pattern

set_option autoImplicit false

/-! # Statements

The statement part of the grammar. A line holds simple statements separated by semicolons, or one
compound statement with its blocks. A block is an indented sequence of lines, or the simple
statements on the rest of the line.
-/

namespace Scorecard.Source.Grammar

open Reader

variable [Text.CharacterNames] (g : Grammar)

/-! ## Simple statements -/

/-- The operators of augmented assignments. -/
def augmented : List (String × BinaryOp) :=
  [("+=", .add), ("-=", .sub), ("*=", .mul), ("@=", .matMul), ("/=", .div), ("%=", .mod),
    ("&=", .bitAnd),
   ("|=", .bitOr), ("^=", .bitXor), ("<<=", .leftShift), (">>=", .rightShift), ("**=", .pow),
     ("//=", .floorDiv)]

/-- The rest of an assignment after the targets read so far: each further equals sign makes the last
value a target. -/
def assignChain (targets : List Node) : Reader (List Node) :=
  iterate (fun found => do
    match found.getLast? with
    | some last =>
      symbol "="
      if last.isStarTarget then return found ++ [← assigned g] else failure
    | none => failure) targets

/-- An annotated assignment after its target. -/
def annotated (start : Nat) (target : Node) : Reader Node := do
  if target.isSingleTarget then
    symbol ":"
    let note ← g.expression
    let value ← following (.op "=") (assigned g)
    node .annAssign start
      (target.as .target :: note.as .typeNote :: value.toList.map (·.as .value))
  else failure

/-- An assignment of any kind, or an expression that stands alone. -/
def expressionStatement : Reader Node := do
  let start ← line
  let first ← starExpressions g
  match ← peek with
  | .op ":" => annotated g start first
  | .op "=" =>
    let chain ← assignChain g [first]
    -- the chain stopped at a value that is no target
    if ← atSymbol "=" then failure
    else
      match chain.getLast? with
      | some value => node .assign start (chain.dropLast.map (·.as .target) ++ [value.as .value])
      | none => failure
  | .op s =>
    match augmented.lookup s with
    | some op =>
      if first.isSingleTarget then
        discard next
        let value ← assigned g
        node (.augAssign op) start [first.as .target, value.as .value]
      else failure
    | none => node .exprStmt start [first.as .value]
  | _ => node .exprStmt start [first.as .value]

/-- A dotted module name. -/
def dottedName : Reader String := do
  return ".".intercalate (← separated "." identifier)

def asName : Reader (Option String) := following (.keyword "as") identifier

def importAlias (name : Reader String) : Reader Node := do
  let start ← line
  let id ← name
  let other ← asName
  node (.alias id other) start []

/-- `import a.b as c, d`. -/
def importRule : Reader Node := do
  let start ← line
  keyword "import"
  let names ← separated "," (importAlias dottedName)
  node .importStmt start (names.map (·.as .imported))

/-- The names after `import` in a `from` statement. -/
def importTargets : Reader (List Node) := do
  if ← atSymbol "*" then
    let start ← line
    symbol "*"
    return [← node (.alias "*" none) start []]
  else if ← acceptSymbol "(" then
    let names ← separated "," (importAlias identifier)
    discard (acceptSymbol ",")
    symbol ")"
    return names
  else
    let names ← separated "," (importAlias identifier)
    -- without parentheses there is no comma at the end
    if ← atSymbol "," then failure else return names

/-- The module after some levels up; without one it must be named. -/
def sourceName (level : Nat) : Reader (Option String) := do
  if level = 0 then some <$> dottedName else Reader.optional dottedName

/-- `from ..a import b`. The dots count the levels up. -/
def importFromRule : Reader Node := do
  let start ← line
  keyword "from"
  let dots ← many (do
    if ← acceptSymbol "." then return 1
    else
      -- three dots are one token
      symbol "..."
      return 3)
  let level := dots.foldl (· + ·) 0
  let source ← sourceName level
  keyword "import"
  let names ← importTargets
  node (.importFrom source level) start (names.map (·.as .imported))

def raiseRule : Reader Node := do
  let start ← line
  keyword "raise"
  match ← Reader.optional g.expression with
  | none => node .raiseStmt start []
  | some exception =>
    let cause ← following (.keyword "from") g.expression
    node .raiseStmt start (exception.as .exception :: cause.toList.map (·.as .cause))

def deleteTarget : Reader Node := do
  let n ← primaryRule g
  if n.isDeletable then return n else failure

def deleteRule : Reader Node := do
  let start ← line
  keyword "del"
  let targets ← separated "," (deleteTarget g)
  discard (acceptSymbol ",")
  match ← peek with
  | .op ";" | .newline => node .deleteStmt start (targets.map (·.as .target))
  | _ => failure

def assertRule : Reader Node := do
  let start ← line
  keyword "assert"
  let test ← g.expression
  let message ← following (.op ",") g.expression
  node .assertStmt start (test.as .condition :: message.toList.map (·.as .message))

def returnRule : Reader Node := do
  let start ← line
  keyword "return"
  let value ← Reader.optional (starExpressions g)
  node .returnStmt start (value.toList.map (·.as .value))

/-- A statement that is one keyword. -/
def bareRule (word : String) (label : Label) : Reader Node := do
  let start ← line
  keyword word
  node label start []

/-- `global` or `nonlocal` with its names. -/
def namesRule (word : String) (label : List String → Label) : Reader Node := do
  let start ← line
  keyword word
  let names ← separated "," identifier
  node (label names) start []

def yieldRule : Reader Node := do
  let start ← line
  let value ← yieldExpression g
  node .exprStmt start [value.as .value]

def simpleStatement : Reader Node := do
  match ← peek with
  | .keyword "return" => returnRule g
  | .keyword "import" => importRule
  | .keyword "from" => importFromRule
  | .keyword "raise" => raiseRule g
  | .keyword "pass" => bareRule "pass" .passStmt
  | .keyword "del" => deleteRule g
  | .keyword "yield" => yieldRule g
  | .keyword "assert" => assertRule g
  | .keyword "break" => bareRule "break" .breakStmt
  | .keyword "continue" => bareRule "continue" .continueStmt
  | .keyword "global" => namesRule "global" .globalStmt
  | .keyword "nonlocal" => namesRule "nonlocal" .nonlocalStmt
  | _ => expressionStatement g

/-- The simple statements of a line. -/
def simpleStatements : Reader (List Node) := do
  let found ← separated ";" (simpleStatement g)
  discard (acceptSymbol ";")
  expect .newline
  return found

/-! ## Compound statements -/

/-- An indented block, or the rest of the line. -/
def block : Reader (List Node) := do
  if (← peek) = .newline then
    expect .newline
    expect .indent
    let found ← many1 g.statement
    expect .dedent
    return found.flatten
  else simpleStatements g

/-- A colon and a block whose statements get a role. -/
def suite (role : Role) : Reader (List Node) := do
  symbol ":"
  return (← block g).map (·.as role)

def elseSuite : Reader (List Node) := do
  if ← acceptKeyword "else" then suite g .orElse else return []

/-- What stands after the body of an `if`, where `branch` reads an `elif` with all after it. -/
def ifRest (branch : Reader Node) : Reader (List Node) := do
  if ← atKeyword "elif" then
    let n ← branch
    return [n.as .orElse]
  else elseSuite g

/-- An `if` or `elif` with the branches after it, of which at most `fuel` are `elif`. -/
def ifBranches (word : String) : Nat → Reader Node
  | 0 => failure
  | fuel + 1 => do
    let start ← line
    keyword word
    let test ← namedExpression g
    let body ← suite g .body
    let other ← ifRest g (ifBranches "elif" fuel)
    node .ifStmt start (test.as .condition :: body ++ other)

def ifRule : Reader Node := do
  -- each branch takes a token
  ifBranches g "if" ((← get).tokens.length + 1)

def whileRule : Reader Node := do
  let start ← line
  keyword "while"
  let test ← namedExpression g
  let body ← suite g .body
  let other ← elseSuite g
  node .whileLoop start (test.as .condition :: body ++ other)

def forRule (start : Nat) (isAsync : Bool) : Reader Node := do
  keyword "for"
  let target ← starTargets g
  keyword "in"
  let iterable ← starExpressions g
  let body ← suite g .body
  let other ← elseSuite g
  node (.forLoop isAsync) start (target.as .target :: iterable.as .iterable :: body ++ other)

/-- A context manager, with what it is bound to. -/
def withItem : Reader Node := do
  let start ← line
  let context ← g.expression
  let binding ← Reader.optional (do
    keyword "as"
    let target ← starTarget g
    match ← peek with
    | .op "," | .op ")" | .op ":" => return target
    | _ => failure)
  node .withItem start (context.as .context :: binding.toList.map (·.as .binding))

/-- The context managers of a `with` statement up to its colon, in parentheses or not. -/
def withItems : Reader (List Node) :=
  (do
    symbol "("
    let items ← separated "," (withItem g)
    discard (acceptSymbol ",")
    symbol ")"
    -- otherwise the parentheses belong to the first context manager
    if ← atSymbol ":" then return items else failure)
  <|> separated "," (withItem g)

def withRule (start : Nat) (isAsync : Bool) : Reader Node := do
  keyword "with"
  let items ← withItems g
  let body ← suite g .body
  node (.withStmt isAsync) start (items.map (·.as .item) ++ body)

/-- What a handler catches, the name it gives to it, and its body. -/
def namedHandler (start : Nat) : Reader Node := do
  let kind ← g.expression
  let name ← asName
  let body ← suite g .body
  node (.exceptHandler name) start (kind.as .exception :: body)

/-- A handler; with `starred` it handles groups and must name what it catches. -/
def handlerRule (starred : Bool) : Reader Node := do
  let start ← line
  keyword "except"
  if starred then
    symbol "*"
    namedHandler g start
  else if ← atSymbol ":" then
    let body ← suite g .body
    node (.exceptHandler none) start body
  else namedHandler g start

def finallySuite : Reader (List Node) := do
  if ← acceptKeyword "finally" then suite g .finalBody else return []

def tryRule : Reader Node := do
  let start ← line
  keyword "try"
  let body ← suite g .body
  if ← atKeyword "finally" then
    let final ← finallySuite g
    node .tryStmt start (body ++ final)
  else
    -- the first handler decides for all of them
    let starred := (← peek 1) = .op "*"
    let handlers ← many1 (handlerRule g starred)
    let other ← elseSuite g
    let final ← finallySuite g
    node .tryStmt start (body ++ handlers.map (·.as .handler) ++ other ++ final)

def functionRule (decorators : List Node) (start : Nat) (isAsync : Bool) : Reader Node := do
  keyword "def"
  let name ← identifier
  symbol "("
  let parameters ← parameterList g true (starExpression g) ")"
  symbol ")"
  let returns ← following (.op "->") g.expression
  let body ← suite g .body
  node (.functionDef name isAsync) start
    -- decorators are written before the rest and visited after the body
    (parameters.as .arguments :: body ++ decorators ++ returns.toList.map (·.as .returns))

/-- The bases and keywords of a class in their parentheses. -/
def classArguments : Reader (List Node) := do
  if ← acceptSymbol "(" then
    let found ← arguments g
    symbol ")"
    return found
  else return []

def classRule (decorators : List Node) : Reader Node := do
  let start ← line
  keyword "class"
  let name ← identifier
  let found ← classArguments g
  let body ← suite g .body
  let bases := (found.filter (·.role = .argument)).map (·.as .base)
  let keywords := found.filter (·.role = .keyword)
  node (.classDef name) start (bases ++ keywords ++ body ++ decorators)

def decorator : Reader Node := do
  symbol "@"
  let n ← namedExpression g
  expect .newline
  return n.as .decorator

/-- The definition after some decorators, by the kind of its first token. -/
def definition (decorators : List Node) (start : Nat) : TokenKind → Reader Node
  | .keyword "def" => functionRule g decorators start false
  | .keyword "async" => do discard next; functionRule g decorators start true
  | .keyword "class" => classRule g decorators
  | _ => failure

/-- A definition with its decorators, each on a line of its own. -/
def decorated : Reader Node := do
  let decorators ← many (decorator g)
  let start ← line
  definition g decorators start (← peek)

/-- A statement that starts with `async`. -/
def asyncRule : Reader Node := do
  let start ← line
  keyword "async"
  match ← peek with
  | .keyword "def" => functionRule g [] start true
  | .keyword "with" => withRule g start true
  | .keyword "for" => forRule g start true
  | _ => failure

def caseRule : Reader Node := do
  let start ← line
  expect (.name "case")
  let pattern ← topPattern g
  let guard ← following (.keyword "if") (namedExpression g)
  let body ← suite g .body
  node .matchCase start (pattern.as .pattern :: guard.toList.map (·.as .guard) ++ body)

/-- What is matched: an expression, or a tuple without parentheses. -/
def subjectRule : Reader Node := do
  let start ← line
  let first ← starNamedExpression g
  if ← acceptSymbol "," then
    let more ← Reader.optional (separated "," (starNamedExpression g))
    lastComma more.isNone
    node .tuple start ((first :: more.getD []).map (·.as .element))
  else if first.label = .starred then failure
  else return first

def matchRule : Reader Node := do
  let start ← line
  expect (.name "match")
  let subject ← subjectRule g
  symbol ":"
  expect .newline
  expect .indent
  let cases ← many1 (caseRule g)
  expect .dedent
  node .matchStmt start (subject.as .subject :: cases.map (·.as .case))

/-- A compound statement, or the simple statements of a line. -/
def statementRule : Reader (List Node) := do
  let single (r : Reader Node) : Reader (List Node) := do return [← r]
  let start ← line
  match ← peek with
  | .keyword "def" | .keyword "class" | .op "@" => single (decorated g)
  | .keyword "async" => single (asyncRule g)
  | .keyword "if" => single (ifRule g)
  | .keyword "with" => single (withRule g start false)
  | .keyword "for" => single (forRule g start false)
  | .keyword "try" => single (tryRule g)
  | .keyword "while" => single (whileRule g)
  -- `match` is a keyword only where a statement can be read that way
  | .name "match" => single (matchRule g) <|> simpleStatements g
  | _ => simpleStatements g

/-! ## The whole grammar -/

/-- The grammar with references to itself at most `fuel` deep. -/
def upTo : Nat → Grammar
  | 0 => empty
  | fuel + 1 =>
    -- each field takes its argument, so that a level is only unfolded where it is used
    { expression := fun s => expressionRule (upTo fuel) s
      condition := fun s => disjunction (upTo fuel) s
      inversion := fun s => inversionRule (upTo fuel) s
      operand := fun s => bitOr (upTo fuel) s
      factor := fun s => factorRule (upTo fuel) s
      primary := fun s => primaryRule (upTo fuel) s
      pattern := fun s => patternRule (upTo fuel) s
      statement := fun s => statementRule (upTo fuel) s }

/-- The lines of a module. -/
def program (fuel : Nat) : Reader Node := do
  let found ← many (statementRule (upTo fuel))
  expect .done
  return .mk .root .program 0 0 (found.flatten.map (·.as .body))

end Scorecard.Source.Grammar

namespace Scorecard.Source

variable [Text.CharacterNames]

/-- The syntax tree of a module, or none if the text is not one. The grammar refers to itself at
most a few times for each character of the text. -/
def parse (text : String) : Option Node := do
  let cs := text.toList
  let tokens ← tokens? 1 cs
  let (tree, _) ← (Grammar.program (4 * cs.length + 100)).run { tokens, lastLine := 0 }
  return tree

end Scorecard.Source
