import Scorecard.Source.Tree
import Scorecard.Text.Blank

set_option autoImplicit false

/-! # Measures of syntax trees

What rules count in a tree: decisions, nested loops, assertions, documentation, and the shapes of
calls and handlers that they look for.
-/

namespace Scorecard.Source

namespace Label

/-- A loop statement. -/
def isLoop : Label → Bool
  | forLoop _ | whileLoop => true
  | _ => false

def isFunction : Label → Bool
  | functionDef _ _ => true
  | _ => false

/-- A definition that starts a body of its own. -/
def isScope : Label → Bool
  | functionDef _ _ | classDef _ | lambdaExpr => true
  | _ => false

end Label

namespace Node

/-! ## Complexity -/

/-- The decisions that a node itself adds. A chain of conditions adds one for each join. -/
def decisions (n : Node) : Nat :=
  match n.label with
  | .ifStmt | .forLoop _ | .whileLoop | .exceptHandler _ | .ifExpr => 1
  | .boolOp _ => max 1 ((n.part .value).length - 1)
  | _ => 0

/-- One more than the decisions in a tree. -/
def complexity (n : Node) : Nat := n.walk.foldl (fun total d => total + d.decisions) 1

/-! ## Nested loops -/

mutual

/-- The largest number of loops inside one another in a tree. The loops of a nested function, class
or lambda do not count. -/
def nestedLoops : Node → Nat
  | mk _ label _ _ children =>
    if label.isScope then 0
    else if label.isLoop then nestedLoopsAmong children + 1
    else nestedLoopsAmong children

/-- The largest number of loops inside one another in one of some trees. -/
def nestedLoopsAmong : List Node → Nat
  | [] => 0
  | n :: rest => max (nestedLoops n) (nestedLoopsAmong rest)

end

/-- The nested loops in the body of a function. -/
def loopDepth (n : Node) : Nat := nestedLoopsAmong (n.part .body)

/-! ## Names and constants -/

/-- The name by which something is called: the last name of an attribute, or the name itself. -/
def calledName (n : Node) : String :=
  match n.label with
  | .attribute name => name
  | .name id => id
  | _ => ""

/-- Whether the node is a call of something with this name. -/
def isCallOf (n : Node) (name : String) : Bool :=
  match n.label with
  | .call => (n.part? .function).any (·.calledName = name)
  | _ => false

/-- The text of a constant that is one. -/
def constantText? (n : Node) : Option String :=
  match n.label with
  | .constant (.text s _) => some s
  | _ => none

def isConstant (n : Node) : Bool :=
  match n.label with
  | .constant _ => true
  | _ => false

/-- Whether a statement is an expression that stands alone, for whose value `p` holds. -/
def isExpressionWith (p : Node → Bool) (n : Node) : Bool :=
  match n.label with
  | .exprStmt => (n.part? .value).any p
  | _ => false

/-- Whether the body of a definition starts with a text. -/
def hasDocstring (n : Node) : Bool :=
  match n.part .body with
  | first :: _ => first.isExpressionWith (·.constantText?.isSome)
  | [] => false

/-! ## Assertions -/

/-- Whether a node is an assertion, or a call whose name says that it is one. -/
def isAssertion (n : Node) : Bool :=
  match n.label with
  | .assertStmt => true
  | .call =>
    (n.part? .function).any fun f => Text.startsWith f.calledName "assert" || f.calledName =
      "raises"
  | _ => false

def assertions (n : Node) : Nat := (n.walk.filter isAssertion).length

/-! ## Handlers and loops -/

/-- Whether a handler does nothing: its body has only `pass` and constants. -/
def swallows (n : Node) : Bool :=
  (n.part .body).all fun s => s.label = .passStmt || s.isExpressionWith (·.isConstant)

def broadExceptions : List String := ["Exception", "BaseException"]

/-- Whether a handler catches all exceptions by name. -/
def catchesBroad (n : Node) : Bool :=
  match n.part? .exception with
  | none => false
  | some kind =>
    let candidates := if kind.label = .tuple then kind.part .element else [kind]
    candidates.any fun c => broadExceptions.contains c.calledName

/-- Whether an expression is `range(len(…))`. -/
def isRangeLen (n : Node) : Bool :=
  n.isCallOf "range" &&
    match n.part .argument with
    | [inner] => inner.isCallOf "len"
    | _ => false

/-- Whether a node adds a text to a variable. -/
def appendsText (n : Node) : Bool :=
  match n.label with
  | .augAssign .add => (n.part? .value).any fun v => v.label = .joinedText || v.constantText?.isSome
  | _ => false

/-- Whether the body of a loop builds a text piece by piece. -/
def concatenatesText (n : Node) : Bool := (n.part .body).any fun s => s.walk.any appendsText

/-! ## Logging -/

def loggerNames : List String := ["logger", "log", "logging", "_logger", "_log", "LOGGER", "LOG"]

def logMethods : List String :=
  ["debug", "info", "warning", "warn", "error", "exception", "critical", "log"]

/-- Whether an expression looks like a logger: by its name, or because it asks for one. -/
def isLogger (n : Node) : Bool :=
  match n.label with
  | .name id => loggerNames.contains id
  | .attribute name => loggerNames.contains name
  | _ => n.isCallOf "getLogger"

/-- Whether an expression formats a message before it is known to be wanted. -/
def formatsEagerly (n : Node) : Bool :=
  match n.label with
  | .joinedText => true
  | .binOp .mod | .binOp .add => true
  | _ => n.isCallOf "format"

end Node

end Scorecard.Source
