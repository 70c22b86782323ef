import Scorecard.Source.Token

set_option autoImplicit false

/-! # Syntax trees

A parsed module is a rose tree. A node has a `Label`, which says what it is and holds its data that
are not nodes, and its children in the order in which the language lists the parts of such a node.
Each child carries the `Role` it plays for its parent, so that `n.part .body` are the statements of
a body. Walks over the tree need no knowledge of the labels.

Walks come in two orders: `Node.walk` takes a node before its descendants, `Node.byLevels` takes the
tree level by level.
-/

namespace Scorecard.Source

/-- Operators with two operands. -/
inductive BinaryOp where
  | add | sub | mul | matMul | div | mod | leftShift | rightShift | bitOr | bitXor | bitAnd
  | floorDiv | pow
deriving DecidableEq, Repr

/-- Operators with one operand. -/
inductive UnaryOp where
  | not | plus | minus | invert
deriving DecidableEq, Repr

/-- The two operators that join conditions. -/
inductive BoolOp where
  | and | or
deriving DecidableEq, Repr

/-- Comparison operators. -/
inductive CompareOp where
  | eq | notEq | lt | ltE | gt | gtE | is | isNot | isIn | notIn
deriving DecidableEq, Repr

/-- The part that a node plays for its parent. -/
inductive Role where
  | root
  | body | orElse | finalBody | handler | decorator
  | arguments | positionalOnly | positional | variadic | keywordOnly | keywordDefault
  | keywordVariadic | default
  | returns | typeNote
  | base | keyword
  | target | value | iterable | condition | item | context | binding
  | subject | case | pattern | guard | key | keywordPattern
  | exception | cause | message
  | imported
  | element | generator
  | function | argument
  | left | right | operand | comparator
  | lower | upper | step | index
  | formatSpec
deriving DecidableEq, Repr

/-- What a node is. -/
inductive Label where
  -- statements
  | program
  | functionDef (name : String) (isAsync : Bool)
  | classDef (name : String)
  | returnStmt
  | deleteStmt
  | assign
  | augAssign (op : BinaryOp)
  | annAssign
  | forLoop (isAsync : Bool)
  | whileLoop
  | ifStmt
  | withStmt (isAsync : Bool)
  | matchStmt
  | raiseStmt
  | tryStmt
  | assertStmt
  | importStmt
  | importFrom (source : Option String) (level : Nat)
  | globalStmt (names : List String)
  | nonlocalStmt (names : List String)
  | exprStmt
  | passStmt
  | breakStmt
  | continueStmt
  -- parts of statements
  | parameters (defaulted : List Bool)
  | parameter (name : String)
  | exceptHandler (name : Option String)
  | withItem
  | alias (name : String) (asName : Option String)
  | matchCase
  | keywordArg (name : Option String)
  -- expressions
  | boolOp (op : BoolOp)
  | namedExpr
  | binOp (op : BinaryOp)
  | unaryOp (op : UnaryOp)
  | lambdaExpr
  | ifExpr
  | dict (unpacked : List Bool)
  | set
  | listComp
  | setComp
  | dictComp
  | generatorExpr
  | comprehension (isAsync : Bool)
  | awaitExpr
  | yieldExpr
  | yieldFrom
  | compare (ops : List CompareOp)
  | call
  | formattedValue (conversion : Option Char)
  | joinedText
  | constant (c : Constant)
  | attribute (name : String)
  | subscript
  | starred
  | name (id : String)
  | list
  | tuple
  | slice
  -- patterns
  | matchValue
  | matchSingleton (c : Constant)
  | matchSequence
  | matchMapping (rest : Option String)
  | matchClass (names : List String)
  | matchStar (name : Option String)
  | matchAs (name : Option String)
  | matchOr
deriving DecidableEq, Repr

/-- A node of a syntax tree, with its first and last line. -/
inductive Node where
  | mk (role : Role) (label : Label) (line lastLine : Nat) (children : List Node)

namespace Node

instance : Inhabited Node := ⟨.mk .root .passStmt 0 0 []⟩

def role : Node → Role
  | mk r _ _ _ _ => r

def label : Node → Label
  | mk _ l _ _ _ => l

/-- The line of the first token. -/
def line : Node → Nat
  | mk _ _ a _ _ => a

/-- The line of the last token. -/
def lastLine : Node → Nat
  | mk _ _ _ b _ => b

def children : Node → List Node
  | mk _ _ _ _ cs => cs

/-- The node in another role. -/
def as (role : Role) : Node → Node
  | mk _ l a b cs => mk role l a b cs

/-- The children in a role. -/
def part (n : Node) (role : Role) : List Node := n.children.filter (·.role = role)

/-- The first child in a role. -/
def part? (n : Node) (role : Role) : Option Node := n.children.find? (·.role = role)

mutual

/-- A node and its descendants, parents first. -/
def walk : Node → List Node
  | n@(mk _ _ _ _ cs) => n :: walkAll cs

/-- The nodes of a forest, tree after tree. -/
def walkAll : List Node → List Node
  | [] => []
  | c :: cs => walk c ++ walkAll cs

end

/-- Two lists of levels side by side. -/
def joinLevels : List (List Node) → List (List Node) → List (List Node)
  | [], bs => bs
  | as, [] => as
  | a :: as, b :: bs => (a ++ b) :: joinLevels as bs

mutual

/-- The levels of a tree: the root, its children, their children, and so on. -/
def levels : Node → List (List Node)
  | n@(mk _ _ _ _ cs) => [n] :: levelsAll cs

/-- The levels of a forest. -/
def levelsAll : List Node → List (List Node)
  | [] => []
  | c :: cs => joinLevels (levels c) (levelsAll cs)

end

/-- A node and its descendants, level by level. -/
def byLevels (n : Node) : List Node := n.levels.flatten

end Node

end Scorecard.Source
