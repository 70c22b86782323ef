import Scorecard.Source.Tree
import Scorecard.Text.Blank
import Scorecard.Text.Quoted

set_option autoImplicit false

/-! # Printing expressions

The text of an expression in one canonical layout, with no more parentheses than precedence asks
for. Every operator has a level of binding strength. A node is printed at the least level its place
accepts, and gets parentheses if its own operator binds less. The printed parts of a node are put
together by `assemble`, which does not look at the tree below them.

Inside the fields of a formatted literal no backslash may stand, so there (`inField`) text is
written with the quotes that need none. If there are no such quotes the expression has no text, and
neither has one with an integer of too many digits.
-/

namespace Scorecard.Source.Printer

open Scorecard.Text (escapeChar quoted quotedBody quotedBytes)

/-! ## Levels of binding strength -/

def namedLevel : Nat := 1
def tupleLevel : Nat := 2
def yieldLevel : Nat := 3
def testLevel : Nat := 4
def orLevel : Nat := 5
def andLevel : Nat := 6
def notLevel : Nat := 7
def compareLevel : Nat := 8
def operandLevel : Nat := 9
def factorLevel : Nat := 15
def powerLevel : Nat := 16
def awaitLevel : Nat := 17
def atomLevel : Nat := 18

def boolLevel : BoolOp → Nat
  | .and => andLevel
  | .or => orLevel

def unaryLevel : UnaryOp → Nat
  | .not => notLevel
  | _ => factorLevel

def binaryLevel : BinaryOp → Nat
  | .bitOr => operandLevel
  | .bitXor => 10
  | .bitAnd => 11
  | .leftShift | .rightShift => 12
  | .add | .sub => 13
  | .mul | .matMul | .div | .mod | .floorDiv => 14
  | .pow => powerLevel

/-! ## Operators -/

def boolText : BoolOp → String
  | .and => "and"
  | .or => "or"

/-- A sign stands directly before its operand. -/
def unaryText : UnaryOp → String
  | .not => "not "
  | .plus => "+"
  | .minus => "-"
  | .invert => "~"

def binaryText : BinaryOp → String
  | .add => "+"
  | .sub => "-"
  | .mul => "*"
  | .matMul => "@"
  | .div => "/"
  | .mod => "%"
  | .leftShift => "<<"
  | .rightShift => ">>"
  | .bitOr => "|"
  | .bitXor => "^"
  | .bitAnd => "&"
  | .floorDiv => "//"
  | .pow => "**"

def compareText : CompareOp → String
  | .eq => "=="
  | .notEq => "!="
  | .lt => "<"
  | .ltE => "<="
  | .gt => ">"
  | .gtE => ">="
  | .is => "is"
  | .isNot => "is not"
  | .isIn => "in"
  | .notIn => "not in"

/-! ## Text literals -/

/-- The quotes that can stand around a literal, the preferred ones first. -/
def quoteTypes : List String := ["'", "\"", "\"\"\"", "'''"]

/-- The body of a literal and the quotes that can stand around it, out of `quotes`. Backslashes and
characters that are not printable are escaped, newlines and tabs only if `escapeWhite` says so. If
no quote is left, every quote in the text is escaped. -/
def literalBody (quotes : List String) (escapeWhite : Bool) (s : String) : String × List String :=
  let escape (c : Char) : String :=
    if !escapeWhite && (c == '\n' || c == '\t') then c.toString else escapeChar c
  let body := String.join (s.toList.map escape)
  -- only tripled quotes go over several lines
  let quotes' := if Text.contains body "\n" then quotes.filter (fun q => q.length = 3) else quotes
  let usable := quotes'.filter fun q => !Text.contains body q
  let last := body.toList.getLast?
  let clashes (q : String) : Bool := last.isSome && q.toList.head? == last
  -- quotes that differ from the last character come first
  match usable.filter (fun q => !clashes q) ++ usable.filter clashes with
  | [] =>
    let mark := Text.quoteFor s.toList
    (quotedBody s, [((quotes.find? fun q => q.toList.contains mark).getD mark.toString)])
  | best :: more =>
    -- the last character would run into the quotes
    if clashes best then
      (String.ofList (body.toList.dropLast ++ ['\\'] ++ last.toList), best :: more)
    else (body, best :: more)

/-- A text literal without backslashes, if there is one. -/
def plainLiteral (s : String) : String :=
  let (body, quotes) := literalBody quoteTypes false s
  let quote := quotes.headD "'"
  quote ++ body ++ quote

/-- The bodies of the parts of a formatted literal, and the quotes that suit all of them. Only in
the constant parts are newlines escaped. -/
def partBodies (quotes : List String) : List (String × Bool) → List String × List String
  | [] => ([], quotes)
  | (s, isConstant) :: rest =>
    let (body, quotes) := literalBody quotes isConstant s
    let (bodies, quotes) := partBodies quotes rest
    (body :: bodies, quotes)

/-- A text with its braces doubled. -/
def doubleBraces (s : String) : String :=
  String.join (s.toList.map fun c => if c == '\x7b' || c == '\x7d' then String.ofList [c, c]
    else c.toString)

/-! ## Constants -/

/-- A number in the language has no infinity: a literal that overflows stands for it. -/
def numberText (x : Number) : String :=
  match x with
  | .infinite _ => "1e309"
  | x => x.text

/-- An imaginary number; a whole one has no point. -/
def imaginaryText (x : Number) : String :=
  let t := numberText x
  (if Text.endsWith t ".0" then String.ofList (t.toList.dropLast.dropLast) else t) ++ "j"

def constantText (inField : Bool) : Constant → String
  | .none => "None"
  | .bool true => "True"
  | .bool false => "False"
  | .ellipsis => "..."
  | .int n => Nat.repr n
  | .float x => numberText x
  | .imaginary x => imaginaryText x
  | .text s marked => (if marked then "u" else "") ++ if inField then plainLiteral s else quoted s
  | .bytes bs => quotedBytes bs

/-! ## Assembling -/

/-- Why an expression has no text. -/
inductive PrintFault where
  | tooManyDigits
  | backslash
deriving DecidableEq, Repr

def PrintFault.message : PrintFault → String
  | tooManyDigits => digitLimitMessage none
  | backslash => "Unable to avoid backslash in f-string expression part"

/-- A printed child: its role and label, its text, its text as a part of a formatted literal, and
why it has none. -/
structure Printed where
  role : Role
  label : Label
  text : String
  inner : String
  fault : Option PrintFault

/-- The texts of the parts in a role. -/
def inRole (role : Role) (parts : List Printed) : List String :=
  (parts.filter (·.role = role)).map (·.text)

/-- The text of the only part in a role. -/
def the (role : Role) (parts : List Printed) : String := String.join (inRole role parts)

def parenthesised (needed : Bool) (s : String) : String := if needed then "(" ++ s ++ ")" else s

def commas (items : List String) : String := ", ".intercalate items

/-- Items with commas between them; a single item has a comma after it. -/
def tupleItems : List String → String
  | [single] => single ++ ","
  | items => commas items

/-- Each parameter of the list with its default, if it has one. -/
def withDefaults (names : List String) (defaults : List (Option String)) : List String :=
  List.zipWith (fun name d => match d with
    | some d => name ++ "=" ++ d
    | none => name) names defaults

/-- The defaults of keyword-only parameters, at the places where there is one. -/
def spread : List Bool → List String → List (Option String)
  | [], _ => []
  | true :: bs, d :: ds => some d :: spread bs ds
  | _ :: bs, ds => none :: spread bs ds

/-- A list of parameters. -/
def parameterText (defaulted : List Bool) (parts : List Printed) : String :=
  let only := inRole .positionalOnly parts
  let names := only ++ inRole .positional parts
  let given := inRole .default parts
  -- the defaults belong to the last of the parameters
  let defaults := List.replicate (names.length - given.length) none ++ given.map some
  let positional := withDefaults names defaults
  let slash := if only.isEmpty then [] else ["/"]
  let variadic := inRole .variadic parts
  let keywordOnly := inRole .keywordOnly parts
  let star := match variadic, keywordOnly with
    | v :: _, _ => ["*" ++ v]
    | [], _ :: _ => ["*"]
    | [], [] => []
  commas (positional.take only.length ++ slash ++ positional.drop only.length ++ star ++
    withDefaults keywordOnly (spread defaulted (inRole .keywordDefault parts)) ++
    (inRole .keywordVariadic parts).map ("**" ++ ·))

/-- The entries of a dictionary. -/
def entries : List Bool → List String → List String → List String
  | true :: more, keys, v :: values => ("**" ++ v) :: entries more keys values
  | false :: more, k :: keys, v :: values => (k ++ ": " ++ v) :: entries more keys values
  | _, _, _ => []

/-- Operands with comparisons between them. -/
def comparisons : List CompareOp → List String → String
  | op :: ops, e :: es => " " ++ compareText op ++ " " ++ e ++ comparisons ops es
  | _, _ => ""

/-- A comprehension: what is collected, and its clauses. -/
def comprehension (opening : String) (element : String) (parts : List Printed) (closing : String) :
    String :=
  opening ++ element ++ String.join (inRole .generator parts) ++ closing

/-- A formatted literal. -/
def formattedText (inField : Bool) (parts : List Printed) : String :=
  if inField then "f" ++ plainLiteral (String.join (parts.map (·.inner)))
  else
    let isConstant (p : Printed) : Bool := match p.label with
      | .constant _ => true
      | _ => false
    let (bodies, quotes) := partBodies quoteTypes (parts.map fun p => (p.inner, isConstant p))
    let quote := quotes.headD "'"
    "f" ++ quote ++ String.join bodies ++ quote

/-- The text of a node at a level, from the texts of its parts. -/
def assemble (level : Nat) (inField : Bool) (label : Label) (parts : List Printed) : String :=
  let at' (own : Nat) (s : String) : String := parenthesised (own < level) s
  match label with
  | .constant c => constantText inField c
  | .name id => id
  | .attribute name =>
    -- a point right after the digits would belong to the number
    let space := match parts with
      | { label := .constant (.int _), .. } :: _ | { label := .constant (.bool _), .. } :: _ => " "
      | _ => ""
    the .value parts ++ space ++ "." ++ name
  | .subscript => the .value parts ++ "[" ++ the .index parts ++ "]"
  | .slice =>
    let step := inRole .step parts
    the .lower parts ++ ":" ++ the .upper parts ++ if step.isEmpty then ""
      else ":" ++ String.join step
  | .call =>
    the .function parts ++ "(" ++ commas (inRole .argument parts ++ inRole .keyword parts) ++ ")"
  | .keywordArg none => "**" ++ the .value parts
  | .keywordArg (some name) => name ++ "=" ++ the .value parts
  | .starred => "*" ++ the .value parts
  | .list => "[" ++ commas (inRole .element parts) ++ "]"
  | .set => "\x7b" ++ commas (inRole .element parts) ++ "\x7d"
  | .tuple =>
      parenthesised (parts.isEmpty || tupleLevel < level) (tupleItems (inRole .element parts))
  | .dict unpacked =>
      "\x7b" ++ commas (entries unpacked (inRole .key parts) (inRole .value parts)) ++ "\x7d"
  | .listComp => comprehension "[" (the .element parts) parts "]"
  | .setComp => comprehension "\x7b" (the .element parts) parts "\x7d"
  | .generatorExpr => comprehension "(" (the .element parts) parts ")"
  | .dictComp => comprehension "\x7b" (the .key parts ++ ": " ++ the .value parts) parts "\x7d"
  | .comprehension isAsync =>
    (if isAsync then " async for " else " for ") ++ the .target parts ++ " in " ++
      the .iterable parts ++ String.join ((inRole .condition parts).map (" if " ++ ·))
  | .boolOp op => at' (boolLevel op) ((" " ++ boolText op ++ " ").intercalate (inRole .value parts))
  | .unaryOp op => at' (unaryLevel op) (unaryText op ++ the .operand parts)
  | .binOp op =>
      at' (binaryLevel op) (the .left parts ++ " " ++ binaryText op ++ " " ++ the .right parts)
  | .compare ops => at' compareLevel (the .left parts ++ comparisons ops (inRole .comparator parts))
  | .ifExpr =>
    at' testLevel (the .body parts ++ " if " ++ the .condition parts ++ " else " ++
      the .orElse parts)
  | .lambdaExpr =>
    let parameters := the .arguments parts
    at' testLevel ("lambda" ++ (if parameters.isEmpty then "" else " " ++ parameters) ++ ": " ++
      the .body parts)
  | .parameters defaulted => parameterText defaulted parts
  | .parameter name =>
    let note := inRole .typeNote parts
    name ++ if note.isEmpty then "" else ": " ++ String.join note
  | .namedExpr => at' namedLevel (the .target parts ++ " := " ++ the .value parts)
  | .awaitExpr => at' awaitLevel ("await " ++ the .value parts)
  | .yieldExpr =>
    let value := inRole .value parts
    at' yieldLevel ("yield" ++ if value.isEmpty then "" else " " ++ String.join value)
  | .yieldFrom => at' yieldLevel ("yield from " ++ the .value parts)
  | .joinedText => formattedText inField parts
  | _ => ""

/-- The text of a node as a part of a formatted literal: a constant with its braces doubled, or a
field. -/
def innerText (label : Label) (parts : List Printed) : String :=
  match label with
  | .constant (.text s _) => doubleBraces s
  | .joinedText => String.join (parts.map (·.inner))
  | .formattedValue conversion =>
    let value := the .value parts
    -- two opening braces would stand for one
    let space := if Text.startsWith value "\x7b" then " " else ""
    let shown := match conversion with
      | some c => "!" ++ c.toString
      | none => ""
    let format := (parts.filter (·.role = .formatSpec)).map (":" ++ ·.inner)
    "\x7b" ++ space ++ value ++ shown ++ String.join format ++ "\x7d"
  | _ => ""

/-- Why a node has no text though its parts have one. -/
def ownFault (label : Label) (parts : List Printed) : Option PrintFault :=
  match label with
  | .constant (.int n) => if isPrintable n then none else some .tooManyDigits
  | .formattedValue _ => if Text.contains (the .value parts) "\\" then some .backslash else none
  | _ => none

/-! ## The level of each place -/

/-- The level at which the child `index` of a node is printed. -/
def placeLevel (label : Label) (index : Nat) (child : Node) : Nat :=
  match label with
  | .namedExpr | .awaitExpr | .yieldExpr | .yieldFrom | .attribute _ => atomLevel
  | .subscript =>
    match child.role, child.label with
    | .value, _ => atomLevel
    | _, .tuple => if child.children.isEmpty then testLevel else tupleLevel
    | _, _ => testLevel
  | .call => if child.role = .function then atomLevel else testLevel
  | .comprehension _ => if child.role = .target then tupleLevel else orLevel
  | .ifExpr => if child.role = .orElse then testLevel else orLevel
  | .dict unpacked =>
    -- all keys stand before the values
    let keys := (unpacked.filter (!·)).length
    if child.role = .value && (unpacked[index - keys]?).getD false then operandLevel else testLevel
  | .unaryOp op => unaryLevel op
  | .binOp op =>
    let own := binaryLevel op
    match child.role, op with
    -- the power is the only one that groups to the right
    | .left, .pow => own + 1
    | .right, .pow => own
    | .left, _ => own
    | _, _ => own + 1
  | .compare _ => operandLevel
  -- the level rises with every operand, not only after the first
  | .boolOp op => min (boolLevel op + index + 1) atomLevel
  | .starred => operandLevel
  | .formattedValue _ => orLevel
  | _ => testLevel

mutual

/-- A node printed at a level. -/
def printed (level : Nat) (inField : Bool) : Node → Printed
  | .mk role label _ _ children =>
    let parts := printedAll label inField 0 children
    { role, label, text := assemble level inField label parts, inner := innerText label parts
      fault := (parts.findSome? (·.fault)).or (ownFault label parts) }

/-- The children of a node with a label, from the child `index` on. -/
def printedAll (label : Label) (inField : Bool) (index : Nat) : List Node → List Printed
  | [] => []
  | child :: rest =>
    let below := match label, child.role with
      | .formattedValue _, .value => true
      | _, _ => inField
    printed (placeLevel label index child) below child :: printedAll label inField (index + 1) rest

end

end Printer

/-- The canonical text of an expression. -/
def Node.expressionText (n : Node) : String := (Printer.printed Printer.testLevel false n).text

/-- Why an expression has no text, if it has none. -/
def Node.printFault? (n : Node) : Option Printer.PrintFault :=
  (Printer.printed Printer.testLevel false n).fault

end Scorecard.Source
