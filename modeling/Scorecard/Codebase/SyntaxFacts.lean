import Scorecard.Fact.Basic
import Scorecard.Fact.Kind
import Scorecard.Source.Metric
import Scorecard.Source.Printer

set_option autoImplicit false

/-! # Facts of a syntax tree

Every node of a module's tree has its own facts, which depend on the node, the definitions around it
and the file. A visitor goes through the tree, parents first. It keeps the definitions around the
node that it visits, and emits the facts of the node.
-/

namespace Scorecard

open Source (Node Label)

/-- A class or function around a node. -/
structure Scope where
  isClass : Bool
  name : String
deriving DecidableEq, Repr

/-- Where nodes are observed: the file, whether it is a test file, and the definitions around, the
outermost first. -/
structure Setting where
  path : String
  isTest : Bool
  scopes : List Scope
deriving DecidableEq, Repr

namespace Setting

/-- The name of a definition with the names of those around it. -/
def qualify (s : Setting) (name : String) : String :=
  ".".intercalate (s.scopes.map (·.name) ++ [name])

/-- The name of the innermost definition, or of the module. -/
def scopeName (s : Setting) : String :=
  if s.scopes.isEmpty then s.path ++ " (module)" else ".".intercalate (s.scopes.map (·.name))

/-- Whether a function here is a method. -/
def inClass (s : Setting) : Bool := s.scopes.getLast?.any (·.isClass)

/-- The setting inside a definition. -/
def enter (s : Setting) (scope : Scope) : Setting := { s with scopes := s.scopes ++ [scope] }

/-- The setting outside of the innermost definition. -/
def leave (s : Setting) : Setting := { s with scopes := s.scopes.dropLast }

/-- A fact about a node. -/
def fact (s : Setting) (kind : String) (n : Node) (value : FactValue) (subject : String) : Fact :=
  { kind, location := .ofLines s.path n.line (max n.line n.lastLine), value, subject }

end Setting

namespace Source.Node

/-! ## Definitions -/

/-- The name of a parameter. -/
def parameterName (n : Node) : String :=
  match n.label with
  | .parameter name => name
  | _ => ""

/-- The parameters of a function that a caller can name: the first one of a method does not count if
it is the object or the class. -/
def countedParameters (isMethod : Bool) (n : Node) : List Node :=
  match n.part? .arguments with
  | none => []
  | some ps =>
    let positional := ps.part .positionalOnly ++ ps.part .positional
    let positional := match positional with
      | first :: rest =>
          if isMethod && ["self", "cls"].contains first.parameterName then rest else positional
      | [] => []
    positional ++ ps.part .keywordOnly

/-- The parameters that collect further arguments. -/
def variadicParameters (n : Node) : List Node :=
  match n.part? .arguments with
  | none => []
  | some ps => ps.part .variadic ++ ps.part .keywordVariadic

def functionFacts (s : Setting) (name : String) (n : Node) : List Fact :=
  let subject := s.qualify name
  let counted := n.countedParameters s.inClass
  [s.fact Kind.functionName n (.text name) subject,
   s.fact Kind.functionLength n (.int ((n.lastLine : Int) - n.line + 1)) subject,
   s.fact Kind.functionArgs n (.int counted.length) subject,
   s.fact Kind.docstringPresent n (.bool n.hasDocstring) subject,
   s.fact Kind.functionComplexity n (.int n.complexity) subject,
   s.fact Kind.loopDepth n (.int n.loopDepth) subject]
  -- parameters that collect arguments have names, but are not counted
  ++ (counted ++ n.variadicParameters).map
    (fun p => s.fact Kind.argumentName p (.text p.parameterName) subject)
  ++ if s.isTest && Text.startsWith name "test" then
      [s.fact Kind.testName n (.text name) subject,
        s.fact Kind.testAssertions n (.int n.assertions) subject]
    else []

def classFacts (s : Setting) (name : String) (n : Node) : List Fact :=
  let subject := s.qualify name
  let methods := (n.part .body).filter (·.label.isFunction)
  [s.fact Kind.className n (.text name) subject,
   s.fact Kind.classDocstringPresent n (.bool n.hasDocstring) subject,
   s.fact Kind.classMethodCount n (.int methods.length) subject,
   s.fact Kind.classBases n (.int (n.part .base).length) subject]

/-! ## Handlers, loops and assignments -/

def handlerFacts (s : Setting) (n : Node) : List Fact :=
  [s.fact Kind.bareExcept n (.bool (n.part? .exception).isNone) s.scopeName,
   s.fact Kind.broadExcept n (.bool n.catchesBroad) s.scopeName,
   s.fact Kind.swallowedException n (.bool n.swallows) s.scopeName]

def concatFact (s : Setting) (n : Node) : Fact :=
  s.fact Kind.loopStringConcat n (.bool n.concatenatesText) s.scopeName

def rangeLenFact (s : Setting) (n : Node) : Fact :=
  s.fact Kind.rangeLenLoop n (.bool ((n.part? .iterable).any (·.isRangeLen))) s.scopeName

/-- Words that make the name of a variable look like that of a secret. -/
def secretWords : List String :=
  ["password", "passwd", "secret", "token", "apikey", "api_key", "privatekey", "private_key"]

/-- A character without its case. Besides the ASCII letters, the dotted and the dotless `i`, the
long `s` and the sign of the Kelvin are letters of these words in another case. -/
def foldCase (c : Char) : Char :=
  match c.toNat with
  | 0x130 | 0x131 => 'i'
  | 0x17F => 's'
  | 0x212A => 'k'
  | _ => c.toLower

/-- Whether a name looks like that of a secret. -/
def isSecretName (name : String) : Bool :=
  let folded := name.toList.map foldCase
  secretWords.any fun w => Text.occursIn w.toList folded

/-- A variable that is given a text, with a name like that of a secret. Test files may have them. -/
def secretFacts (s : Setting) (n target : Node) : List Fact :=
  match target.label, n.part? .value with
  | .name id, some value =>
    if !s.isTest && isSecretName id && value.constantText?.any (· ≠ "") then
      [s.fact Kind.hardcodedSecret n (.bool true) id]
    else []
  | _, _ => []

/-! ## Calls -/

/-- The name that a logger is asked for, if it can be written. -/
def loggerName (n : Node) : Except Source.Printer.PrintFault String :=
  match n.part .argument with
  | [] => .ok "<root>"
  | first :: _ =>
    match first.label with
    | .name id => .ok id
    | .constant (.text s _) => .ok s
    | _ =>
      match first.printFault? with
      | some fault => .error fault
      | none => .ok first.expressionText

/-- A message that is logged; the method `log` has a level before it. -/
def logFacts (s : Setting) (n : Node) (method : String) : List Fact :=
  let message := (n.part .argument)[if method = "log" then 1 else 0]?
  s.fact Kind.logCall n (.text method) s.scopeName ::
    message.toList.map fun m => s.fact Kind.eagerLogFormat n (.bool m.formatsEagerly) s.scopeName

/-- The facts of a call, by the first of three tests that it passes: it prints, it asks for a
logger, or it logs. Test files may print, so that their calls go on to the other tests. -/
def callFacts (s : Setting) (n : Node) : Except Source.Printer.PrintFault (List Fact) :=
  match n.part? .function with
  | none => .ok []
  | some f =>
    if f.label = .name "print" && !s.isTest then
      .ok [s.fact Kind.printCall n (.bool true) s.scopeName]
    else
      match f.label with
      | .attribute name =>
        if name = "getLogger" then do
          let asked ← n.loggerName
          return [s.fact Kind.loggerDefinition n (.text asked) s.scopeName]
        else if logMethods.contains name && (f.part? .value).any (·.isLogger) then
          .ok (logFacts s n name)
        else .ok []
      | _ => .ok []

/-! ## Other nodes -/

def globalFacts (s : Setting) (names : List String) (n : Node) : List Fact :=
  names.map fun name => s.fact Kind.globalStatement n (.bool true) name

/-- The facts of a node that is no definition, no call and no list of global names. -/
def plainFacts (s : Setting) (n : Node) : List Fact :=
  match n.label with
  | .exceptHandler _ => n.handlerFacts s
  | .assign => (n.part .target).flatMap (n.secretFacts s)
  | .annAssign => (n.part .target).flatMap (n.secretFacts s)
  | .forLoop _ => [n.rangeLenFact s, n.concatFact s]
  | .whileLoop => [n.concatFact s]
  | _ => []

end Source.Node

/-! ## The visitor -/

/-- Where a visitor stands, and the facts that it has emitted, the last one first. -/
structure Visit where
  setting : Setting
  emitted : List Fact := []

/-- A part of a visit. It fails at a logger whose name cannot be written. -/
abbrev Visitor := StateT Visit (Except Source.Printer.PrintFault)

namespace Visitor

/-- Emits facts one after the other. -/
def emit (found : List Fact) : Visitor Unit :=
  modify fun v => { v with emitted := found.reverse ++ v.emitted }

/-- Goes into a definition. -/
def enter (scope : Scope) : Visitor Unit :=
  modify fun v => { v with setting := v.setting.enter scope }

/-- Goes out of the innermost definition. -/
def leave : Visitor Unit := modify fun v => { v with setting := v.setting.leave }

end Visitor

namespace Source.Node

open Visitor

mutual

/-- Visits a tree. -/
def visit : Node → Visitor Unit
  | n@(mk _ label _ _ children) => do
    let s := (← get).setting
    match label with
    | .functionDef name _ =>
      emit (n.functionFacts s name)
      enter ⟨false, name⟩
      visitAll children
      leave
    | .classDef name =>
      emit (n.classFacts s name)
      enter ⟨true, name⟩
      visitAll children
      leave
    -- a list of names has no children
    | .globalStmt names => emit (n.globalFacts s names)
    | .call =>
      emit (← n.callFacts s)
      visitAll children
    | _ =>
      emit (n.plainFacts s)
      visitAll children

/-- Visits trees one after the other. -/
def visitAll : List Node → Visitor Unit
  | [] => pure ()
  | n :: rest => do
    visit n
    visitAll rest

end

/-- The facts that a visit of a module emits. -/
def facts (path : String) (isTest : Bool) (n : Node) :
    Except Source.Printer.PrintFault (List Fact) := do
  let ((), v) ← n.visit.run { setting := { path, isTest, scopes := [] } }
  return v.emitted.reverse

end Source.Node

end Scorecard
