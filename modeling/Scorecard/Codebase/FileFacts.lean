import Scorecard.Codebase.Path
import Scorecard.Codebase.StandardModules
import Scorecard.Codebase.SyntaxFacts
import Scorecard.Source.Grammar.Statement

set_option autoImplicit false

/-! # Facts of a source file

A file has facts about its lines, about its imports and about its syntax tree. A text that is not a
module has only the first.
-/

namespace Scorecard

open Source (Node Label)

/-! ## Lines -/

/-- The number and the length of the longest line so far and after a further line, which has to be
longer to take its place. -/
def longerLine (best : Option (Nat × Nat)) : String × Nat → Option (Nat × Nat)
  | (line, number) =>
    match best with
    | some (_, length) => if length < line.length then some (number, line.length) else best
    | none => some (number, line.length)

/-- The number and the length of the first of the longest lines, if there is a line. -/
def longestLine (lines : List String) : Option (Nat × Nat) := (lines.zipIdx 1).foldl longerLine none

def lineFacts (path text : String) : List Fact :=
  let lines := Text.lines text
  [{ kind := Kind.moduleLength, location := .ofFile path, value := .int lines.length },
   { kind := Kind.testFile, location := .ofFile path, value := .bool (isTestPath path) }]
  ++ match longestLine lines with
    | some (number, length) =>
      [{ kind := Kind.lineLength, location := .ofLines path number number, value := .int length }]
    | none => []

/-! ## Imports

Imports come in three groups: the standard library, other distributions, and the code base
itself. -/

/-- The group of an imported module. -/
def importGroup (localModules : List String) (module : String) (level : Nat) : Nat :=
  -- the outermost package decides
  let top := String.ofList (module.toList.takeWhile (· != '.'))
  if 0 < level then 2
  else if top = "__future__" || standardModules.contains top then 0
  else if localModules.contains top then 2
  else 1

/-- The groups of an import statement, or none for another statement. -/
def importGroups (localModules : List String) (n : Node) : List Nat :=
  match n.label with
  | .importStmt => (n.part .imported).map fun a =>
      match a.label with
      | .alias name _ => importGroup localModules name 0
      | _ => 1
  | .importFrom source level => [importGroup localModules (source.getD "") level]
  | _ => []

def isImport (n : Node) : Bool :=
  match n.label with
  | .importStmt | .importFrom _ _ => true
  | _ => false

/-- Whether no number is followed by a smaller one. -/
def isAscending : List Nat → Bool
  | a :: b :: rest => a ≤ b && isAscending (b :: rest)
  | _ => true

/-- Whether the imports at the top level of a module are in the order of their groups. -/
def importOrderFacts (path : String) (localModules : List String) (tree : Node) : List Fact :=
  let imports := (tree.part .body).filter isImport
  match imports.head?, imports.getLast? with
  | some first, some last =>
    [{ kind := Kind.importGroupOrder, location := .ofLines path first.line last.lastLine
       value := .bool (isAscending (imports.flatMap (importGroups localModules))) }]
  | _, _ => []

/-- A star imports every name. -/
def isWildcard (n : Node) : Bool :=
  match n.label with
  | .alias name _ => name = "*"
  | _ => false

/-- What each `from` statement of the module imports, level by level. -/
def wildcardFacts (path : String) (tree : Node) : List Fact :=
  tree.byLevels.filterMap fun n =>
    match n.label with
    | .importFrom source level =>
      some
        { kind := Kind.wildcardImport, location := .ofLines path n.line (max n.line n.lastLine)
          value := .bool ((n.part .imported).any isWildcard)
          subject := String.ofList (List.replicate level '.') ++ source.getD "" }
    | _ => none

/-! ## The file -/

/-- The facts of the module in a file, if there is one. -/
def moduleFacts (path : String) (localModules : List String) :
    Option Node → Except Source.Printer.PrintFault (List Fact)
  | some tree => do
    let visited ← tree.facts path (isTestPath path)
    return importOrderFacts path localModules tree ++ wildcardFacts path tree ++ visited
  | none => .ok []

/-- The facts of a file with a text and the tree of it, if there is one. -/
def fileFacts (path : String) (localModules : List String) (text : String) (tree : Option Node) :
    Except Source.Printer.PrintFault (List Fact) := do
  return lineFacts path text ++ (← moduleFacts path localModules tree)

end Scorecard
