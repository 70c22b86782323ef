import Scorecard.Codebase.FileFacts
import Scorecard.Codebase.FileTree
import Scorecard.Codebase.Git
import Scorecard.Fact.Model
import Scorecard.Text.Glob

set_option autoImplicit false

/-! # Extracting facts

The facts of a code base are those of its selected source files, in the order of paths, followed by
those of its version control. A file contributes the same facts whatever else is selected.
-/

namespace Scorecard

variable [Text.CharacterNames]

/-- Which files are looked at, and whether git is asked. -/
structure Selection where
  included : List String := []
  excluded : List String := []
  withGit : Bool := true
deriving DecidableEq, Repr

/-- Why no facts are extracted. -/
inductive ExtractError where
  | notDirectory (path : String)
  | access (e : AccessError)
  /-- What git replied is no text. -/
  | notText (e : Text.Utf8Error)
  | unprintable (fault : Source.Printer.PrintFault)
  | fact (e : FactError)
deriving DecidableEq, Repr

def ExtractError.message : ExtractError → String
  | notDirectory path => "Codebase root is not a directory: " ++ path
  | access e => e.message
  | notText e => e.message
  | unprintable fault => fault.message
  | fact e => e.message

/-- What was left out. -/
inductive Warning where
  | notParsed (path : String)
  | noHistory (root : String) (reason : GitError)
deriving DecidableEq, Repr

/-- Facts, further files, and what was left out. -/
structure Extraction where
  facts : List Fact := []
  files : List String := []
  warnings : List Warning := []

/-- One extraction after the other. -/
def Extraction.append (a b : Extraction) : Extraction :=
  ⟨a.facts ++ b.facts, a.files ++ b.files, a.warnings ++ b.warnings⟩

/-! ## Source files -/

/-- Directories that hold no source of the code base. -/
def skippedDirectories : List String :=
  [".git", "__pycache__", ".venv", "venv", "node_modules", ".tox", ".nox", ".mypy_cache",
    ".pytest_cache",
   ".ruff_cache", "build", "dist", ".eggs"]

/-- The path of a place below the root. -/
def relativePath (names : List String) : String := "/".intercalate names

/-- Whether a place below the root is selected. -/
def Selection.selects (s : Selection) (names : List String) : Bool :=
  let path := relativePath names
  Text.endsWith (names.getLast?.getD "") ".py" &&
    !names.dropLast.any (skippedDirectories.contains ·) &&
    (s.included.isEmpty || s.included.any (Text.fits · path)) &&
    !s.excluded.any (Text.fits · path)

/-- The selected places below a root, in the order of paths. -/
def selectedFiles (t : FileTree) (root : List String) (s : Selection) : List (List String) :=
  (t.below root).filter s.selects

/-- The names of the modules and packages in a directory. -/
def modulesIn (t : FileTree) (place : List String) : List String :=
  (t.children place).filterMap fun name =>
    if t.isDirectoryAt (place ++ [name]) && (t.entryAt (place ++ [name, "__init__.py"])).isSome then
      some name
    else if Path.suffix name = ".py" then some (Path.stem name)
    else none

/-- The modules that belong to the code base: those in its root and in its source directory. -/
def localModules (t : FileTree) (root : List String) : List String :=
  modulesIn t root ++ modulesIn t (root ++ ["src"])

/-- The text of a file: malformed bytes are replaced, and every line ends with a newline. -/
def sourceText (bytes : List Nat) : String :=
  String.ofList (Text.normalizeNewlines (Text.decodeLossy bytes))

/-- The facts of the file at a place below the root. -/
def extractFile (t : FileTree) (root : List String) (modules : List String) (names : List String) :
    Except ExtractError Extraction :=
  match t.entryAt (root ++ names) with
  | some (.file bytes) =>
    let path := relativePath names
    let text := sourceText bytes
    let tree := Source.parse text
    match fileFacts path modules text tree with
    | .error fault => .error (.unprintable fault)
    | .ok facts =>
        .ok { facts, files := [path], warnings := if tree.isSome then [] else [.notParsed path] }
  | some .directory => .error (.access (.isDirectory (FileTree.textOf (root ++ names))))
  | none => .error (.access (.missing (FileTree.textOf (root ++ names))))

/-- The facts of several files, one after the other. -/
def extractFiles (t : FileTree) (root : List String) (modules : List String) :
    List (List String) → Except ExtractError Extraction
  | [] => .ok {}
  | names :: rest => do
    let first ← extractFile t root modules names
    let more ← extractFiles t root modules rest
    return first.append more

/-! ## Version control -/

/-- Whether the code base says which files are not tracked. -/
def gitignoreExtraction (t : FileTree) (root : List String) : Extraction :=
  if t.isFileAt (root ++ [".gitignore"]) then
    { facts :=
        [{ kind := Kind.gitignorePresent, location := .ofFile ".gitignore", value := .bool true }]
      files := [".gitignore"] }
  else { facts := [{ kind := Kind.gitignorePresent, location := .codebase, value := .bool false }] }

/-- The fact about a commit. -/
def Commit.fact (c : Commit) : Fact :=
  { kind := Kind.commitMessage, location := .codebase, value := .text c.subject, subject := c.hash }

/-- The fact about a tracked file. -/
def trackedFact (path : String) : Fact :=
  { kind := Kind.trackedArtifact, location := .ofFile path, value := .bool (isArtifactPath path) }

/-- A fact for every commit and every tracked file. -/
def historyExtraction (commits : List Commit) (tracked : List String) : Extraction :=
  { facts := commits.map Commit.fact ++ tracked.map trackedFact, files := tracked }

/-- What git says of a work tree. Commits and tracked files come together or not at all. -/
def askHistory (git : Git) (root : List String) : Except Text.Utf8Error Extraction :=
  let asked := do
    let commits ← git.commits Git.commitLimit
    let tracked ← git.trackedFiles
    return historyExtraction commits tracked
  match asked with
  | .ok e => .ok e
  | .error (.refused e) => .ok { warnings := [.noHistory (FileTree.textOf root) e] }
  | .error (.notText e) => .error e

/-- The facts of the version control. There are none outside of a work tree. -/
def extractHistory (git : Git) (root : List String) (withGit : Bool) :
    Except Text.Utf8Error Extraction := do
  -- git is not asked at all if it is not wanted
  if !withGit then return {}
  if ← git.isWorkTree then askHistory git root else return {}

/-! ## The code base -/

/-- Why a place is not the root of a code base. -/
def notRoot (t : FileTree) (root : List String) : ExtractError :=
  match t.locate (.ofPlace root) with
  | .error (.tooLong path) => .access (.tooLong path)
  | _ => .notDirectory (FileTree.textOf root)

/-- The facts of the code base at a path. A model is built of facts that are in order. -/
def extract (t : FileTree) (git : Git) (path : Path) (s : Selection) :
    Except ExtractError (FactModel × List Warning) := do
  let root := t.resolve path
  if !t.isDirectoryAt root then throw (notRoot t root)
  let sources ← extractFiles t root (localModules t root) (selectedFiles t root s)
  let history ← (extractHistory git root s.withGit).mapError .notText
  let all := (sources.append (gitignoreExtraction t root)).append history
  let facts ← (all.facts.mapM Fact.check).mapError .fact
  return (FactModel.build facts all.files (FileTree.textOf root), all.warnings)

end Scorecard
