import Scorecard.Text.Blank

set_option autoImplicit false

/-! # Paths

A path is a sequence of names, from the root of the file system if it is absolute. Empty names and
`.` mean nothing and are dropped when a path is read; `..` is kept.
-/

namespace Scorecard

/-- A path in the file system. -/
structure Path where
  absolute : Bool
  parts : List String
deriving DecidableEq, Repr

namespace Path

/-- Reads a path. -/
def ofText (s : String) : Path :=
  { absolute := Text.startsWith s "/"
    parts := (Text.splitOn '/' s).filter fun part => part ≠ "" && part ≠ "." }

/-- The absolute path of a place. -/
def ofPlace (place : List String) : Path := { absolute := true, parts := place }

/-- The path as it is written: the empty relative path is `.`. -/
def text (p : Path) : String :=
  let names := "/".intercalate p.parts
  if p.absolute then "/" ++ names else if p.parts.isEmpty then "." else names

/-- `q` seen from `p`. -/
def join (p q : Path) : Path := if q.absolute then q else { p with parts := p.parts ++ q.parts }

/-- The last name, empty if there is none. -/
def name (p : Path) : String := p.parts.getLast?.getD ""

/-- A name divided before its last dot. A name that ends with a dot, or whose only dot is at its
front, has no suffix. -/
def splitSuffix (name : String) : String × String :=
  let cs := name.toList
  let ending := cs.reverse.takeWhile (· != '.')
  let stem := cs.dropLast.take (cs.length - ending.length - 1)
  if ending.isEmpty || ending.length == cs.length || stem.isEmpty then (name, "")
  else (String.ofList stem, String.ofList ('.' :: ending.reverse))

/-- The suffix of a name with its dot. -/
def suffix (name : String) : String := (splitSuffix name).2

/-- A name without its suffix. -/
def stem (name : String) : String := (splitSuffix name).1

/-- The order of paths by their names, one after the other. -/
def precedes : List String → List String → Bool
  | [], _ => true
  | _ :: _, [] => false
  | a :: as, b :: bs => if a = b then precedes as bs else decide (a < b)

end Path

/-! ## Test files and artifacts -/

/-- Whether a path names a test module: it lies in a directory of tests, or its name says so. -/
def isTestPath (path : String) : Bool :=
  let lowered := Text.lower path
  let name := (Path.ofText lowered).name
  Text.startsWith lowered "tests/" || Text.contains lowered "/tests/" ||
    Text.startsWith name "test_" ||
    Text.endsWith name "_test.py" || name = "conftest.py"

def artifactNames : List String := [".env", ".DS_Store", "Thumbs.db"]

def artifactSuffixes : List String := [".pyc", ".pyo", ".so", ".egg", ".whl", ".sqlite3", ".log"]

def artifactDirectories : List String :=
  ["__pycache__", ".pytest_cache", ".mypy_cache", ".tox", ".venv", "venv"]

/-- Whether a path names a generated or local file, which should not be under version control. -/
def isArtifactPath (path : String) : Bool :=
  let p := Path.ofText path
  artifactNames.contains p.name || artifactSuffixes.contains (Path.suffix p.name) ||
    p.parts.dropLast.any fun part => artifactDirectories.contains part ||
      Text.endsWith part ".egg-info"

end Scorecard
