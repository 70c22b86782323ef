import Scorecard.Codebase.Path
import Scorecard.Text.Utf8

set_option autoImplicit false

/-! # File trees

The files and directories that a run can see. An entry has the names on the way from the root of the
file system to it. A directory need not be listed if something in it is. Two ways lead from a path
to an entry: `resolve` drops `..` together with the name before it and asks for nothing to exist,
`locate` goes name by name and fails where there is no directory or where a name is too long. There
are no links, and names are texts.
-/

namespace Scorecard

/-- A file with its bytes, or a directory. -/
inductive Entry where
  | file (bytes : List Nat)
  | directory
deriving DecidableEq, Repr

/-- A file tree with the directory in which relative paths start. -/
structure FileTree where
  home : List String
  entries : List (List String × Entry)
deriving DecidableEq, Repr

/-- Why a file cannot be read or written. -/
inductive AccessError where
  | missing (path : String)
  | notDirectory (path : String)
  | isDirectory (path : String)
  | alreadyThere (path : String)
  | tooLong (path : String)
deriving DecidableEq, Repr

def AccessError.message : AccessError → String
  | missing path => "[Errno 2] No such file or directory: " ++ Text.quoted path
  | notDirectory path => "[Errno 20] Not a directory: " ++ Text.quoted path
  | isDirectory path => "[Errno 21] Is a directory: " ++ Text.quoted path
  | alreadyThere path => "[Errno 17] File exists: " ++ Text.quoted path
  | tooLong path => "[Errno 36] File name too long: " ++ Text.quoted path

namespace FileTree

/-- The places that are listed: the home and those of the entries. -/
def places (t : FileTree) : List (List String) := t.home :: t.entries.map (·.1)

/-- What stands at a place. There are directories on the way to every place that is listed. -/
def entryAt (t : FileTree) (place : List String) : Option Entry :=
  match t.entries.lookup place with
  | some e => some e
  | none => if t.places.any (place.isPrefixOf ·) then some .directory else none

/-- Whether a directory stands at a place. -/
def isDirectoryAt (t : FileTree) (place : List String) : Bool := t.entryAt place = some .directory

/-- Whether a file stands at a place. -/
def isFileAt (t : FileTree) (place : List String) : Bool :=
  match t.entryAt place with
  | some (.file _) => true
  | _ => false

/-- The names in a directory, each once. -/
def children (t : FileTree) (place : List String) : List String :=
  (t.places.filterMap fun p =>
    if place.isPrefixOf p then (p.drop place.length).head? else none).eraseDups

/-- The places on the way to a place, itself included. -/
def wayTo (place : List String) : List (List String) :=
  (List.range place.length).map fun n => place.take (n + 1)

/-- The places below a directory, as the names that lead from it to them, in the order of paths. -/
def below (t : FileTree) (place : List String) : List (List String) :=
  let rests := t.places.filterMap fun p =>
    if place.isPrefixOf p then some (p.drop place.length) else none
  ((rests.flatMap wayTo).mergeSort Path.precedes).eraseDups

/-- The names from the root of the file system to the place of a path, which need not exist. -/
def resolve (t : FileTree) (p : Path) : List String :=
  p.parts.foldl (fun place part => if part = ".." then place.dropLast else place ++ [part])
    (if p.absolute then [] else t.home)

/-- The absolute path to a place. -/
def textOf (place : List String) : String := "/" ++ "/".intercalate place

/-- The most bytes that a name can have. -/
def nameLimit : Nat := 255

/-- The number of bytes from which on a path is too long. -/
def pathLimit : Nat := 4096

/-- Goes from a place along some names. Every place on the way has to be a directory, in which a
name that is too long cannot be looked up. -/
def follow (t : FileTree) (path : String) (place : List String) :
    List String → Except AccessError (List String)
  | [] => .ok place
  | part :: rest =>
    match t.entryAt place with
    | some .directory =>
      if nameLimit < part.utf8ByteSize then .error (.tooLong path)
      else follow t path (if part = ".." then place.dropLast else place ++ [part]) rest
    | some (.file _) => .error (.notDirectory path)
    | none => .error (.missing path)

/-- The entry of a path. -/
def locate (t : FileTree) (p : Path) : Except AccessError Entry := do
  if pathLimit ≤ p.text.utf8ByteSize then throw (.tooLong p.text)
  let place ← t.follow p.text (if p.absolute then [] else t.home) p.parts
  match t.entryAt place with
  | some e => return e
  | none => throw (.missing p.text)

/-- Whether there is an entry at a path. It cannot be said of a path that is too long. -/
def has (t : FileTree) (p : Path) : Except AccessError Bool :=
  match t.locate p with
  | .ok _ => .ok true
  | .error (.tooLong path) => .error (.tooLong path)
  | .error _ => .ok false

/-- The bytes of the file at a path. -/
def read (t : FileTree) (p : Path) : Except AccessError (List Nat) := do
  match ← t.locate p with
  | .file bytes => return bytes
  | .directory => throw (.isDirectory p.text)

/-- Whether the last name of a place is too long. -/
def endsTooLong (place : List String) : Bool := nameLimit < (place.getLast?.getD "").utf8ByteSize

/-- Makes the directories on the way to a place. -/
def makeDirectory (t : FileTree) (place : List String) : Except AccessError FileTree :=
  match t.entryAt place with
  | some .directory => .ok t
  | some (.file _) => .error (.alreadyThere (textOf place))
  | none =>
    if (wayTo place).any (fun above => above ≠ place && t.isFileAt above) then
      .error (.notDirectory (textOf place))
    else
      match (wayTo place).find? endsTooLong with
      | some above => .error (.tooLong (textOf above))
      | none => .ok { t with entries := t.entries ++ [(place, .directory)] }

/-- Writes a file, over a file that is there. -/
def write (t : FileTree) (place : List String) (bytes : List Nat) : Except AccessError FileTree :=
  match t.entryAt place with
  | some .directory => .error (.isDirectory (textOf place))
  | some (.file _) =>
      .ok { t with entries := (place, .file bytes) :: t.entries.filter (·.1 ≠ place) }
  | none =>
    if endsTooLong place then .error (.tooLong (textOf place))
    else .ok { t with entries := (place, .file bytes) :: t.entries.filter (·.1 ≠ place) }

end FileTree

end Scorecard
