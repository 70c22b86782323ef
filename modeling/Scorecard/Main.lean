import Scorecard.Command.Clock
import Scorecard.Command.Reach
import Std.Time.DateTime.Timestamp

set_option autoImplicit false

/-! # The program

Loads the files that a command line can reach, runs it, and stores what it wrote. No other program
is started, so the history of a code base is not looked at.
-/

namespace Scorecard.Main

open Command

/-- The entry at a place. The content of a file is read only where it is wanted. -/
def entryOf? (place : List String) (withContent : Bool) : IO (Option Entry) := do
  try
    let path ← IO.FS.realPath (FileTree.textOf place)
    if ← path.isDir then return some .directory
    else if withContent then
      let bytes ← IO.FS.readBinFile path
      return some (.file (bytes.toList.map UInt8.toNat))
    else return some (.file [])
  catch _ => return none

/-- The entries on the way to a place, itself included. -/
def entriesTo (place : List String) : IO (List (List String × Entry)) :=
  (FileTree.wayTo place).filterMapM fun above => do
    return (← entryOf? above (above == place)).map fun e => (above, e)

/-- The entries below a directory, except in directories that hold no source. A directory behind a
link is not entered. -/
partial def entriesBelow (place : List String) : IO (List (List String × Entry)) := do
  let directory ← IO.FS.realPath (FileTree.textOf place)
  let found ← (← directory.readDir).toList.mapM fun item => do
    let inner := place ++ [item.fileName]
    match ← entryOf? inner (Path.suffix item.fileName == ".py") with
    | none => return []
    | some (.file bytes) => return [(inner, Entry.file bytes)]
    | some .directory =>
      let linked := (← item.path.symlinkMetadata).type == .symlink
      let more ← if linked || skippedDirectories.contains item.fileName then pure []
        else entriesBelow inner
      return (inner, Entry.directory) :: more
  return found.flatten

/-- A directory with everything below it; anything else only with what is on the way to it. -/
def entriesOf (place : List String) : IO (List (List String × Entry)) := do
  let above ← entriesTo place
  let below ← if above.lookup place = some .directory then entriesBelow place else pure []
  return above ++ below

/-- The files that an invocation can reach. -/
def load (home : List String) (invocation : Invocation) : IO FileTree := do
  let empty : FileTree := { home, entries := [] }
  let single ← invocation.files.mapM fun path => entriesTo (empty.resolve path)
  let whole ← invocation.codebase?.toList.mapM fun path => entriesOf (empty.resolve path)
  return { home, entries := (single ++ whole).flatten }

/-- Stores the entries that a run has added or changed, directories before files. -/
def store (before after : FileTree) : IO Unit := do
  let changed :=
    after.entries.filter fun (place, entry) => before.entries.lookup place != some entry
  for (place, entry) in changed do
    if entry = .directory then IO.FS.createDirAll (FileTree.textOf place)
  for (place, entry) in changed do
    if let .file bytes := entry then
      IO.FS.writeBinFile (FileTree.textOf place) ⟨(bytes.map UInt8.ofNat).toArray⟩

/-- Runs an invocation. -/
def perform (invocation : Invocation) : IO UInt32 := do
  let home := (Path.ofText (← IO.currentDir).toString).parts
  let files ← load home invocation
  let time := timeText (← Std.Time.Timestamp.now).toSecondsSinceUnixEpoch.val
  match invocation.run .nearest
    { files, git := fun _ => .noExecutable, time, wait := .complete } with
  | .ok done =>
    store files done.files
    IO.print done.output
    return done.status.toUInt32
  | .error e =>
    IO.eprintln ("Error: " ++ e.message)
    return e.status.toUInt32

end Scorecard.Main

/-- The command line. -/
def main (words : List String) : IO UInt32 := do
  match Scorecard.Command.Invocation.ofWords words with
  | .ok invocation => Scorecard.Main.perform invocation
  | .error e =>
    IO.eprintln ("Error: " ++ e.message)
    return (Scorecard.Command.CommandError.usage e).status.toUInt32
