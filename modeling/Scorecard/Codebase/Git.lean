import Scorecard.Text.Blank
import Scorecard.Text.Utf8

set_option autoImplicit false

/-! # Version control

Three questions are put to git: whether a directory is in a work tree, which commits it has, and
which files are tracked. What git replies is a parameter, so that everything made from its replies
is a function of them. A reply consists of bytes, with newlines for its line ends. Two things can go
wrong: git may refuse to answer, which is a `GitError`, and bytes may be no text, which is not one.
-/

namespace Scorecard

/-- A question to git. The log is asked for at most `limit` commits. -/
inductive GitQuery where
  | workTree
  | log (limit : Int)
  | files
deriving DecidableEq, Repr

/-- The arguments with which git is called. -/
def GitQuery.arguments : GitQuery → List String
  | workTree => ["rev-parse", "--is-inside-work-tree"]
  | log limit => ["log", "--max-count=" ++ Int.repr limit, "--format=%h%x09%s"]
  | files => ["ls-files", "-z"]

/-- What comes back: what git wrote to its output and to its error stream, and whether it succeeded;
or there is no git at all. -/
inductive GitReply where
  | ended (succeeded : Bool) (output errors : List Nat)
  | noExecutable
deriving DecidableEq, Repr

namespace GitReply

/-- A reply with a text. -/
def output (text : String) : GitReply := .ended true (Text.encode text) []

/-- A failure with a text on the error stream. -/
def failure (errors : String) : GitReply := .ended false [] (Text.encode errors)

end GitReply

/-- What git replies to each question. -/
abbrev Git := GitQuery → GitReply

/-- A question that was not answered, with the reason. -/
structure GitError where
  message : String
deriving DecidableEq, Repr

/-- Why a question has no answer. -/
inductive AskError where
  | refused (e : GitError)
  | notText (e : Text.Utf8Error)
deriving DecidableEq, Repr

/-- A commit: its abbreviated hash and the first line of its message. -/
structure Commit where
  hash : String
  subject : String
deriving DecidableEq, Repr

namespace Git

/-- The commits that are asked for if nothing else is said. -/
def commitLimit : Int := 50

/-- The text of a stream. -/
def streamText (bytes : List Nat) : Except AskError String :=
  ((Text.decode bytes).map String.ofList).mapError .notText

/-- The answer to a question. Both streams are read before it is seen whether git succeeded. -/
def ask (git : Git) (q : GitQuery) : Except AskError String :=
  match git q with
  | .ended succeeded output errors => do
    let text ← streamText output
    let reason := Text.strip (← streamText errors)
    if succeeded then return text
    else if reason = "" then throw (.refused ⟨"git " ++ " ".intercalate q.arguments ++ " failed"⟩)
    else throw (.refused ⟨reason⟩)
  | .noExecutable => .error (.refused ⟨"git executable not found"⟩)

/-- Whether the directory is in a work tree. -/
def isWorkTree (git : Git) : Except Text.Utf8Error Bool :=
  match git.ask .workTree with
  | .ok text => .ok (Text.strip text = "true")
  | .error (.refused _) => .ok false
  | .error (.notText e) => .error e

/-- The commit on a line of the log: a hash and a subject with a tab between them. -/
def commitOfLine? (line : String) : Option Commit :=
  let cs := line.toList
  match cs.dropWhile (· != '\t') with
  | _ :: subject => some ⟨String.ofList (cs.takeWhile (· != '\t')), String.ofList subject⟩
  | [] => none

/-- Whether a failure only says that there is no commit yet. -/
def saysNoCommits (e : GitError) : Bool :=
  Text.contains e.message "does not have any commits" ||
    Text.contains e.message "bad default revision"

/-- The commits, the newest first. A repository without commits has none. -/
def commits (git : Git) (limit : Int) : Except AskError (List Commit) :=
  match git.ask (.log limit) with
  | .ok text => .ok ((Text.lines text).filterMap commitOfLine?)
  | .error (.refused e) => if saysNoCommits e then .ok [] else .error (.refused e)
  | .error (.notText e) => .error (.notText e)

/-- The tracked files in code point order. -/
def trackedFiles (git : Git) : Except AskError (List String) := do
  let text ← git.ask .files
  return ((Text.splitOn '\x00' text).filter (· ≠ "")).mergeSort Text.precedes

end Git

end Scorecard
