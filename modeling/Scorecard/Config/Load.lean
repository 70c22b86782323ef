import Scorecard.Codebase.FileTree
import Scorecard.Config.Read
import Scorecard.Value.Toml

set_option autoImplicit false

/-! # Configuration files

A configuration is loaded from a file that is named, or from the first that exists of three files in
the repository. The file of a whole project holds settings of many tools, so only the table for this
program counts there; in a file of its own the settings may also stand at the top.
-/

namespace Scorecard

/-- Why no configuration is loaded. -/
inductive LoadError where
  | missing (path : String)
  | access (e : AccessError)
  | notText (e : Text.Utf8Error)
  | malformed (path : String)
  | tooManyDigits (count : Nat)
  | config (e : ConfigError)
deriving DecidableEq, Repr

def LoadError.message : LoadError → String
  | missing path => "Config file does not exist: " ++ path
  | access e => e.message
  | notText e => e.message
  | malformed path => "Invalid TOML in " ++ path
  | tooManyDigits count => digitLimitMessage count
  | config e => e.message

/-- The names of files with nothing but the configuration, the first one first. -/
def configNames : List String := [".style-rubric.toml", "style-rubric.toml"]

/-- The name of the file of a whole project. -/
def projectName : String := "pyproject.toml"

/-- The names of the table for this program among the tools, the first one first. -/
def toolNames : List String := ["style_rubric", "style-rubric"]

/-- The fields of a field that is a table. -/
def Fields.table? (fields : Fields) (name : String) : Option Fields :=
  match fields.get? name with
  | some (.table inner) => some inner
  | _ => none

/-- The table for this program among the tools. -/
def toolTable? (document : Fields) : Option Fields := do
  let tools ← document.table? "tool"
  toolNames.findSome? fun name => tools.table? name

/-- The settings in a document from a file with a name. -/
def settingsOf (name : String) (document : Fields) : Fields :=
  if name = projectName then (toolTable? document).getD [] else (toolTable? document).getD document

/-- The settings in a file. -/
def readSettings (t : FileTree) (path : Path) : Except LoadError Fields := do
  let bytes ← (t.read path).mapError .access
  let cs ← (Text.decode bytes).mapError .notText
  match Toml.parse cs with
  | .ok document => return settingsOf path.name document
  | .error .malformed => throw (.malformed path.text)
  | .error (.tooManyDigits count) => throw (.tooManyDigits count)

/-- The configuration in a file. The file of a project says nothing if it has no settings for this
program. -/
def Config.ofFile (ρ : Rounding) (t : FileTree) (path : Path) (ofProject : Bool) :
    Except LoadError Config := do
  let settings ← readSettings t path
  if ofProject && settings.isEmpty then return {}
    else (Config.ofFields ρ path.text settings).mapError .config

/-- The first of some paths that has an entry. -/
def FileTree.firstWithEntry (t : FileTree) : List Path → Except AccessError (Option Path)
  | [] => .ok none
  | p :: rest => do
    if ← t.has p then return some p
    t.firstWithEntry rest

/-- The configuration file of a repository: the one that is named, which has to exist, or the first
that exists of three. A file that is named is looked for in the repository. -/
def Config.findFile (t : FileTree) (repository : Path) (named : Option Path) :
    Except LoadError (Option Path) :=
  let root := Path.ofPlace (t.resolve repository)
  match named with
  | some path => do
    let path := root.join path
    if ← (t.has path).mapError .access then return some path
    throw (.missing path.text)
  | none =>
    let candidates :=
      (configNames ++ [projectName]).map fun name => root.join
        { absolute := false, parts := [name] }
    (t.firstWithEntry candidates).mapError .access

/-- Loads the configuration of a repository. -/
def Config.load (ρ : Rounding) (t : FileTree) (repository : Path) (named : Option Path) :
    Except LoadError Config := do
  match ← Config.findFile t repository named with
  -- a project file that is named counts even if it has no settings
  | some path => Config.ofFile ρ t path (named.isNone && path.name = projectName)
  | none => return {}

/-! ## A configuration to start from -/

/-- The lines of a configuration file that says the defaults. -/
def Config.starterLines : List String :=
  ["format = \"text\"",
   "fail_under = 7.0",
   "include = []",
   "exclude = [\"build/**\", \"docs/**\"]",
   "",
   "[weights]",
   "# Overrides must keep the ten category weights summing to 1.0.",
   "# testing = 0.15",
   "# version_control = 0.05",
   "",
   "[rules]",
   "# enable = []",
   "disable = []",
   "",
   "[report]",
   "max_recommendations = 5",
   "strength_threshold = 9.0",
   "weakness_threshold = 6.0",
   "",
   "[evaluation]",
   "max_workers = 4",
   "# budget_seconds = 30",
   "",
   "[limits]",
   "max_line_length = 100",
   "max_function_length = 40",
   "max_arguments = 5",
   "max_complexity = 10",
   "max_loop_depth = 3",
   "max_class_methods = 20",
   "max_class_bases = 2",
   "max_module_length = 500",
   "min_commit_subject = 10",
   "max_commit_subject = 72"]

/-- A configuration file to start from. -/
def Config.starter : String := String.join (starterLines.map (· ++ "\n"))

end Scorecard
