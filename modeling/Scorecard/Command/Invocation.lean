import Scorecard.Codebase.Path
import Scorecard.Command.Option
import Scorecard.Text.Numeric

set_option autoImplicit false

/-! # Commands

What a command line asks for. The words before the name of a command are options of the program,
those after it belong to the command. An option that takes one value and is used several times has
the last one.
-/

namespace Scorecard.Command

/-- The directory in which the program runs. -/
def here : Path := { absolute := false, parts := [] }

/-- What `score` gets. -/
structure ScoreOptions where
  path : Path := here
  factsFile : Option Path := none
  format : Option String := none
  failUnder : Option Number := none
  most : Option Int := none
  included : Option (List String) := none
  excluded : Option (List String) := none
  configFile : Option Path := none
  withGit : Bool := true
deriving DecidableEq, Repr

/-- What `facts` gets. -/
structure FactsOptions where
  path : Path := here
  included : Option (List String) := none
  excluded : Option (List String) := none
  configFile : Option Path := none
  withGit : Bool := true
deriving DecidableEq, Repr

/-- What the commands get that show a configuration or the rules under it. -/
structure ListingOptions where
  repository : Path := here
  format : String := "text"
  configFile : Option Path := none
deriving DecidableEq, Repr

/-- What `config-init` gets. -/
structure StarterOptions where
  target : Path := { absolute := false, parts := [".style-rubric.toml"] }
  overwrite : Bool := false
deriving DecidableEq, Repr

/-- What a command line asks for. -/
inductive Invocation where
  | help
  | version
  | completion
  | score (o : ScoreOptions)
  | facts (o : FactsOptions)
  | rules (o : ListingOptions)
  | config (o : ListingOptions)
  | writeStarter (o : StarterOptions)
  | validate (o : ListingOptions)
deriving DecidableEq, Repr

/-! ## Options of the commands -/

def helpOption : OptionSpec := .flag "--help"

/-- The options of the program itself. -/
def programOptions : List OptionSpec :=
  [.flag "--version", { names := ["--verbose", "-v"] }, .flag "--install-completion",
    .flag "--show-completion",
   helpOption]

def scoreOptions : List OptionSpec :=
  [.valued "--facts-file", .valued "--format", .valued "--fail-under",
    .valued "--max-recommendations",
   .valued "--include", .valued "--exclude", .valued "--config", .flag "--no-git", helpOption]

def factsOptions : List OptionSpec :=
  [.valued "--include", .valued "--exclude", .valued "--config", .flag "--no-git", helpOption]

def listingOptions : List OptionSpec :=
  [.valued "--repo", .valued "--format", .valued "--config", helpOption]

def starterOptions : List OptionSpec := [.valued "--out", .flag "--force", helpOption]

/-- The last value as a path. -/
def lastPath (values : List String) : Option Path := values.getLast?.map Path.ofText

def setScoreOption (o : ScoreOptions) (name : String) (values : List String) :
    Except UsageError ScoreOptions :=
  let last := values.getLast?.getD ""
  match name with
  | "--facts-file" => .ok { o with factsFile := lastPath values }
  | "--format" => .ok { o with format := some last }
  | "--fail-under" =>
    match Text.number? last with
    | some x => .ok { o with failUnder := some x }
    | none => .error (.notNumber name last)
  | "--max-recommendations" =>
    match Text.integer? last with
    | some n => .ok { o with most := some n }
    | none => .error (.notInteger name last)
  | "--include" => .ok { o with included := some values }
  | "--exclude" => .ok { o with excluded := some values }
  | "--config" => .ok { o with configFile := lastPath values }
  | "--no-git" => .ok { o with withGit := false }
  | _ => .ok o

def setFactsOption (o : FactsOptions) (name : String) (values : List String) :
    Except UsageError FactsOptions :=
  match name with
  | "--include" => .ok { o with included := some values }
  | "--exclude" => .ok { o with excluded := some values }
  | "--config" => .ok { o with configFile := lastPath values }
  | "--no-git" => .ok { o with withGit := false }
  | _ => .ok o

def setListingOption (o : ListingOptions) (name : String) (values : List String) :
    Except UsageError ListingOptions :=
  match name with
  | "--repo" => .ok { o with repository := (lastPath values).getD here }
  | "--format" => .ok { o with format := values.getLast?.getD "" }
  | "--config" => .ok { o with configFile := lastPath values }
  | _ => .ok o

def setStarterOption (o : StarterOptions) (name : String) (values : List String) :
    Except UsageError StarterOptions :=
  match name with
  | "--out" => .ok { o with target := (lastPath values).getD here }
  | "--force" => .ok { o with overwrite := true }
  | _ => .ok o

/-! ## Reading -/

/-- No words may be left over. -/
def noMore (arguments : List String) : Except UsageError Unit :=
  if arguments.isEmpty then .ok () else .error (.extraArguments arguments)

/-- The words after the name of a command, with its options. -/
structure CommandReader where
  options : List OptionSpec
  read : Scanned → Except UsageError Invocation

/-- A command that shows something under a configuration. -/
def listingReader (start : ListingOptions) (make : ListingOptions → Invocation) :
    CommandReader where
  options := listingOptions
  read s := do
    let o ← readUses setListingOption start s.uses
    noMore s.arguments
    return make o

def scoreReader : CommandReader where
  options := scoreOptions
  read s := do
    let o ← readUses setScoreOption {} s.uses
    noMore (s.arguments.drop 1)
    return .score { o with path := (s.arguments.head?.map Path.ofText).getD o.path }

def factsReader : CommandReader where
  options := factsOptions
  read s := do
    let o ← readUses setFactsOption {} s.uses
    noMore (s.arguments.drop 1)
    return .facts { o with path := (s.arguments.head?.map Path.ofText).getD o.path }

def starterReader : CommandReader where
  options := starterOptions
  read s := do
    let o ← readUses setStarterOption {} s.uses
    noMore s.arguments
    return .writeStarter o

/-- The commands by name. A configuration that is to be validated has a file even if none is
named. -/
def readers : List (String × CommandReader) :=
  [("score", scoreReader), ("facts", factsReader), ("rules", listingReader {} .rules),
   ("config", listingReader {} .config), ("config-init", starterReader),
   ("config-validate", listingReader { configFile := some (.ofText ".style-rubric.toml") }
     .validate)]

/-- Whether a word that is no command could be meant as an option. -/
def looksLikeOption (word : String) : Bool :=
  match word.toList with
  | [] => false
  | c :: _ => !(c.isAlphanum || 128 ≤ c.toNat)

/-- Reads the words from the name of a command on. -/
def readCommand : List String → Except UsageError Invocation
  | [] => .error .missingCommand
  | name :: rest =>
    match readers.lookup name with
    | some reader => do
      let s ← scan reader.options true rest
      if s.has "--help" then return .help else reader.read s
    -- an option in the place of a command only explains the program
    | none => if looksLikeOption name then .ok .help else .error (.noSuchCommand name)

/-- What an option of the program asks for on its own. -/
def immediate? (u : OptionUse) : Option Invocation :=
  match u.name with
  | "--version" => some .version
  | "--install-completion" | "--show-completion" => some .completion
  | _ => none

/-- Reads a command line. Without any word the program explains itself. -/
def Invocation.ofWords (words : List String) : Except UsageError Invocation := do
  if words.isEmpty then return .help
  let s ← scan programOptions false words
  if s.has "--help" then return .help
  match s.uses.findSome? immediate? with
  | some invocation => return invocation
  | none => readCommand s.arguments

end Scorecard.Command
