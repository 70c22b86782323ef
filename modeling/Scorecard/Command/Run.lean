import Scorecard.Codebase.Extract
import Scorecard.Codebase.FactsFile
import Scorecard.Command.Invocation
import Scorecard.Config.Load
import Scorecard.Report.Render
import Scorecard.Report.Run
import Scorecard.Value.Display

set_option autoImplicit false

/-! # Running commands

A command gets the files it can see, the replies of git, the time and how the waiting for an
evaluation goes, and gives an exit status, output and the files as they are afterwards. The status
is 1 if a score is below its threshold. What a user can mend has the status 2.
-/

namespace Scorecard.Command

variable [Text.CharacterNames]

/-- What a command can see. -/
structure Workspace where
  files : FileTree
  git : Git
  time : String
  wait : Wait

/-- What a command leaves. -/
structure Completed where
  status : Nat := 0
  output : String
  files : FileTree
deriving DecidableEq, Repr

/-- Why a command does not complete. -/
inductive CommandError where
  | usage (e : UsageError)
  /-- Something is wrong with a value that the user gave, on the command line or in a file. -/
  | badValue (subject : Option String) (reason : String)
  /-- A file cannot be read or written. -/
  | access (e : AccessError)
  /-- An integer in the configuration is beyond the range of numbers. -/
  | tooLarge
  /-- An integer in the configuration has more digits than can be written. -/
  | unprintable
  /-- The time budget is longer than can be waited for. -/
  | unwaitable
  /-- The rules that apply have no weight. -/
  | noWeight
deriving DecidableEq, Repr

namespace CommandError

def message : CommandError → String
  | usage e => e.message
  | badValue none reason => "Invalid value: " ++ reason
  | badValue (some subject) reason => "Invalid value for " ++ subject ++ ": " ++ reason
  | access e => e.message
  | tooLarge => ConfigError.tooLarge.message
  | unprintable => RunError.unprintable.message
  | unwaitable => RunError.unwaitable.message
  | noWeight => ScoreError.noWeight.message

/-- The exit status after an error. -/
def status : CommandError → Nat
  | usage _ | badValue _ _ => 2
  | access _ | tooLarge | unprintable | unwaitable | noWeight => 1

/-- A configuration that cannot be loaded. -/
def ofLoad : LoadError → CommandError
  | .access e => .access e
  | .config .tooLarge => .tooLarge
  | e => .badValue (some "config") e.message

/-- An evaluation without a report. -/
def ofRun (e : RunError) : CommandError :=
  match e with
  | .timeout _ _ | .report (.incomplete _) => .badValue none e.message
  | .score .noWeight => .noWeight
  | .unwaitable => .unwaitable
  | _ => .badValue (some "config") e.message

end CommandError

/-- Completes with some lines of output. -/
def Workspace.print (w : Workspace) (text : String) : Completed :=
  { output := text ++ "\n", files := w.files }

/-! ## Parts of commands -/

/-- A format by its name, in letters of any case. -/
def formatNamed (name : String) : Except CommandError Format :=
  match Format.ofName? (Text.lower name) with
  | some f => .ok f
  | none => .error (.badValue (some "--format") "format must be one of: json, text")

def loadConfig (ρ : Rounding) (w : Workspace) (repository : Path) (named : Option Path) :
    Except CommandError Config :=
  (Config.load ρ w.files repository named).mapError .ofLoad

/-- The ids of the rules that are active under a configuration. -/
def activeRules (ρ : Rounding) (c : Config) : Except CommandError (List String) :=
  match Registry.ofLimits ρ c.limits with
  | .error e => .error (.badValue (some "config.rules") e.message)
  | .ok registry =>
    match registry.select c.enabled c.disabled with
    | .ok active => .ok active
    | .error ids => .error (.badValue (some "config.rules") (Registry.unknownMessage ids))

/-- The files to look at: patterns on the command line go before those of the configuration. -/
def selection (included excluded : Option (List String)) (withGit : Bool) (c : Config) :
    Selection :=
  { included := included.getD c.included, excluded := excluded.getD c.excluded, withGit }

/-- The facts of a code base. -/
def collect (w : Workspace) (path : Path) (s : Selection) : Except CommandError FactModel :=
  match extract w.files w.git path s with
  | .ok (m, _) => .ok m
  | .error e => .error (.badValue none e.message)

/-! ## Scoring -/

/-- The number of recommendations, where the command line says it. -/
def withMost (most : Option Int) (c : Config) : Except CommandError Config :=
  match most with
  | none => .ok c
  | some n =>
    if n < 0 then .error (.badValue (some "--max-recommendations") "must be >= 0")
    else .ok { c with bounds := { c.bounds with most := n } }

/-- The facts to score, and what they come from. -/
def factsToScore (w : Workspace) (o : ScoreOptions) (c : Config) :
    Except CommandError (FactModel × String) :=
  match o.factsFile with
  | some path =>
    match FactModel.load w.files path with
    | .ok m => .ok (m, "facts_file:" ++ path.text)
    | .error e => .error (.badValue none e.message)
  | none => do
    let m ← collect w o.path (selection o.included o.excluded o.withGit c)
    return (m, "path:" ++ o.path.text)

/-- The format of the report: an empty name on the command line counts as none. -/
def reportFormat (o : ScoreOptions) (c : Config) : Except CommandError Format :=
  match o.format with
  | some name => if name = "" then .ok c.format else formatNamed name
  | none => .ok c.format

/-- The report as it is printed. -/
def reportText (ρ : Rounding) (format : Format) (source time : String) (r : Report) : String :=
  match format with
  | .json => r.json ρ source (some time)
  | .text => r.text ρ false

/-- The threshold in force: that of the command line goes before that of the configuration. -/
def threshold (o : ScoreOptions) (c : Config) : Option Number := o.failUnder <|> c.failUnder

/-- Whether a score is below a threshold; without one it never is. -/
def isBelow (score : Number) : Option Number → Bool
  | some t => score.lt t
  | none => false

/-- Evaluates a code base and prints the report. -/
def score (ρ : Rounding) (w : Workspace) (o : ScoreOptions) : Except CommandError Completed := do
  let c ← loadConfig ρ w o.path o.configFile
  -- what is wrong with the options is told before any file is read
  let format ← reportFormat o c
  let c ← withMost o.most c
  let (m, source) ← factsToScore w o c
  let report ← (run ρ m c w.wait).mapError .ofRun
  let status := if isBelow report.overall (threshold o c) then 1 else 0
  return { w.print (reportText ρ format source w.time report) with status }

/-- Prints the facts of a code base as a document. -/
def facts (ρ : Rounding) (w : Workspace) (o : FactsOptions) : Except CommandError Completed := do
  let c ← loadConfig ρ w o.path o.configFile
  let m ← collect w o.path (selection o.included o.excluded o.withGit c)
  return w.print (Json.render m.toValue)

/-! ## Rules and configurations -/

/-- A rule with its status, as a document. -/
def ruleValue (active : List String) (rule : Rule) : Value :=
  .table
    [("rule_id", .text rule.id), ("category", .text rule.category.slug),
      ("weight", .number rule.weight),
     ("description", .text rule.description), ("enabled", .bool (active.contains rule.id))]

/-- A rule with its status, on a line. -/
def ruleLine (active : List String) (rule : Rule) : String :=
  "- " ++ rule.id ++ " (" ++ rule.category.label ++ ", weight " ++ rule.weight.general ++ ") [" ++
    (if active.contains rule.id then "enabled" else "disabled") ++ "] - " ++ rule.description

/-- Lists the rules. -/
def rules (ρ : Rounding) (w : Workspace) (o : ListingOptions) : Except CommandError Completed := do
  let format ← formatNamed o.format
  let c ← loadConfig ρ w o.repository o.configFile
  let registry ← (Registry.ofLimits ρ c.limits).mapError fun _ => .unprintable
  let active ← activeRules ρ c
  let all := registry.toList
  match format with
  | .json =>
    return w.print (Json.render (.table
      [("rules", .list (all.map (ruleValue active))),
        ("meta", .table [("config_source", .orNull .text c.source)])]))
  | .text => return w.print ("\n".intercalate ("Available rules:" :: all.map (ruleLine active)))

/-- The lines that show a configuration. -/
def configLines (c : Config) (weights : Weights) (active : List String) : List String :=
  let shown : Fields :=
    [("fail_under", .orNull .number c.failUnder), ("include", .ofTexts c.included),
      ("exclude", .ofTexts c.excluded),
     ("weights", weights.toValue), ("rules.enable", .orNull .ofTexts c.enabled),
       ("rules.disable", .ofTexts c.disabled),
     ("report", c.bounds.toValue), ("evaluation", c.evaluationValue), ("limits", c.limits.toValue),
     ("active_rule_ids", .ofTexts active)]
  ["Resolved configuration:", "- source: " ++ c.source.getD "defaults",
    "- format: " ++ c.format.name] ++ shown.map fun (name, v) => "- " ++ name ++ ": " ++ v.display

/-- Shows the configuration. -/
def config (ρ : Rounding) (w : Workspace) (o : ListingOptions) : Except CommandError Completed := do
  let format ← formatNamed o.format
  let c ← loadConfig ρ w o.repository o.configFile
  let weights ← (Weights.resolve ρ c.weights).mapError fun e => .badValue (some "config") e.message
  let document ← (c.toValue ρ).mapError fun e => .badValue (some "config") e.message
  let active ← activeRules ρ c
  -- the integers are written last, after everything else was checked
  if !(isPrintable c.bounds.most && c.workers.all isPrintable) then throw .unprintable
  match format with
  | .json =>
      return w.print
        (Json.render (.table (document.fields ++ [("active_rule_ids", .ofTexts active)])))
  | .text => return w.print ("\n".intercalate (configLines c weights active))

/-- Checks a configuration file. -/
def validate (ρ : Rounding) (w : Workspace) (o : ListingOptions) :
    Except CommandError Completed := do
  let format ← formatNamed o.format
  let c ← loadConfig ρ w o.repository o.configFile
  let active ← activeRules ρ c
  match format with
  | .json =>
    return w.print (Json.render (.table
      [("ok", .bool true), ("source", .orNull .text c.source),
        ("active_rule_ids", .ofTexts active)]))
  | .text =>
    return w.print ("\n".intercalate
      ["Config is valid.", "- source: " ++ c.source.getD "None",
       "- active_rule_ids: " ++ (Value.ofTexts active).display])

/-- Writes a configuration file to start from. A file that is there is kept unless it may be
overwritten. -/
def writeStarter (w : Workspace) (o : StarterOptions) : Except CommandError Completed := do
  let place := w.files.resolve o.target
  let path := FileTree.textOf place
  let isThere ← (w.files.has (.ofPlace place)).mapError .access
  if isThere && !o.overwrite then
    throw
      (.badValue none ("Refusing to overwrite existing file: " ++ path ++
      ". Use --force to overwrite."))
  let files ← (w.files.makeDirectory place.dropLast).mapError .access
  let files ← (files.write place (Text.encode Config.starter)).mapError .access
  return { output := "Wrote starter config: " ++ path ++ "\n", files }

/-! ## Commands -/

/-- A short explanation of the program. -/
def usage : String :=
  "Usage: style-rubric [--version] [--verbose] " ++
    "score|facts|rules|config|config-init|config-validate [OPTIONS] [PATH]"

/-- Does what a command line asks for. -/
def Invocation.run (ρ : Rounding) (w : Workspace) : Invocation → Except CommandError Completed
  | help => .ok (w.print usage)
  | version => .ok (w.print Scorecard.version)
  | completion => .ok { output := "", files := w.files }
  | score o => Command.score ρ w o
  | facts o => Command.facts ρ w o
  | rules o => Command.rules ρ w o
  | config o => Command.config ρ w o
  | writeStarter o => Command.writeStarter w o
  | validate o => Command.validate ρ w o

/-- Runs a command line. -/
def runWords (ρ : Rounding) (w : Workspace) (words : List String) :
    Except CommandError Completed := do
  let invocation ← (Invocation.ofWords words).mapError .usage
  invocation.run ρ w

/-- The exit status of a command line. -/
def exitStatus (result : Except CommandError Completed) : Nat :=
  match result with
  | .ok done => done.status
  | .error e => e.status

end Scorecard.Command
