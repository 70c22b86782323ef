import Scorecard.Config.Basic

set_option autoImplicit false

/-! # Reading configurations

A configuration is read from the fields of a document. Fields that are missing have their defaults,
fields that are not known are ignored except among the limits, and the first thing that is wrong is
reported. The tables are looked at before anything in them.
-/

namespace Scorecard

/-- Why a configuration is refused. Names of fields are given with the names of their tables. -/
inductive ConfigError where
  | notTable (field : String)
  | badFormat
  | notTexts (field : String)
  | notInteger (field : String)
  | notNumber (field : String)
  | notFinite (field : String) (value : Number)
  | tooLarge
  | unprintable
  | failUnderRange
  | unknownCategory (name : String)
  | weights (e : WeightError)
  | negativeCount
  | badThresholds
  | noWorkers
  | noTime
  | unknownLimits (names : List String)
  | limitRange (name : String)
  | commitRange
deriving DecidableEq, Repr

def ConfigError.message : ConfigError → String
  | notTable field => field ++ " must be a table/object"
  | badFormat => "format must be one of: json, text"
  | notTexts field => field ++ " must be a list of strings"
  | notInteger field => field ++ " must be an integer"
  | notNumber field => field ++ " must be a number"
  | notFinite field value => field ++ " must be a finite number, got " ++ value.text
  | tooLarge => "int too large to convert to float"
  | unprintable => digitLimitMessage none
  | failUnderRange => "fail_under must be between 0 and 10"
  | unknownCategory name => "weights: " ++ Category.unknownMessage name
  | weights e => e.message
  | negativeCount => "report.max_recommendations must be >= 0"
  | badThresholds =>
      "report thresholds must satisfy 0 <= weakness_threshold < strength_threshold <= 10"
  | noWorkers => "evaluation.max_workers must be > 0"
  | noTime => "evaluation.budget_seconds must be > 0"
  | unknownLimits names => "Unknown limits: " ++ ", ".intercalate names
  | limitRange name => "limits." ++ name ++ " must be > 0"
  | commitRange => "limits.min_commit_subject must not exceed limits.max_commit_subject"

/-- Whether a failure is reported as one of the configuration. The others come out of the conversion
of an integer, to a number or to its digits. -/
def ConfigError.isReported : ConfigError → Bool
  | tooLarge | unprintable => false
  | _ => true

/-! ## Values -/

/-- The fields of a table; a missing table has none. -/
def readTable (field : String) : Option Value → Except ConfigError Fields
  | none | some .null => .ok []
  | some (.table fields) => .ok fields
  | some _ => .error (.notTable field)

/-- A list of texts; a missing one is empty. -/
def readTexts (field : String) : Option Value → Except ConfigError (List String)
  | none | some .null => .ok []
  | some (.list items) =>
    match items.mapM Value.text? with
    | some texts => .ok texts
    | none => .error (.notTexts field)
  | some _ => .error (.notTexts field)

/-- A list of texts that may be missing. -/
def readTexts? (field : String) : Option Value → Except ConfigError (Option (List String))
  | none | some .null => .ok none
  | v => some <$> readTexts field v

def readInteger (field : String) : Value → Except ConfigError Int
  | .int n => .ok n
  | _ => .error (.notInteger field)

/-- A finite number. An integer is converted, which fails beyond the range of numbers. -/
def readNumber (ρ : Rounding) (field : String) : Value → Except ConfigError Number
  | .int n =>
    match Number.ofInt? ρ n with
    | some x => .ok x
    | none => .error .tooLarge
  | .number x => if x.isFinite then .ok x else .error (.notFinite field x)
  | _ => .error (.notNumber field)

/-- The number of a field that may be missing. -/
def readNumber? (ρ : Rounding) (field : String) : Option Value → Except ConfigError (Option Number)
  | none | some .null => .ok none
  | some v => some <$> readNumber ρ field v

/-! ## Parts -/

/-- The format; the case of its letters does not count. -/
def readFormat (v : Option Value) : Except ConfigError Format :=
  match v with
  | none => .ok .text
  | some (.text s) =>
    match Format.ofName? (Text.lower s) with
    | some f => .ok f
    | none => .error .badFormat
  | some v =>
    -- the value is written out before it is compared, and no other value is written like a format
    if v.canBeWritten then .error .badFormat else .error .unprintable

def readFailUnder (ρ : Rounding) (v : Option Value) : Except ConfigError (Option Number) := do
  match ← readNumber? ρ "fail_under" v with
  | none => return none
  | some x =>
    if Number.le (.finite 0) x && x.le (.finite 10) then return some x else throw .failUnderRange

/-- The overrides of category weights. Names that mean the same category override one another. -/
def readWeights (ρ : Rounding) (found : Weights) : Fields → Except ConfigError Weights
  | [] => .ok found
  | (name, v) :: rest =>
    match Category.named? name with
    | none => .error (.unknownCategory name)
    | some c => do
      let w ← readNumber ρ ("weights." ++ name) v
      readWeights ρ (found.set c w) rest

def readBounds (ρ : Rounding) (fields : Fields) : Except ConfigError ReportBounds := do
  let most ← readInteger "report.max_recommendations"
    ((fields.get? "max_recommendations").getD (.int 5))
  if most < 0 then throw .negativeCount
  let strength ← readNumber ρ "report.strength_threshold"
    ((fields.get? "strength_threshold").getD (.number (.finite 9)))
  let weakness ← readNumber ρ "report.weakness_threshold"
    ((fields.get? "weakness_threshold").getD (.number (.finite 6)))
  if Number.le (.finite 0) weakness && weakness.lt strength && strength.le (.finite 10) then
    return { most, strength, weakness }
  else throw .badThresholds

def readWorkers : Option Value → Except ConfigError (Option Int)
  | none | some .null => .ok none
  | some v => do
    let n ← readInteger "evaluation.max_workers" v
    if n ≤ 0 then throw .noWorkers else return some n

def readBudget (ρ : Rounding) (v : Option Value) : Except ConfigError (Option Number) := do
  match ← readNumber? ρ "evaluation.budget_seconds" v with
  | none => return none
  | some x => if x.le (.finite 0) then throw .noTime else return some x

/-- Sets limits one by one. -/
def readLimitFields (limits : Limits) : Fields → Except ConfigError Limits
  | [] => .ok limits
  | (name, v) :: rest => do
    let n ← readInteger ("limits." ++ name) v
    if n ≤ 0 then throw (.limitRange name)
    else
      match Limits.field? name with
      | some f => readLimitFields (f.set n limits) rest
      -- names that are not known were refused before
      | none => readLimitFields limits rest

def readLimits (fields : Fields) : Except ConfigError Limits := do
  let unknown := (fields.map (·.1)).filter fun name => (Limits.field? name).isNone
  if !unknown.isEmpty then throw (.unknownLimits (Text.sortedSet unknown))
  let limits ← readLimitFields {} fields
  if limits.mostCommitSubject < limits.leastCommitSubject then throw .commitRange else return limits

/-! ## The whole -/

/-- Reads a configuration. -/
def Config.ofFields (ρ : Rounding) (source : String) (fields : Fields) :
    Except ConfigError Config := do
  let rules ← readTable "rules" (fields.get? "rules")
  let weightFields ← readTable "weights" (fields.get? "weights")
  let report ← readTable "report" (fields.get? "report")
  let evaluation ← readTable "evaluation" (fields.get? "evaluation")
  let limitFields ← readTable "limits" (fields.get? "limits")
  let format ← readFormat (fields.get? "format")
  let failUnder ← readFailUnder ρ (fields.get? "fail_under")
  let weights ← readWeights ρ [] weightFields
  -- what is kept are the overrides, which resolve again when they are used
  discard ((Weights.resolve ρ weights).mapError .weights)
  let included ← readTexts "include" (fields.get? "include")
  let excluded ← readTexts "exclude" (fields.get? "exclude")
  let enabled ← readTexts? "rules.enable" (rules.get? "enable")
  let disabled ← readTexts "rules.disable" (rules.get? "disable")
  let bounds ← readBounds ρ report
  let workers ← readWorkers (evaluation.get? "max_workers")
  let budget ← readBudget ρ (evaluation.get? "budget_seconds")
  let limits ← readLimits limitFields
  return { format, failUnder, included, excluded, weights, enabled, disabled, bounds
           workers, budget, limits, source := some source }

end Scorecard
