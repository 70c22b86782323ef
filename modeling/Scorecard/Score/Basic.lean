import Scorecard.Rule.Registry

set_option autoImplicit false

/-! # Category scores

A category is scored by running its active rules one by one. A rule that fails, or whose result
makes no sense, counts as a score of zero with a finding that says so, and the other rules are not
affected. The score is ten times the mean of the scores of the rules that apply, weighted by their
weights; if none applies, the category complies vacuously. Two faults of a rule are not contained in
this way: one of which no message can be made, and a score of another type that is taken for a
number.
-/

namespace Scorecard

/-- What a rule contributed to the score of its category. -/
structure Outcome where
  ruleId : String
  weight : Number
  score : Number
  applicable : Bool
  failed : Bool := false
deriving DecidableEq, Repr

/-- The score of a category, from zero to ten, with its findings. -/
structure CategoryScore where
  category : Category
  rawScore : Number
  findings : List Finding := []
  outcomes : List Outcome := []
  vacuous : Bool := false
deriving DecidableEq, Repr

namespace CategoryScore

/-- The raw score is from zero to ten. -/
def InRange (s : CategoryScore) : Prop :=
  Number.le (.finite 0) s.rawScore ∧ s.rawScore.le (.finite 10)

instance (s : CategoryScore) : Decidable s.InRange := by
  unfold InRange
  infer_instance

/-- The message for a score out of range. -/
def rangeMessage (s : CategoryScore) : String :=
  "Category score for '" ++ s.category.slug ++ "' must be within [0, 10], got " ++ s.rawScore.text

/-- The score as it is reported, rounded to one decimal. -/
def score (ρ : Rounding) (s : CategoryScore) : Number := s.rawScore.roundTenth ρ

end CategoryScore

/-- Why a category has no score. -/
inductive ScoreError where
  | noWeight
  | outOfRange (s : CategoryScore)
  /-- A fault of a rule is not contained. -/
  | raised (f : Fault)
deriving DecidableEq, Repr

def ScoreError.message : ScoreError → String
  | noWeight => "float division by zero"
  | outOfRange s => s.rangeMessage
  | raised f => f.text

/-- The score, if it is in range. -/
def CategoryScore.check (s : CategoryScore) : Except ScoreError CategoryScore :=
  if s.InRange then .ok s else .error (.outOfRange s)

/-! ## Running a rule -/

/-- The message for a finding outside the code base. -/
def outsideMessage (l : Location) : String := orDigitMessage do
  return "finding location " ++ (← l.text) ++ " is outside the codebase"

/-- What is wrong with a result, if anything is: its score has to be finite, and its findings have
to lie in the code base. -/
def resultFault (m : FactModel) (r : RuleResult) : Option Fault :=
  if !r.score.isFinite then
    some ⟨"ValueError", "score " ++ r.score.text ++ " is not a finite number"⟩
  else
    match r.findings.find? fun f => !m.contains f.location with
    | some f => some ⟨"ValueError", outsideMessage f.location⟩
    | none => none

/-- The result, or what is wrong with it. -/
def RuleResult.check (m : FactModel) (r : RuleResult) : Except Fault RuleResult :=
  match resultFault m r with
  | some f => .error f
  | none => .ok r

/-- The result of a rule, or why it has none. -/
def Rule.judge (rule : Rule) (m : FactModel) : Except Fault RuleResult :=
  match rule.evaluate m with
  | .raised f | .escaping f => .error f
  | .malformed typeName => .error ⟨"TypeError", "expected RuleResult, got " ++ typeName⟩
  | .result r | .unweighable r _ => r.check m

/-- The fault that leaves the evaluation of a category while the rule is run. -/
def Rule.escape? (rule : Rule) (m : FactModel) : Option Fault :=
  match rule.evaluate m with
  | .escaping f => some f
  | _ => none

/-- The fault that leaves the evaluation of a category when the score of the rule is weighed. Only
the score of a rule that applies is. -/
def Rule.misfit? (rule : Rule) (m : FactModel) : Option Fault :=
  match rule.evaluate m with
  | .unweighable r f => if r.applicable && (resultFault m r).isNone then some f else none
  | _ => none

/-- The finding for a rule that failed. -/
def failureFinding (id : String) (f : Fault) : Finding :=
  { ruleId := id
    kind := "rule_error:" ++ id
    message := "Rule '" ++ id ++ "' failed: " ++ f.kind ++ ": " ++ f.text
    location := .codebase
    suggestion := "Check the facts consumed by rule '" ++ id ++ "' or disable it." }

/-- An outcome with the findings that count. -/
structure RuleRun where
  outcome : Outcome
  findings : List Finding
deriving DecidableEq, Repr

/-- Runs a rule. The score of a rule that applies is moved into the range from zero to one, and the
findings of a rule that does not apply are dropped. -/
def Rule.run (rule : Rule) (m : FactModel) : RuleRun :=
  match rule.judge m with
  | .ok r =>
    if r.applicable then
      ⟨{ ruleId := rule.id, weight := rule.weight
         score := r.score.clamp (.finite 0) (.finite 1), applicable := true },
       r.findings⟩
    else
      -- this score counts for nothing, so it stays as it is
      ⟨{ ruleId := rule.id, weight := rule.weight, score := r.score, applicable := false }, []⟩
  | .error f =>
    ⟨{ ruleId := rule.id, weight := rule.weight
       score := .finite 0, applicable := true, failed := true },
     [failureFinding rule.id f]⟩

/-! ## Scoring a category -/

/-- The mean of the scores of some outcomes, weighted by their weights. Outcomes without any weight
have none. -/
def weightedMean (ρ : Rounding) (outcomes : List Outcome) : Except ScoreError Number :=
  let total := Number.sum ρ (outcomes.map (·.weight))
  if total.isZero then .error .noWeight
  else .ok (Number.div ρ (Number.sum ρ (outcomes.map fun o => Number.mul ρ o.weight o.score)) total)

/-- The note on a category to which no rule applies. -/
def vacuousFinding (c : Category) : Finding :=
  { ruleId := "vacuous"
    kind := "vacuous"
    message := "No applicable rules or facts for " ++ c.label ++ "; scored as vacuously compliant."
    location := .codebase }

/-- The score of a category from the runs of its rules. -/
def scoreOfRuns (ρ : Rounding) (c : Category) (runs : List RuleRun) :
    Except ScoreError CategoryScore :=
  let outcomes := runs.map (·.outcome)
  let applicable := outcomes.filter (·.applicable)
  if applicable.isEmpty then
    CategoryScore.check
      { category := c, rawScore := .finite 10
        findings := runs.flatMap (·.findings) ++ [vacuousFinding c], outcomes
        vacuous := true }
  else
    match weightedMean ρ applicable with
    | .error e => .error e
    | .ok mean =>
      CategoryScore.check
        { category := c, rawScore := Number.mul ρ (.finite 10) (mean.clamp (.finite 0) (.finite 1))
          findings := runs.flatMap (·.findings), outcomes }

/-- The active rules of a category. -/
def Registry.activeRules (r : Registry) (active : Option (List String)) (c : Category) :
    List Rule :=
  (r.rulesFor c).filter (isActive active)

/-- The score of a category. All rules are run before any score is weighed. -/
def evaluate (ρ : Rounding) (m : FactModel) (r : Registry) (active : Option (List String))
    (c : Category) : Except ScoreError CategoryScore :=
  let rules := r.activeRules active c
  match rules.findSome? (·.escape? m) <|> rules.findSome? (·.misfit? m) with
  | some f => .error (.raised f)
  | none => scoreOfRuns ρ c (rules.map (·.run m))

end Scorecard
