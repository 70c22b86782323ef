import Scorecard.Config.Basic
import Scorecard.Score.Pool

set_option autoImplicit false

/-! # Running an evaluation

From a fact model and a configuration to a report. What is wrong with the configuration is found
before any rule runs. How long the rules take is not a matter of their results, so how the waiting
for them goes is an input (`Wait`).
-/

namespace Scorecard

/-- Why a run gives no report. -/
inductive RunError where
  /-- A limit has more digits than can be written in the texts of the rules. -/
  | unprintable
  | weights (e : WeightError)
  | unknownRules (ids : List String)
  | noWorkers
  | timeout (budget : Option Number) (unfinished : List Category)
  /-- The time budget is longer than can be waited for. -/
  | unwaitable
  | score (e : ScoreError)
  | report (e : ReportError)
deriving DecidableEq, Repr

def RunError.message : RunError → String
  | unprintable => DigitError.tooManyDigits.message
  | weights e => e.message
  | unknownRules ids => Registry.unknownMessage ids
  | noWorkers => "max_workers must be greater than 0"
  | timeout budget left => timeoutMessage ((budget.map (·.text)).getD "None") left
  | unwaitable => "timestamp out of range for platform time_t"
  | score e => e.message
  | report e => e.message

/-! ## Waiting -/

/-- How the waiting for the tasks of an evaluation goes. -/
inductive Wait where
  /-- All tasks end before the time is up. -/
  | complete
  /-- The time is up, and these tasks are unfinished. -/
  | expired (unfinished : List Category)
  /-- Some tasks have not ended when the waiting begins, and the time is longer than can be waited
  for. -/
  | refused
deriving DecidableEq, Repr

/-- Times in seconds from here on cannot be waited for: they have no count of nanoseconds in 63
bits. -/
def longestWait : Number := .finite (9223372036854775808 / 1000000000)

/-- Why the waiting fails, if it does. Without a budget it goes on until all tasks have ended. -/
def Wait.error? : Wait → Option Number → Option RunError
  | expired (c :: rest), some budget => some (.timeout (some budget) (c :: rest))
  | refused, some budget => if longestWait.le budget then some .unwaitable else none
  | _, _ => none

/-! ## Runs -/

/-- Scores the categories and combines their scores. -/
def runRules (ρ : Rounding) (m : FactModel) (c : Config) (r : Registry) (weights : Weights)
    (active : List String) : Except RunError Report :=
  match evaluateAll ρ m r (some active) c.workers with
  | .error .noWorkers => .error .noWorkers
  | .error (.timeout left) => .error (.timeout c.budget left)
  | .error (.score e) => .error (.score e)
  | .ok scores => (aggregate ρ scores weights c.bounds).mapError .report

/-- Runs the rules of a registry on a fact model under a configuration. -/
def runWith (ρ : Rounding) (m : FactModel) (c : Config) (r : Registry) (wait : Wait) :
    Except RunError Report :=
  match Weights.resolve ρ c.weights with
  | .error e => .error (.weights e)
  | .ok weights =>
    match r.select c.enabled c.disabled with
    | .error ids => .error (.unknownRules ids)
    | .ok active =>
      -- the waiting is over before any result is looked at
      match wait.error? c.budget with
      | some e => .error e
      | none => runRules ρ m c r weights active

/-- Runs the built-in rules. -/
def run (ρ : Rounding) (m : FactModel) (c : Config) (wait : Wait) : Except RunError Report :=
  match Registry.ofLimits ρ c.limits with
  | .error .tooManyDigits => .error .unprintable
  | .ok r => runWith ρ m c r wait

end Scorecard
