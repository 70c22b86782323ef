import Scorecard.Report.Basic
import Scorecard.Rule.Limits
import Scorecard.Value.Basic

set_option autoImplicit false

/-! # Configurations

A configuration says what is scored and how: which files and rules take part, the weights of the
categories, the bounds of the report, and the limits of the rules.
-/

namespace Scorecard

/-- How a report is printed. -/
inductive Format where
  | text | json
deriving DecidableEq, Repr

def Format.name : Format → String
  | text => "text"
  | json => "json"

/-- The format with a name. -/
def Format.ofName? (name : String) : Option Format :=
  if name = "text" then some .text else if name = "json" then some .json else none

/-- Values that control a run. -/
structure Config where
  format : Format := .text
  failUnder : Option Number := none
  included : List String := []
  excluded : List String := []
  weights : Weights := []
  enabled : Option (List String) := none
  disabled : List String := []
  bounds : ReportBounds := {}
  workers : Option Int := none
  budget : Option Number := none
  limits : Limits := {}
  source : Option String := none
deriving DecidableEq, Repr

/-- A value, or `null`. -/
def Value.orNull {α : Type} (toValue : α → Value) : Option α → Value
  | some a => toValue a
  | none => .null

/-- A list of texts. -/
def Value.ofTexts (items : List String) : Value := .list (items.map .text)

/-- The limits as a document. -/
def Limits.toValue (l : Limits) : Value :=
  .table (Limits.fields.map fun f => (f.name, .int (f.get l)))

/-- The weights as a document. -/
def Weights.toValue (ws : Weights) : Value := .table (ws.map fun (c, w) => (c.slug, .number w))

/-- The bounds of the report as a document. -/
def ReportBounds.toValue (b : ReportBounds) : Value :=
  .table
    [("max_recommendations", .int b.most), ("strength_threshold", .number b.strength),
     ("weakness_threshold", .number b.weakness)]

/-- What controls the evaluation, as a document. -/
def Config.evaluationValue (c : Config) : Value :=
  .table [("max_workers", .orNull .int c.workers), ("budget_seconds", .orNull .number c.budget)]

/-- The fields of a document that shows a configuration with these weights. -/
def Config.shownFields (c : Config) (weights : Weights) : Fields :=
  [("format", .text c.format.name), ("fail_under", .orNull .number c.failUnder),
   ("include", .ofTexts c.included), ("exclude", .ofTexts c.excluded), ("weights", weights.toValue),
   ("rules", .table [("enable", .orNull .ofTexts c.enabled), ("disable", .ofTexts c.disabled)]),
   ("report", c.bounds.toValue), ("evaluation", c.evaluationValue), ("limits", c.limits.toValue),
   ("source", .orNull .text c.source)]

/-- The configuration as a document, with all ten weights. -/
def Config.toValue (ρ : Rounding) (c : Config) : Except WeightError Value := do
  let weights ← Weights.resolve ρ c.weights
  return .table (c.shownFields weights)

end Scorecard
