import Scorecard.Category
import Scorecard.Number.Decimal

set_option autoImplicit false

/-! # Category weights

Every category has the same weight unless it is overridden. The ten weights have to be finite, not
negative, and add up to one.
-/

namespace Scorecard

/-- Weights of categories, in order. -/
abbrev Weights := List (Category × Number)

/-- Why weights are refused. -/
inductive WeightError where
  | notFinite (category : Category) (weight : Number)
  | negative (category : Category) (weight : Number)
  | badSum (total : Number) (weights : Weights)
deriving DecidableEq, Repr

def WeightError.message : WeightError → String
  | notFinite c w =>
      "Category weight for '" ++ c.slug ++ "' must be a finite number, got " ++ w.text ++ "."
  | negative c w =>
      "Category weight for '" ++ c.slug ++ "' must be non-negative, got " ++ w.text ++ "."
  | badSum total ws =>
    let detail := ", ".intercalate (ws.map fun (c, w) => c.slug ++ "=" ++ w.general)
    "Category weights must sum to 1.0, got " ++ total.fixed 6 ++ " (" ++ detail ++ ")."

/-- The weight of a category that is not overridden. -/
def defaultWeight : Number := .ofDecimal false 1 (-1)

/-- How far the sum of the category weights may be from one. -/
def categoryWeightTolerance : Number := .ofDecimal false 1 (-6)

namespace Weights

/-- Sets the weight of a category: a category that is present keeps its place. -/
def set (ws : Weights) (c : Category) (w : Number) : Weights :=
  match ws with
  | [] => [(c, w)]
  | (d, v) :: rest => if d = c then (d, w) :: rest else (d, v) :: set rest c w

/-- The weight of a category; one without a weight counts nothing. -/
def weightOf (ws : Weights) (c : Category) : Number := (ws.lookup c).getD (.finite 0)

/-- The ten weights without an override. -/
def defaults : Weights := Category.all.map fun c => (c, defaultWeight)

/-- The ten weights with the overrides in place, which are put there one after the other. -/
def withDefaults (overrides : Weights) : Weights :=
  overrides.foldl (fun ws entry => ws.set entry.1 entry.2) defaults

/-- What is wrong with the first override that is wrong. -/
def overrideError? : Weights → Option WeightError
  | [] => none
  | (c, w) :: rest =>
    if !w.isFinite then some (.notFinite c w)
    else if w.lt (.finite 0) then some (.negative c w)
    else overrideError? rest

/-- The sum of weights. -/
def total (ρ : Rounding) (ws : Weights) : Number := Number.sum ρ (ws.map (·.2))

/-- The ten weights, if the overrides are in order and the weights add up to one. -/
def resolve (ρ : Rounding) (overrides : Weights) : Except WeightError Weights :=
  match overrideError? overrides with
  | some e => .error e
  | none =>
    let ws := withDefaults overrides
    if Number.lt categoryWeightTolerance (Number.sub ρ (ws.total ρ) (.finite 1)).abs then
      .error (.badSum (ws.total ρ) ws)
    else .ok ws

end Weights

end Scorecard
