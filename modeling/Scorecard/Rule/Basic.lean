import Scorecard.Category
import Scorecard.Fact.Model
import Scorecard.Text.Quoted

set_option autoImplicit false

/-! # Rules

A rule looks at a fact model and gives a score between zero and one with findings that explain what
is missing. It may not apply to a code base at all. A rule comes from anywhere, so it may also fail,
or answer with something that is not a result; its verdict keeps these cases apart.
-/

namespace Scorecard

/-- What went wrong in a rule: the kind of the error and its message. -/
structure Fault where
  kind : String
  message : String
deriving DecidableEq, Repr

/-- The message of a fault as it is shown. The error for a missing key shows the key in quotes. -/
def Fault.text (f : Fault) : String :=
  if f.kind = "KeyError" then Text.quoted f.message else f.message

/-- An explanation of a less than perfect score. Findings of one kind are about the same thing. -/
structure Finding where
  ruleId : String
  kind : String
  message : String
  location : Location
  suggestion : String := ""
deriving DecidableEq, Repr

/-- The result of a rule. -/
structure RuleResult where
  score : Number
  findings : List Finding := []
  applicable : Bool := true
deriving DecidableEq, Repr

/-- The result of a rule that says nothing about a code base. -/
def RuleResult.notApplicable : RuleResult := { score := .finite 1, applicable := false }

/-- What comes out of a rule. -/
inductive Verdict where
  | result (r : RuleResult)
  /-- Something that is not a result. -/
  | malformed (typeName : String)
  /-- A fault, in the rule or in looking at what it gives. -/
  | raised (f : Fault)
  /-- What raises the fault `f` when it is handled: a fault of which no message can be made, or a
  score of another type that cannot be moved into the range from zero to one. -/
  | escaping (f : Fault)
  /-- A result with a score of another type. It passes for the number in `r`, but to multiply it
  raises the fault `f`. -/
  | unweighable (r : RuleResult) (f : Fault)
deriving DecidableEq, Repr

/-- A rule with its place in a category. A rule that `stalls` does not come to an end within any
time budget. -/
structure Rule where
  id : String
  category : Category
  weight : Number
  description : String
  evaluate : FactModel → Verdict
  stalls : Bool := false

/-- A rule from a function that gives a result or fails. -/
def Rule.of (id : String) (category : Category) (weight : Number) (description : String)
    (judge : FactModel → Except Fault RuleResult) : Rule :=
  { id, category, weight, description
    evaluate := fun m =>
      match judge m with
      | .ok r => .result r
      | .error f => .raised f }

end Scorecard
