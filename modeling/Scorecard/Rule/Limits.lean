import Scorecard.Number.Decimal

set_option autoImplicit false

/-! # Limits

The thresholds that the built-in rules measure against.
-/

namespace Scorecard

/-- Thresholds of the built-in rules. -/
structure Limits where
  lineLength : Int := 100
  functionLength : Int := 40
  arguments : Int := 5
  complexity : Int := 10
  loopDepth : Int := 3
  classMethods : Int := 20
  classBases : Int := 2
  moduleLength : Int := 500
  leastCommitSubject : Int := 10
  mostCommitSubject : Int := 72
deriving DecidableEq, Repr

/-- A threshold with its name in documents. -/
structure LimitField where
  name : String
  get : Limits → Int
  set : Int → Limits → Limits

namespace Limits

/-- The thresholds in their order. -/
def fields : List LimitField :=
  [⟨"max_line_length", lineLength, fun n l => { l with lineLength := n }⟩,
   ⟨"max_function_length", functionLength, fun n l => { l with functionLength := n }⟩,
   ⟨"max_arguments", arguments, fun n l => { l with arguments := n }⟩,
   ⟨"max_complexity", complexity, fun n l => { l with complexity := n }⟩,
   ⟨"max_loop_depth", loopDepth, fun n l => { l with loopDepth := n }⟩,
   ⟨"max_class_methods", classMethods, fun n l => { l with classMethods := n }⟩,
   ⟨"max_class_bases", classBases, fun n l => { l with classBases := n }⟩,
   ⟨"max_module_length", moduleLength, fun n l => { l with moduleLength := n }⟩,
   ⟨"min_commit_subject", leastCommitSubject, fun n l => { l with leastCommitSubject := n }⟩,
   ⟨"max_commit_subject", mostCommitSubject, fun n l => { l with mostCommitSubject := n }⟩]

/-- The threshold with a name. -/
def field? (name : String) : Option LimitField := fields.find? (·.name = name)

/-- Whether all thresholds can be written. -/
def arePrintable (l : Limits) : Bool := fields.all fun f => isPrintable (f.get l)

end Limits

end Scorecard
