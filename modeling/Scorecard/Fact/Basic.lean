import Scorecard.Fact.Location
import Scorecard.Value.Basic

set_option autoImplicit false

/-! # Facts

A fact is an atomic observation about a code base: its kind, where it was made, a value, and the
subject it speaks of. The value is a truth value, an integer, a number or a text. Rules read it as a
number or as a label.
-/

namespace Scorecard

/-- The value of a fact. -/
inductive FactValue where
  | bool (b : Bool)
  | int (n : Int)
  | number (x : Number)
  | text (s : String)
deriving DecidableEq, Repr

namespace FactValue

/-- The fact value in a document value, if it is one. -/
def ofValue? : Value → Option FactValue
  | .bool b => some (.bool b)
  | .int n => some (.int n)
  | .number x => some (.number x)
  | .text s => some (.text s)
  | _ => none

def toValue : FactValue → Value
  | bool b => .bool b
  | int n => .int n
  | number x => .number x
  | text s => .text s

/-- The value as it is written in messages. -/
def label : FactValue → String
  | bool b => if b then "True" else "False"
  | int n => Int.repr n
  | number x => x.text
  | text s => s

end FactValue

/-- An observation about a code base. -/
structure Fact where
  kind : String
  location : Location
  value : FactValue
  subject : String := ""
deriving DecidableEq, Repr

/-- Why a fact is refused. -/
inductive FactError where
  | location (e : LocationError)
  | emptyKind
  | unsupportedValue (kind : String) (location : Location) (typeName : String)
deriving DecidableEq, Repr

def FactError.message : FactError → String
  | location e => e.message
  | emptyKind => "fact kind must not be empty"
  | unsupportedValue kind l typeName => orDigitMessage do
    return "fact '" ++ kind ++ "' at " ++ (← l.text) ++ " has unsupported value type " ++ typeName

/-- Why a fact has no number. -/
inductive NumberError where
  | label (kind : String) (location : Location)
  | tooLarge
deriving DecidableEq, Repr

def NumberError.message : NumberError → String
  | label kind l => orDigitMessage do
    return "fact '" ++ kind ++ "' at " ++ (← l.text) ++ " holds a label, not a number"
  | tooLarge => "int too large to convert to float"

namespace Fact

/-- A fact has a valid location and a kind. -/
def Valid (f : Fact) : Prop := f.location.Valid ∧ f.kind ≠ ""

instance (f : Fact) : Decidable f.Valid := by
  unfold Valid
  infer_instance

/-- The fact with these parts, if they make one. The location is looked at first, the value last. -/
def make (kind : String) (location : Location) (value : Value) (subject : String) :
    Except FactError Fact := do
  let location ← location.check.mapError .location
  if kind = "" then throw .emptyKind
  match FactValue.ofValue? value with
  | some value => return { kind, location, value, subject }
  | none => throw (.unsupportedValue kind location value.typeName)

/-- The fact, if its parts make one. -/
def check (f : Fact) : Except FactError Fact := make f.kind f.location f.value.toValue f.subject

/-- The value of a fact as a number. A label is none, and neither is an integer beyond the range of
numbers. -/
def number (ρ : Rounding) (f : Fact) : Except NumberError Number :=
  match f.value with
  | .bool b => .ok (.finite (if b then 1 else 0))
  | .int n =>
    match Number.ofInt? ρ n with
    | some x => .ok x
    | none => .error .tooLarge
  | .number x => .ok x
  | .text _ => .error (.label f.kind f.location)

/-- The value of a fact as a text. An integer with too many digits has none. -/
def label (f : Fact) : Except DigitError String :=
  if f.value.toValue.canBeWritten then .ok f.value.label else .error .tooManyDigits

/-- Whether the value is the truth value `true`; no other value counts. -/
def isTrue (f : Fact) : Bool := f.value = .bool true

/-- Whether the value is the truth value `false`. -/
def isFalse (f : Fact) : Bool := f.value = .bool false

end Fact

end Scorecard
