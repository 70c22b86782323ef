import Scorecard.Number.Decimal

set_option autoImplicit false

/-! # Document values

A facts document and a configuration file are made of values: `null`, booleans, integers of any
size, numbers, texts, dates and times, lists, and tables. A table keeps its fields in the order in
which their names first appear.
-/

namespace Scorecard

/-- A value of a document. A date or time is kept as it was written. -/
inductive Value where
  | null
  | bool (b : Bool)
  | int (n : Int)
  | number (x : Number)
  | text (s : String)
  | moment (written : String)
  | list (items : List Value)
  | table (fields : List (String × Value))

/-- Named fields in order. -/
abbrev Fields := List (String × Value)

namespace Fields

/-- The value of a field. -/
def get? (fields : Fields) (name : String) : Option Value := fields.lookup name

/-- Sets a field: a field that is present keeps its place, a new one goes to the end. -/
def set (fields : Fields) (name : String) (value : Value) : Fields :=
  match fields with
  | [] => [(name, value)]
  | (n, v) :: rest => if n = name then (n, value) :: rest else (n, v) :: set rest name value

end Fields

namespace Value

instance : Inhabited Value := ⟨.null⟩

/-- The fields of a table; other values have none. -/
def fields : Value → Fields
  | table fs => fs
  | _ => []

/-- The text that a value is. -/
def text? : Value → Option String
  | text s => some s
  | _ => none

/-- The word for the type of a value in messages. -/
def typeName : Value → String
  | null => "NoneType"
  | bool _ => "bool"
  | int _ => "int"
  | number _ => "float"
  | text _ => "str"
  | moment _ => "datetime"
  | list _ => "list"
  | table _ => "dict"

/-- The field of a table. -/
def get? (v : Value) (name : String) : Option Value := v.fields.get? name

mutual

/-- Whether a value can be written: every integer in it has few enough digits. -/
def canBeWritten : Value → Bool
  | int n => isPrintable n
  | list items => allCanBeWritten items
  | table fields => fieldsCanBeWritten fields
  | _ => true

def allCanBeWritten : List Value → Bool
  | [] => true
  | v :: rest => v.canBeWritten && allCanBeWritten rest

def fieldsCanBeWritten : List (String × Value) → Bool
  | [] => true
  | (_, v) :: rest => v.canBeWritten && fieldsCanBeWritten rest

end

end Value

/-! ## Reading documents -/

/-- Why a text is not read as a document. -/
inductive ReadError where
  /-- The text does not follow the grammar. -/
  | malformed
  /-- An integer has more digits than are converted. -/
  | tooManyDigits (count : Nat)
deriving DecidableEq, Repr

end Scorecard
