import Scorecard.Number.Decimal

set_option autoImplicit false

/-! # Locations

A location is a file and a range of its lines. Line `0` stands for the whole file, and the file `.`
for the whole code base. Facts documents may give a line as a truth value, which counts as zero or
one and stays what it is when it is written again. A line with too many digits cannot be written,
and then neither can a text that quotes it.
-/

namespace Scorecard

/-- A line as a document gives it. -/
inductive LineNumber where
  | int (n : Int)
  | flag (b : Bool)
deriving DecidableEq, Repr

namespace LineNumber

/-- The number of the line. -/
def value : LineNumber → Int
  | int n => n
  | flag b => if b then 1 else 0

/-- The line as it is written in messages. -/
def text : LineNumber → Except DigitError String
  | int n => writtenInt n
  | flag b => .ok (if b then "True" else "False")

end LineNumber

/-- The file that stands for the whole code base. -/
def wholeCodebase : String := "."

/-- A file and an inclusive range of lines. -/
structure Location where
  file : String
  start : LineNumber
  stop : LineNumber
deriving DecidableEq, Repr

/-- Why a location is refused. -/
inductive LocationError where
  | emptyFile
  | invalidRange (start stop : LineNumber) (file : String)
deriving DecidableEq, Repr

/-- A message that cannot be written gives way to the reason for that. -/
def orDigitMessage : Except DigitError String → String
  | .ok message => message
  | .error e => e.message

def LocationError.message : LocationError → String
  | emptyFile => "location file must not be empty"
  | invalidRange start stop file => orDigitMessage do
    return "invalid line range " ++ (← start.text) ++ "-" ++ (← stop.text) ++ " for " ++ file

namespace Location

/-- A location has a file, and its lines are a range that starts at zero or later. -/
def Valid (l : Location) : Prop := l.file ≠ "" ∧ 0 ≤ l.start.value ∧ l.start.value ≤ l.stop.value

instance (l : Location) : Decidable l.Valid := by
  unfold Valid
  infer_instance

/-- The location, if it is valid. The file is looked at before the lines. -/
def check (l : Location) : Except LocationError Location :=
  if l.file = "" then .error .emptyFile
  else if l.start.value < 0 ∨ l.stop.value < l.start.value then
    .error (.invalidRange l.start l.stop l.file)
  else .ok l

/-- The whole of a file. -/
def ofFile (file : String) : Location := ⟨file, .int 0, .int 0⟩

/-- The lines of a file from `start` to `stop`. -/
def ofLines (file : String) (start stop : Nat) : Location := ⟨file, .int start, .int stop⟩

/-- The whole code base. -/
def codebase : Location := ofFile wholeCodebase

/-- The location as it is written in messages. Lines that are not named need not be written. -/
def text (l : Location) : Except DigitError String :=
  if l.start.value = 0 then .ok l.file
  else do
    let start ← l.start.text
    if l.stop.value = l.start.value then return l.file ++ ":" ++ start
    else return l.file ++ ":" ++ start ++ "-" ++ (← l.stop.text)

end Location

end Scorecard
