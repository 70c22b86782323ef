import Scorecard.Codebase.FileTree
import Scorecard.Fact.Document
import Scorecard.Value.Json

set_option autoImplicit false

/-! # Facts files

A facts document in a JSON file.
-/

namespace Scorecard

/-- Why a facts file is refused. -/
inductive FactsFileError where
  | access (e : AccessError)
  | notText (e : Text.Utf8Error)
  | malformed (path : String)
  | tooManyDigits (count : Nat)
  | notTable (path : String)
  | document (e : DocumentError)
deriving DecidableEq, Repr

def FactsFileError.message : FactsFileError → String
  | access e => e.message
  | notText e => e.message
  | malformed path => "Invalid facts JSON in " ++ path
  | tooManyDigits count => digitLimitMessage count
  | notTable path => "Facts document " ++ path ++ " must be a JSON object"
  | document e => e.message

/-- The text of a file. -/
def factsText (t : FileTree) (path : Path) : Except FactsFileError String := do
  let bytes ← (t.read path).mapError .access
  let cs ← (Text.decode bytes).mapError .notText
  return String.ofList (Text.normalizeNewlines cs)

/-- Reads the facts document in the text of a file. -/
def FactModel.ofText (path : Path) (text : String) : Except FactsFileError FactModel :=
  match Json.parse text with
  | .ok (.table fields) => (FactModel.ofFields fields).mapError .document
  | .ok _ => .error (.notTable path.text)
  | .error .malformed => .error (.malformed path.text)
  | .error (.tooManyDigits count) => .error (.tooManyDigits count)

/-- Reads the facts document of a file. -/
def FactModel.load (t : FileTree) (path : Path) : Except FactsFileError FactModel := do
  let text ← factsText t path
  FactModel.ofText path text

end Scorecard
