import Scorecard.Fact.Model

set_option autoImplicit false

/-! # Facts documents

The document form of a fact model: a table with the root, the files and the facts.
`FactModel.ofFields` reads such a table and `FactModel.toValue` writes it. A field that is missing
has a default, except the kind, the file and the value of a fact.
-/

namespace Scorecard

/-- Why a facts document is refused. Facts are counted from zero. -/
inductive DocumentError where
  | noFacts
  | badFiles
  | badRoot
  | notTable (index : Nat)
  | noNames (index : Nat)
  | badLines (index : Nat)
  | badSubject (index : Nat)
  | noValue (index : Nat)
  | fact (e : FactError)
deriving DecidableEq, Repr

def DocumentError.message : DocumentError → String
  | noFacts => "facts document must contain a 'facts' list"
  | badFiles => "facts document 'files' must be a list of strings"
  | badRoot => "facts document 'root' must be a string"
  | notTable i => "facts[" ++ Nat.repr i ++ "] must be an object"
  | noNames i => "facts[" ++ Nat.repr i ++ "] requires string 'kind' and 'file'"
  | badLines i => "facts[" ++ Nat.repr i ++ "] line numbers must be integers"
  | badSubject i => "facts[" ++ Nat.repr i ++ "].subject must be a string"
  | noValue i => "facts[" ++ Nat.repr i ++ "] is missing 'value'"
  | fact e => e.message

/-- The line in a document value. -/
def LineNumber.ofValue? : Value → Option LineNumber
  | .int n => some (.int n)
  | .bool b => some (.flag b)
  | _ => none

def LineNumber.toValue : LineNumber → Value
  | int n => .int n
  | flag b => .bool b

/-- The texts of a list, if it holds nothing else. -/
def Value.texts? : List Value → Option (List String)
  | [] => some []
  | .text s :: rest => (texts? rest).map (s :: ·)
  | _ :: _ => none

namespace Fact

/-- Reads the fact `index` of a document. -/
def ofFields (index : Nat) (fields : Fields) : Except DocumentError Fact := do
  match fields.get? "kind", fields.get? "file" with
  | some (.text kind), some (.text file) =>
    let first := (fields.get? "start_line").getD (.int 0)
    let last := (fields.get? "end_line").getD first
    match LineNumber.ofValue? first, LineNumber.ofValue? last with
    | some start, some stop =>
      match (fields.get? "subject").getD (.text "") with
      | .text subject =>
        match fields.get? "value" with
        | some value => (make kind ⟨file, start, stop⟩ value subject).mapError .fact
        | none => throw (.noValue index)
      | _ => throw (.badSubject index)
    | _, _ => throw (.badLines index)
  | _, _ => throw (.noNames index)

/-- The document form of a fact. -/
def toValue (f : Fact) : Value :=
  .table
    [("kind", .text f.kind), ("file", .text f.location.file),
      ("start_line", f.location.start.toValue),
     ("end_line", f.location.stop.toValue), ("value", f.value.toValue),
       ("subject", .text f.subject)]

/-- Reads the facts of a document from the one at `index` on. -/
def ofValues (index : Nat) : List Value → Except DocumentError (List Fact)
  | [] => .ok []
  | .table fields :: rest => do
    let f ← ofFields index fields
    let more ← ofValues (index + 1) rest
    return f :: more
  | _ :: _ => throw (.notTable index)

end Fact

namespace FactModel

/-- Reads the files of a document; they may be missing or `null`. -/
def readFiles : Option Value → Except DocumentError (List String)
  | none | some .null => .ok []
  | some (.list items) =>
    match Value.texts? items with
    | some files => .ok files
    | none => .error .badFiles
  | some _ => .error .badFiles

/-- Reads a facts document. -/
def ofFields (fields : Fields) : Except DocumentError FactModel := do
  match fields.get? "facts" with
  | some (.list items) =>
    let files ← readFiles (fields.get? "files")
    match (fields.get? "root").getD (.text wholeCodebase) with
    | .text root =>
      let facts ← Fact.ofValues 0 items
      return build facts files root
    | _ => throw .badRoot
  | _ => throw .noFacts

/-- The document form of a model. -/
def toValue (m : FactModel) : Value :=
  .table
    [("root", .text m.root), ("files", .list (m.files.map .text)),
      ("facts", .list (m.facts.map Fact.toValue))]

end FactModel

end Scorecard
