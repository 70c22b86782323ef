import Scorecard.Text.Digit
import Scorecard.Text.Quoted

set_option autoImplicit false

/-! # Message templates

A template is a text with fields in braces, which stand for named values; a brace that is text is
doubled. A field may ask for the quoted form of its value with `!r`. A template is read from left to
right, and the first thing that is wrong with it or with one of its fields is reported.
-/

namespace Scorecard.Text

/-- A named value: its plain and its quoted form. -/
structure TemplateField where
  name : String
  plain : String
  quoted : String
deriving DecidableEq, Repr

/-- What is wrong with a template. -/
inductive TemplateError where
  | singleOpen
  | singleClose
  | unclosed
  | openInName
  | noConversion
  | noColon
  | unknownConversion (c : Char)
  | unmatchedSpec
  | noSuchField (name : String)
  | noSuchPosition (index : Nat)
deriving DecidableEq, Repr

def TemplateError.message : TemplateError → String
  | singleOpen => "Single '\x7b' encountered in format string"
  | singleClose => "Single '\x7d' encountered in format string"
  | unclosed => "expected '\x7d' before end of string"
  | openInName => "unexpected '\x7b' in field name"
  | noConversion => "end of string while looking for conversion specifier"
  | noColon => "expected ':' after conversion specifier"
  | unknownConversion c => "Unknown conversion specifier '" ++ c.toString ++ "'"
  | unmatchedSpec => "unmatched '\x7b' in format spec"
  | noSuchField name => name
  | noSuchPosition index =>
    "Replacement index " ++ Nat.repr index ++ " out of range for positional args tuple"

/-- The name of a field, the character that ends it and the text after that. -/
def fieldName (done : List Char) : List Char → Except TemplateError (List Char × Char × List Char)
  | [] => .error .unclosed
  | c :: cs =>
    if c == '\x7b' then .error .openInName
    else if c == '\x7d' || c == ':' || c == '!' then .ok (done.reverse, c, cs)
    else fieldName (c :: done) cs

/-- The text after the format of a field, whose braces are balanced. -/
def afterSpec (depth : Nat) : List Char → Except TemplateError (List Char)
  | [] => .error .unmatchedSpec
  | c :: cs =>
    if c == '\x7b' then afterSpec (depth + 1) cs
    else if c == '\x7d' then
      match depth with
      | 0 => .ok cs
      | depth + 1 => afterSpec depth cs
    else afterSpec depth cs

/-- The value of a field. An empty name or a number asks for a positional value, and there is
none. -/
def fieldValue (fields : List TemplateField) (name : List Char) (conversion : Option Char) :
    Except TemplateError String :=
  match name.mapM digitValue? with
  | some digits => .error (.noSuchPosition (digits.foldl (fun n d => 10 * n + d) 0))
  | none =>
    let key := String.ofList name
    match fields.find? (·.name = key) with
    | none => .error (.noSuchField key)
    | some field =>
      match conversion with
      | none | some 's' => .ok field.plain
      | some 'r' | some 'a' => .ok field.quoted
      | some c => .error (.unknownConversion c)

/-- What a field asks for after the character that ends its name, and the text after the field. -/
def fieldConversion (stop : Char) (cs : List Char) :
    Except TemplateError (Option Char × List Char) :=
  if stop == '!' then
    match cs with
    | [] => .error .noConversion
    | c :: '\x7d' :: rest => .ok (some c, rest)
    | c :: ':' :: rest => (afterSpec 0 rest).map (some c, ·)
    | _ :: _ :: _ => .error .noColon
    | [_] => .error .unmatchedSpec
  else if stop == ':' then (afterSpec 0 cs).map (none, ·)
  else .ok (none, cs)

/-- A field after its opening brace: its value and the text after it. -/
def readField (fields : List TemplateField) (cs : List Char) :
    Except TemplateError (String × List Char) := do
  let (name, stop, rest) ← fieldName [] cs
  let (conversion, rest) ← fieldConversion stop rest
  return (← fieldValue fields name conversion, rest)

/-- The text of a template, at most `fuel` pieces of it. -/
def fillWithin (fields : List TemplateField) : Nat → List Char → Except TemplateError (List Char)
  | _, [] => .ok []
  | 0, _ => .ok []
  | fuel + 1, c :: cs =>
    if c == '\x7d' then
      match cs with
      | '\x7d' :: rest => do return '\x7d' :: (← fillWithin fields fuel rest)
      | _ => .error .singleClose
    else if c == '\x7b' then
      match cs with
      | [] => .error .singleOpen
      | '\x7b' :: rest => do return '\x7b' :: (← fillWithin fields fuel rest)
      | cs => do
        let (value, rest) ← readField fields cs
        return value.toList ++ (← fillWithin fields fuel rest)
    else do return c :: (← fillWithin fields fuel cs)

/-- The text of a template with the values of its fields. -/
def fill (fields : List TemplateField) (template : String) : Except TemplateError String := do
  return String.ofList (← fillWithin fields template.length template.toList)

end Scorecard.Text
