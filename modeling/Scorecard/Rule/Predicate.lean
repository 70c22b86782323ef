import Scorecard.Rule.Basic
import Scorecard.Text.Blank
import Scorecard.Text.Pattern

set_option autoImplicit false

/-! # Predicates on facts

What the declarative rules ask of a single fact. A numeric predicate fails on a fact without a
number, and a predicate on names fails on a fact without a label.
-/

namespace Scorecard

/-- A condition on a fact, which may fail. -/
abbrev FactPredicate := Fact → Except Fault Bool

/-- A fact without a number is a fault. If its place cannot be written either, that is the fault. -/
def NumberError.fault (e : NumberError) : Fault :=
  { kind := match e with
      | .label _ l => if l.text.isOk then "TypeError" else "ValueError"
      | .tooLarge => "OverflowError"
    message := e.message }

/-- A fact without a label is a fault. -/
def DigitError.fault (e : DigitError) : Fault := { kind := "ValueError", message := e.message }

namespace FactPredicate

/-- The number is within the limit. -/
def atMost (ρ : Rounding) (limit : Number) : FactPredicate := fun f => do
  return (← (f.number ρ).mapError NumberError.fault).le limit

/-- The number reaches the limit. -/
def atLeast (ρ : Rounding) (limit : Number) : FactPredicate := fun f => do
  return limit.le (← (f.number ρ).mapError NumberError.fault)

def isTrue : FactPredicate := fun f => .ok f.isTrue

def isFalse : FactPredicate := fun f => .ok f.isFalse

end FactPredicate

/-! ## Names -/

/-- Whether a text or the text before its last newline satisfies `p`. -/
def holdsOfLine (p : List Char → Bool) (s : String) : Bool :=
  let cs := s.toList
  p cs || (cs.getLast? == some '\n' && p cs.dropLast)

open Text (Pattern)

/-- The underscore. -/
def underscore : Pattern := .oneOf [⟨'_', '_'⟩]

/-- A lower-case letter or a digit. -/
def wordCharacter : Pattern := .oneOf [⟨'a', 'z'⟩, ⟨'0', '9'⟩]

/-- Lower-case words with single underscores between them, and up to two underscores at either
end. -/
def snakeCasePattern : Pattern :=
  .inOrder [.upTo 2 underscore, .oneOf [⟨'a', 'z'⟩], .many wordCharacter,
    .many (.inOrder [underscore, .oneOrMore wordCharacter]), .upTo 2 underscore]

/-- Capitalised words without anything between them, possibly after an underscore. -/
def capWordsPattern : Pattern :=
  .inOrder [.upTo 1 underscore, .oneOf [⟨'A', 'Z'⟩],
    .many (.oneOf [⟨'a', 'z'⟩, ⟨'A', 'Z'⟩, ⟨'0', '9'⟩])]

/-- Names of one letter with a conventional meaning. -/
def conventionalNames : List String := ["_", "i", "j", "k", "n", "x", "y", "z", "f", "e"]

/-- The shortest description after `test_`. -/
def leastTestDescription : Nat := 4

/-- Commit subjects that say nothing. -/
def genericSubjects : List String :=
  ["wip", "fix", "fixes", "update", "updates", "changes", "misc", "stuff", "tmp", "test"]

namespace FactPredicate

/-- The label has a property. -/
def ofLabel (p : String → Bool) : FactPredicate := fun f => do
  return p (← f.label.mapError DigitError.fault)

def snakeCase : FactPredicate := ofLabel (holdsOfLine snakeCasePattern.accepts)

def capWords : FactPredicate := ofLabel (holdsOfLine capWordsPattern.accepts)

/-- The name is longer than a letter, or is a conventional one. -/
def descriptive : FactPredicate :=
  ofLabel fun name => 1 < name.length || conventionalNames.contains name

/-- The last part of the subject does not start with an underscore. -/
def isPublic : FactPredicate := fun f =>
  .ok (((f.subject.toList.reverse.takeWhile (· != '.')).getLast?) != some '_')

/-- The name of a test says what it tests. -/
def descriptiveTest : FactPredicate := ofLabel fun name =>
  Text.startsWith name "test_" && "test_".length + leastTestDescription ≤ name.length

/-- A logger has the name of its module. -/
def moduleName : FactPredicate := ofLabel fun name => name = "__name__"

/-- The subject of a commit has a length within the bounds and is not a generic word. -/
def commitSubject (least most : Int) : FactPredicate := ofLabel fun message =>
  let subject := Text.strip message
  !genericSubjects.contains (Text.stripEnd '.' (Text.lower subject)) &&
    least ≤ subject.length && subject.length ≤ most

end FactPredicate

end Scorecard
