import Scorecard.Rule.Predicate
import Scorecard.Text.Template

set_option autoImplicit false

/-! # Forms of rules

Most rules have one of three forms: the share of facts that comply, a fixed penalty for each
violation, or the presence of a fact. The message of a finding is a template with the subject, the
value and the file of the fact it is about.
-/

namespace Scorecard

/-- What is said about a violating fact: a template for the message, and the suggestion. -/
structure Advice where
  message : String
  suggestion : String
deriving DecidableEq, Repr

/-- The quoted form of the value of a fact: only a text has quotes. -/
def FactValue.quoted : FactValue → String
  | text s => Text.quoted s
  | v => v.label

/-- What a fact is about: its subject, or else its file. -/
def Fact.topic (f : Fact) : String := if f.subject = "" then f.location.file else f.subject

/-- The values that a message can name. A rule that names the value of a fact has a condition that
refuses an integer with too many digits to be written. -/
def Fact.templateFields (f : Fact) : List Text.TemplateField :=
  [⟨"subject", f.topic, Text.quoted f.topic⟩, ⟨"value", f.value.label, f.value.quoted⟩,
   ⟨"file", f.location.file, Text.quoted f.location.file⟩]

/-- A template that cannot be filled is a fault. -/
def templateFault (e : Text.TemplateError) : Fault :=
  { kind := match e with
      | .noSuchField _ => "KeyError"
      | .noSuchPosition _ => "IndexError"
      | _ => "ValueError"
    message := e.message }

/-- The finding for a violating fact. -/
def violation (id : String) (advice : Advice) (f : Fact) : Except Fault Finding := do
  let message ← (Text.fill f.templateFields advice.message).mapError templateFault
  let suggestion := advice.suggestion
  return { ruleId := id, kind := id, message, location := f.location, suggestion }

/-- The facts that a condition selects. -/
def selectFacts (selector : FactPredicate) : List Fact → Except Fault (List Fact)
  | [] => .ok []
  | f :: rest => do
    let chosen ← selector f
    let more ← selectFacts selector rest
    return if chosen then f :: more else more

/-- The findings for the facts that do not comply. -/
def violations (id : String) (advice : Advice) (predicate : FactPredicate) :
    List Fact → Except Fault (List Finding)
  | [] => .ok []
  | f :: rest => do
    if ← predicate f then violations id advice predicate rest
    else
      let found ← violation id advice f
      let more ← violations id advice predicate rest
      return found :: more

/-- The share of the selected facts of a kind that comply. -/
def judgeRatio (ρ : Rounding) (id kind : String) (predicate selector : FactPredicate)
    (advice : Advice) (m : FactModel) : Except Fault RuleResult := do
  let selected ← selectFacts selector (m.ofKind kind)
  if selected.isEmpty then return .notApplicable
  else
    let findings ← violations id advice predicate selected
    let compliant : Int := selected.length - findings.length
    return { score := .ratio ρ compliant selected.length, findings }

/-- A penalty for each fact of a kind that is true. Applies where there are facts of that kind or of
the kind `appliesTo`. -/
def judgePenalty (ρ : Rounding) (id kind appliesTo : String) (penalty : Number) (advice : Advice)
    (m : FactModel) : Except Fault RuleResult := do
  if (m.ofKind appliesTo).isEmpty && (m.ofKind kind).isEmpty then return .notApplicable
  else
    let flagged := (m.ofKind kind).filter (·.isTrue)
    let findings ← flagged.mapM (violation id advice)
    let left := Number.sub ρ (.finite 1) (Number.mul ρ penalty (.finite flagged.length))
    return { score := if Number.lt (.finite 0) left then left else .finite 0, findings }

/-- At least one fact of a kind that is true. -/
def judgePresence (id kind : String) (advice : Advice) (m : FactModel) : Except Fault RuleResult :=
  match m.ofKind kind with
  | [] => .ok .notApplicable
  | first :: rest =>
    if (first :: rest).any (·.isTrue) then .ok { score := .finite 1 }
    else do return { score := .finite 0, findings := [← violation id advice first] }

/-! ## Rules with a judgement of their own -/

/-- A finding that is not about one fact. -/
def findingFor (id : String) (location : Location) (message suggestion : String) : Finding :=
  { ruleId := id, kind := id, message, location, suggestion }

/-- The code base has test modules. -/
def judgeTestsPresent (id : String) (m : FactModel) : Except Fault RuleResult :=
  let observed := m.ofKind Kind.testFile
  if observed.isEmpty then .ok .notApplicable
  else if 0 < m.counters.testFiles then .ok { score := .finite 1 }
  else .ok
    { score := .finite 0
      findings :=
        [findingFor id .codebase ("No test modules found among " ++ Nat.repr observed.length ++
        " modules.")
        "Add a tests/ package with pytest modules for the public behavior."] }

/-- The wanted ratio of test modules to source modules. -/
def wantedTestRatio : Number := .finite (mkRat 1 2)

/-- The quotient of two integers. Nothing can be divided by zero. -/
def quotient (ρ : Rounding) (n d : Int) : Except Fault Number :=
  if d = 0 then .error { kind := "ZeroDivisionError", message := "division by zero" }
  else .ok (.ratio ρ (d.sign * n) d.natAbs)

/-- How near the ratio of some test modules to some source modules comes to the wanted one. -/
def testRatioResult (ρ : Rounding) (id : String) (tests : Nat) (sources : Int) (ratio : Number) :
    RuleResult :=
  let score := Number.div ρ ratio wantedTestRatio
  if score.lt (.finite 1) then
    { score
      findings := [findingFor id .codebase
        (Nat.repr tests ++ " test modules for " ++ Int.repr sources ++ " source modules.")
        "Add test modules for untested source modules."] }
  else { score := .finite 1 }

/-- The ratio of the number of test modules to the number of source modules. -/
def judgeTestRatio (ρ : Rounding) (id : String) (m : FactModel) : Except Fault RuleResult := do
  if m.counters.sourceFiles ≤ 0 then return .notApplicable
  else
    let ratio ← quotient ρ m.counters.testFiles m.counters.sourceFiles
    return testRatioResult ρ id m.counters.testFiles m.counters.sourceFiles ratio

/-- The share of messages that go through logging and are not printed. -/
def judgeLogging (ρ : Rounding) (id : String) (m : FactModel) : Except Fault RuleResult :=
  let logged := (m.ofKind Kind.logCall).length
  let prints := (m.ofKind Kind.printCall).filter (·.isTrue)
  if logged + prints.length = 0 then .ok .notApplicable
  else .ok
    { score := .ratio ρ logged (logged + prints.length)
      findings :=
        prints.map fun f => findingFor id f.location ("print() call in " ++ f.topic ++ ".")
        "Replace print() diagnostics with a module logger." }

end Scorecard
