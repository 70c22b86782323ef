import Scorecard.Fact.Document
import Scorecard.Report.Basic
import Scorecard.Value.Json

set_option autoImplicit false

/-! # Rendering reports

A report as text, plain or coloured, and as a document.
-/

namespace Scorecard

/-- The version of the program. -/
def version : String := "0.1.0"

/-! ## Text -/

/-- Colours of the terminal. -/
inductive Colour where
  | red | green | yellow
deriving DecidableEq, Repr

/-- The escape sequence with these parameters. -/
def escapeSequence (parameters : String) : String := "\x1b[" ++ parameters ++ "m"

def Colour.code : Colour → String
  | red => "31"
  | green => "32"
  | yellow => "33"

/-- Bold text, possibly in a colour. -/
def emphasised (colour : Option Colour) (s : String) : String :=
  String.join (colour.toList.map fun c => escapeSequence c.code) ++ escapeSequence "1" ++ s ++
    escapeSequence "0"

/-- The colour of a score. -/
def scoreColour (score : Number) : Colour :=
  if Number.le (.finite 8) score then .green else if Number.le (.finite 6) score then .yellow
    else .red

/-- The line of a category. -/
def scoreLine (ρ : Rounding) (s : CategoryScore) : String :=
  "- " ++ s.category.label ++ ": " ++ (s.score ρ).fixed 1 ++ "/10"

/-- Lines, or a line that says that there are none. -/
def orNone (lines : List String) : List String := if lines.isEmpty then ["- None"] else lines

/-- The line of the recommendation with a number. -/
def recommendationLine (r : Recommendation) (number : Nat) : String :=
  Nat.repr number ++ ". [" ++ r.category.label ++ "] " ++ r.text

/-- The lines of a report. -/
def Report.lines (ρ : Rounding) (coloured : Bool) (r : Report) : List String :=
  let heading (s : String) : String := if coloured then emphasised none s else s
  let overall := "Overall Score: " ++ r.overall.fixed 1 ++ "/10"
  [if coloured then emphasised (some (scoreColour r.overall)) overall else overall, "",
   heading "Category Scores:"] ++ r.scores.map (scoreLine ρ) ++ ["",
   heading "Top Strengths:"] ++ orNone (r.strengths.map (scoreLine ρ)) ++ ["",
   heading "Key Weaknesses:"] ++ orNone (r.weaknesses.map (scoreLine ρ)) ++ ["",
   heading "Recommendations:"] ++ orNone ((r.recommendations.zipIdx 1).map fun (rec, i) =>
     recommendationLine rec i)

/-- The report as text. -/
def Report.text (ρ : Rounding) (coloured : Bool) (r : Report) : String :=
  "\n".intercalate (r.lines ρ coloured)

/-! ## Documents -/

def Finding.toValue (f : Finding) : Value :=
  .table
    [("rule_id", .text f.ruleId), ("kind", .text f.kind), ("message", .text f.message),
     ("location", .table
       [("file", .text f.location.file), ("start_line", f.location.start.toValue),
        ("end_line", f.location.stop.toValue)]),
     ("suggestion", .text f.suggestion)]

def Outcome.toValue (o : Outcome) : Value :=
  .table
    [("rule_id", .text o.ruleId), ("weight", .number o.weight), ("score", .number o.score),
     ("applicable", .bool o.applicable), ("failed", .bool o.failed)]

def CategoryScore.toFields (ρ : Rounding) (s : CategoryScore) : Fields :=
  [("category", .text s.category.slug), ("name", .text s.category.label),
    ("score", .number (s.score ρ)),
   ("vacuous", .bool s.vacuous), ("rules", .list (s.outcomes.map Outcome.toValue)),
   ("findings", .list (s.findings.map Finding.toValue))]

def Recommendation.toValue (r : Recommendation) : Value :=
  .table
    [("category", .text r.category.slug), ("kind", .text r.kind), ("text", .text r.text),
     ("occurrences", .int r.occurrences)]

/-- The slugs of the categories of some scores. -/
def slugs (scores : List CategoryScore) : Value := .list (scores.map fun s => .text s.category.slug)

/-- The report as a document. The time is only written if it is given, so that a report always gives
the same document. -/
def Report.toValue (ρ : Rounding) (source : String) (time : Option String) (r : Report) : Value :=
  let origin := [("source", .text source), ("version", .text version)] ++
    time.toList.map fun t => ("generated_at", .text t)
  .table
    [("overall_score", .number r.overall),
      ("categories", .list (r.scores.map fun s => .table (s.toFields ρ))),
     ("strengths", slugs r.strengths), ("weaknesses", slugs r.weaknesses),
     ("recommendations", .list (r.recommendations.map Recommendation.toValue)),
       ("meta", .table origin)]

/-- The report as JSON text. -/
def Report.json (ρ : Rounding) (source : String) (time : Option String) (r : Report) : String :=
  Json.render (r.toValue ρ source time)

end Scorecard
