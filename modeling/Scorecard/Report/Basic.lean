import Scorecard.Score.Basic
import Scorecard.Score.Weights

set_option autoImplicit false

/-! # Reports

A report combines the scores of all ten categories. The overall score is the weighted mean of the
scores as they are reported, so that it agrees with what a reader sees. Categories with a high or a
low score are listed as strengths and weaknesses, and the findings are grouped into recommendations.
A recommendation names the place of its first finding, so there is no report if that place cannot be
written.
-/

namespace Scorecard

/-- An improvement that several findings ask for. -/
structure Recommendation where
  category : Category
  kind : String
  text : String
  occurrences : Nat
deriving DecidableEq, Repr

/-- The outcome of an evaluation. -/
structure Report where
  overall : Number
  scores : List CategoryScore
  strengths : List CategoryScore
  weaknesses : List CategoryScore
  recommendations : List Recommendation
deriving DecidableEq, Repr

/-- The overall score is from zero to ten. -/
def Report.InRange (r : Report) : Prop :=
  Number.le (.finite 0) r.overall ∧ r.overall.le (.finite 10)

instance (r : Report) : Decidable r.InRange := by
  unfold Report.InRange
  infer_instance

/-- Why there is no report. -/
inductive ReportError where
  | duplicate (category : Category)
  | incomplete (missing : List Category)
  | weights (e : WeightError)
  | notFinite (mean : Number)
  /-- The place of a finding cannot be written in a recommendation. -/
  | unwritable (e : DigitError)
  | outOfRange (overall : Number)
deriving DecidableEq, Repr

def ReportError.message : ReportError → String
  | duplicate c => "Duplicate score for category '" ++ c.slug ++ "'"
  | incomplete missing =>
      "Evaluation is missing category scores for: " ++ ", ".intercalate (missing.map (·.slug))
  | weights e => e.message
  | notFinite mean => "Overall score is not a finite number: " ++ mean.text
  | unwritable e => e.message
  | outOfRange overall => "overall score must be within [0, 10], got " ++ overall.text

/-! ## Recommendations -/

/-- The findings that ask for something. -/
def actionable (findings : List Finding) : List Finding := findings.filter (·.suggestion ≠ "")

/-- Where the first finding is, unless it is about the code base as a whole. -/
def firstPlace (first : Finding) : Except DigitError String :=
  if first.location.file = wholeCodebase then .ok ""
  else return ", first at " ++ (← first.location.text)

/-- The text of a recommendation from the findings of one kind. -/
def recommendationText (first : Finding) (count : Nat) : Except DigitError String := do
  let detail := Nat.repr count ++ (if count = 1 then " finding" else " findings")
  let place ← firstPlace first
  return Text.stripEnd '.' first.suggestion ++ " (" ++ detail ++ place ++ ")."

/-- Findings of one kind. There is a first one. -/
structure FindingGroup where
  first : Finding
  others : Array Finding := #[]
deriving DecidableEq, Repr

namespace FindingGroup

/-- The findings of a group in the order in which they were made. -/
def toList (g : FindingGroup) : List Finding := g.first :: g.others.toList

/-- The number of findings of a group. -/
def count (g : FindingGroup) : Nat := g.others.size + 1

/-- The group with one more finding, or a new one. -/
def extend (x : Finding) : Option FindingGroup → FindingGroup
  | none => { first := x }
  | some g => { g with others := g.others.push x }

end FindingGroup

/-- Puts a finding behind those of its kind. -/
def addByKind (groups : List (String × FindingGroup)) (x : Finding) :
    List (String × FindingGroup) :=
  alterEntry x.kind (FindingGroup.extend x) groups

/-- Findings by their kinds, which are in the order in which they appear. -/
def groupByKind (findings : List Finding) : List (String × FindingGroup) :=
  findings.foldl addByKind []

/-- The recommendation of a category for the findings of a kind. -/
def recommendation (c : Category) (kind : String) (g : FindingGroup) :
    Except DigitError Recommendation := do
  let text ← recommendationText g.first g.count
  return { category := c, kind, text, occurrences := g.count }

/-- The recommendations of a category: one for each kind of finding, in the order in which the kinds
appear. -/
def categoryRecommendations (most : Nat) (s : CategoryScore) :
    Except DigitError (List Recommendation) :=
  ((groupByKind (actionable s.findings)).take most).mapM fun entry =>
    recommendation s.category entry.1 entry.2

/-- Whether a score comes before another in the order of the categories. -/
def inOrder (a b : CategoryScore) : Bool := a.category.order ≤ b.category.order

/-- The recommendations for all categories in their order, at most `most` for each. -/
def recommendations (most : Int) (scores : List CategoryScore) :
    Except DigitError (List Recommendation) :=
  if most ≤ 0 then .ok []
  else
    return (← (scores.mergeSort inOrder).mapM (categoryRecommendations most.toNat)).flatten

/-! ## The report -/

/-- The category of the first score that repeats the category of an earlier one. -/
def repeated? (seen : List Category) : List CategoryScore → Option Category
  | [] => none
  | s :: rest =>
      if seen.contains s.category then some s.category else repeated? (s.category :: seen) rest

/-- The score of a category. -/
def scoreOf? (scores : List CategoryScore) (c : Category) : Option CategoryScore :=
  scores.find? (·.category = c)

/-- The weighted mean of the reported scores. -/
def reportedMean (ρ : Rounding) (weights : Weights) (scores : List CategoryScore) : Number :=
  Number.div ρ
    (Number.sum ρ (scores.map fun s => Number.mul ρ (weights.weightOf s.category) (s.score ρ)))
    (weights.total ρ)

/-- Higher scores first; equal scores in the order of the categories. -/
def strongerFirst (ρ : Rounding) (a b : CategoryScore) : Bool :=
  (b.score ρ).lt (a.score ρ) || (!(a.score ρ).lt (b.score ρ) && inOrder a b)

/-- Lower scores first; equal scores in the order of the categories. -/
def weakerFirst (ρ : Rounding) (a b : CategoryScore) : Bool :=
  (a.score ρ).lt (b.score ρ) || (!(b.score ρ).lt (a.score ρ) && inOrder a b)

/-- Bounds for the lists of a report. -/
structure ReportBounds where
  most : Int := 5
  strength : Number := .finite 9
  weakness : Number := .finite 6
deriving DecidableEq, Repr

/-- The report on the scores of all categories, given in their order. -/
def reportOf (ρ : Rounding) (weights : Weights) (bounds : ReportBounds)
    (scores : List CategoryScore) : Except ReportError Report :=
  let mean := reportedMean ρ weights scores
  -- clamping would hide a mean that is not finite
  if !mean.isFinite then .error (.notFinite mean)
  else
    match recommendations bounds.most scores with
    | .error e => .error (.unwritable e)
    | .ok recommendations =>
      let report : Report :=
        { overall := (mean.clamp (.finite 0) (.finite 10)).roundTenth ρ
          scores
          strengths :=
            (scores.filter fun s => bounds.strength.le (s.score ρ)).mergeSort (strongerFirst ρ)
          weaknesses :=
            (scores.filter fun s => (s.score ρ).le bounds.weakness).mergeSort (weakerFirst ρ)
          recommendations }
      if report.InRange then .ok report else .error (.outOfRange report.overall)

/-- Combines the scores of the categories. Each category has to have exactly one. -/
def aggregate (ρ : Rounding) (scores : List CategoryScore) (overrides : Weights)
    (bounds : ReportBounds) : Except ReportError Report :=
  match repeated? [] scores with
  | some c => .error (.duplicate c)
  | none =>
    let missing := Category.all.filter fun c => (scoreOf? scores c).isNone
    if !missing.isEmpty then .error (.incomplete missing)
    else
      match Weights.resolve ρ overrides with
      | .error e => .error (.weights e)
      | .ok weights => reportOf ρ weights bounds (Category.all.filterMap (scoreOf? scores))

/-- All findings of a report. -/
def Report.findings (r : Report) : List Finding := r.scores.flatMap (·.findings)

end Scorecard
