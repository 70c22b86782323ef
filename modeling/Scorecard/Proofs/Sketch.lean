import Scorecard.Proofs.Outcome

set_option autoImplicit false

/-! # Sketches

The sketch of a finding leaves out its message and its place. What is said in a report is decided by
sketches: runs with the same sketches give scores with the same sketches (`scoreOfRuns_sketch`), and
these give reports with the same sketch (`reportOf_sketch`), which differ at most in the texts of
their findings and recommendations.
-/

namespace Scorecard

/-- A finding without its message and its place. -/
def Finding.sketch (x : Finding) : Finding := { x with message := "", location := .codebase }

/-- A result with the sketches of its findings. -/
def RuleResult.sketch (res : RuleResult) : RuleResult :=
  { res with findings := res.findings.map Finding.sketch }

/-- A run with the sketches of its findings. -/
def RuleRun.sketch (run : RuleRun) : RuleRun :=
  { run with findings := run.findings.map Finding.sketch }

/-- A score with the sketches of its findings. -/
def CategoryScore.sketch (s : CategoryScore) : CategoryScore :=
  { s with findings := s.findings.map Finding.sketch }

/-- A recommendation without its text. -/
def Recommendation.sketch (r : Recommendation) : Recommendation := { r with text := "" }

/-- A report without the texts of its findings and recommendations. -/
def Report.sketch (r : Report) : Report :=
  { overall := r.overall
    scores := r.scores.map CategoryScore.sketch
    strengths := r.strengths.map CategoryScore.sketch
    weaknesses := r.weaknesses.map CategoryScore.sketch
    recommendations := r.recommendations.map Recommendation.sketch }

theorem RuleResult.sketch_eq_iff {res res' : RuleResult} :
    res.sketch = res'.sketch ↔
      res.score = res'.score ∧ res.findings.map Finding.sketch = res'.findings.map Finding.sketch ∧
        res.applicable = res'.applicable := by
  simp only [RuleResult.sketch, RuleResult.mk.injEq]

/-! ## Scores -/

theorem map_outcome_of_sketch {runs runs' : List RuleRun}
    (h : runs.map RuleRun.sketch = runs'.map RuleRun.sketch) :
    runs.map (·.outcome) = runs'.map (·.outcome) := by
  have houtcome := congrArg (List.map (·.outcome)) h
  rwa [List.map_map, List.map_map] at houtcome

theorem flatMap_findings_of_sketch {runs runs' : List RuleRun}
    (h : runs.map RuleRun.sketch = runs'.map RuleRun.sketch) :
    (runs.flatMap (·.findings)).map Finding.sketch =
      (runs'.flatMap (·.findings)).map Finding.sketch := by
  have hfindings := congrArg (List.flatMap (·.findings)) h
  rw [List.flatMap_map, List.flatMap_map] at hfindings
  rwa [List.map_flatMap, List.map_flatMap]

/-- The score of a category has the sketch that the sketches of its runs give. -/
theorem scoreOfRuns_sketch {ρ : Rounding} {c : Category} {runs runs' : List RuleRun}
    (h : runs.map RuleRun.sketch = runs'.map RuleRun.sketch) {s s' : CategoryScore}
    (hs : scoreOfRuns ρ c runs = .ok s) (hs' : scoreOfRuns ρ c runs' = .ok s') :
    s.sketch = s'.sketch := by
  have houtcomes := map_outcome_of_sketch h
  have hfindings := flatMap_findings_of_sketch h
  simp only [scoreOfRuns, ← houtcomes] at hs hs'
  -- the outcomes decide which case it is, and they are in the sketch
  by_cases hnone : ((runs.map (·.outcome)).filter (·.applicable)).isEmpty = true
  · rw [if_pos hnone] at hs hs'
    obtain ⟨-, rfl⟩ := check_eq_ok_iff.mp hs
    obtain ⟨-, rfl⟩ := check_eq_ok_iff.mp hs'
    simp only [CategoryScore.sketch, List.map_append, hfindings]
  · rw [if_neg hnone] at hs hs'
    cases hmean : weightedMean ρ ((runs.map (·.outcome)).filter (·.applicable)) with
    | error e =>
        rw [hmean] at hs
        cases hs
    | ok mean =>
        rw [hmean] at hs hs'
        obtain ⟨-, rfl⟩ := check_eq_ok_iff.mp hs
        obtain ⟨-, rfl⟩ := check_eq_ok_iff.mp hs'
        simp only [CategoryScore.sketch, hfindings]

/-! ## Recommendations -/

theorem map_sketch_actionable (findings : List Finding) :
    (actionable findings).map Finding.sketch = actionable (findings.map Finding.sketch) := by
  rw [actionable, actionable, List.filter_map]
  rfl

/-- A group with the sketches of its findings. -/
def FindingGroup.sketch (g : FindingGroup) : FindingGroup :=
  { first := g.first.sketch, others := g.others.map Finding.sketch }

/-- Findings and their sketches are grouped in the same way. -/
theorem foldl_addByKind_sketch (findings : List Finding) (groups : List (String × FindingGroup)) :
    (findings.map Finding.sketch).foldl addByKind (groups.map fun p => (p.1, p.2.sketch)) =
      (findings.foldl addByKind groups).map fun p => (p.1, p.2.sketch) := by
  induction findings generalizing groups with
  | nil => rfl
  | cons x rest ih =>
      have hextend : ∀ old : Option FindingGroup,
          FindingGroup.extend x.sketch (old.map FindingGroup.sketch) =
            (FindingGroup.extend x old).sketch := by
        intro old
        cases old with
        | none => simp [FindingGroup.extend, FindingGroup.sketch]
        | some g => simp [FindingGroup.extend, FindingGroup.sketch]
      have hadd : addByKind (groups.map fun p => (p.1, p.2.sketch)) x.sketch =
          (addByKind groups x).map fun p => (p.1, p.2.sketch) :=
        alterEntry_mapValues FindingGroup.sketch x.kind hextend groups
      rw [List.map_cons, List.foldl_cons, List.foldl_cons, hadd]
      exact ih (addByKind groups x)

/-- What is recommended for a group of findings, without its text. -/
def FindingGroup.outline (c : Category) (entry : String × FindingGroup) : Recommendation :=
  { category := c, kind := entry.1, text := "", occurrences := entry.2.count }

/-- What is recommended for a category, without its texts. It does not matter whether they can be
written. -/
def CategoryScore.outlines (most : Nat) (s : CategoryScore) : List Recommendation :=
  ((groupByKind (actionable s.findings)).take most).map (FindingGroup.outline s.category)

/-- What is recommended for all categories, without its texts. -/
def outlines (most : Int) (scores : List CategoryScore) : List Recommendation :=
  if most ≤ 0 then [] else (scores.mergeSort inOrder).flatMap (CategoryScore.outlines most.toNat)

theorem map_sketch_of_categoryRecommendations {most : Nat} {s : CategoryScore}
    {rs : List Recommendation} (h : categoryRecommendations most s = .ok rs) :
    rs.map Recommendation.sketch = s.outlines most := by
  refine (map_categoryRecommendations h fun entry rec hrec => ?_).symm
  obtain ⟨text, -, rfl⟩ := recommendation_eq_ok_iff.mp hrec
  rfl

theorem map_sketch_of_recommendations {most : Int} {scores : List CategoryScore}
    {rs : List Recommendation} (h : recommendations most scores = .ok rs) :
    rs.map Recommendation.sketch = outlines most scores := by
  unfold outlines
  by_cases hmost : most ≤ 0
  · rw [recommendations_of_nonpos hmost] at h
    cases h
    rw [if_pos hmost]
    rfl
  · rw [if_neg hmost]
    obtain ⟨parts, hparts, rfl⟩ := (recommendations_eq_ok_iff (by omega)).mp h
    clear h
    -- the recommendations of a category stand where its outlines do
    generalize scores.mergeSort inOrder = ordered at hparts
    induction hparts with
    | nil => rfl
    | cons hpart _ ih =>
        rw [List.flatten_cons, List.map_append, map_sketch_of_categoryRecommendations hpart, ih,
          List.flatMap_cons]

/-- How often something is recommended can be counted on the sketches. -/
theorem CategoryScore.outlines_sketch (most : Nat) (s : CategoryScore) :
    s.sketch.outlines most = s.outlines most := by
  have hgroups : groupByKind (actionable s.sketch.findings) =
      (groupByKind (actionable s.findings)).map fun p => (p.1, p.2.sketch) := by
    rw [CategoryScore.sketch, ← map_sketch_actionable]
    exact foldl_addByKind_sketch (actionable s.findings) []
  rw [outlines, outlines, hgroups, ← List.map_take, List.map_map]
  refine List.map_congr_left fun entry _ => ?_
  simp [FindingGroup.outline, CategoryScore.sketch, FindingGroup.sketch, FindingGroup.count]

theorem outlines_map_sketch (most : Int) (scores : List CategoryScore) :
    outlines most (scores.map CategoryScore.sketch) = outlines most scores := by
  have hsort :
      (scores.map CategoryScore.sketch).mergeSort inOrder =
        (scores.mergeSort inOrder).map CategoryScore.sketch :=
    (List.map_mergeSort (r := inOrder) (f := CategoryScore.sketch) fun _ _ _ _ => rfl).symm
  unfold outlines
  rw [hsort, List.flatMap_map]
  simp only [CategoryScore.outlines_sketch]

/-! ## Reports -/

/-- What a report says. -/
theorem eq_of_reportOf {ρ : Rounding} {weights : Weights} {bounds : ReportBounds}
    {scores : List CategoryScore} {report : Report}
    (h : reportOf ρ weights bounds scores = .ok report) :
    ∃ rs, recommendations bounds.most scores = .ok rs ∧
      report =
        { overall := ((reportedMean ρ weights scores).clamp (.finite 0) (.finite 10)).roundTenth ρ
          scores
          strengths := (scores.filter fun s => bounds.strength.le (s.score ρ)).mergeSort
            (strongerFirst ρ)
          weaknesses := (scores.filter fun s => (s.score ρ).le bounds.weakness).mergeSort
            (weakerFirst ρ)
          recommendations := rs } := by
  dsimp only [reportOf] at h
  split at h
  · cases h
  · split at h
    · cases h
    · rename_i rs hrs
      exact ⟨rs, hrs, (ite_ok_eq_ok_iff.mp h).2⟩

/-- Selecting and sorting by what is kept of the elements. -/
theorem map_filter_mergeSort {α β : Type} (g : α → β) (p : α → Bool) (q : β → Bool)
    (le : α → α → Bool) (le' : β → β → Bool) {l : List α} (hp : ∀ a ∈ l, p a = q (g a))
    (hle : ∀ a ∈ l, ∀ b ∈ l, le a b = le' (g a) (g b)) :
    ((l.filter p).mergeSort le).map g = ((l.map g).filter q).mergeSort le' := by
  rw [List.map_mergeSort fun a ha b hb => hle a (List.mem_of_mem_filter ha) b
    (List.mem_of_mem_filter hb), List.filter_map]
  congr 2
  exact List.filter_congr hp

/-- Everything in a report that is not a text is decided by the sketches of the scores. -/
theorem reportOf_sketch {ρ : Rounding} {weights : Weights} {bounds : ReportBounds}
    {scores scores' : List CategoryScore}
    (h : scores.map CategoryScore.sketch = scores'.map CategoryScore.sketch)
    {report report' : Report} (hreport : reportOf ρ weights bounds scores = .ok report)
    (hreport' : reportOf ρ weights bounds scores' = .ok report') :
    report.sketch = report'.sketch := by
  have hmean :
      ∀ l : List CategoryScore, reportedMean ρ weights l =
        reportedMean ρ weights (l.map CategoryScore.sketch) := by
    intro l
    rw [reportedMean, reportedMean, List.map_map]
    rfl
  have hmeans : reportedMean ρ weights scores = reportedMean ρ weights scores' := by
    rw [hmean scores, h, ← hmean scores']
  have hsorted : ∀ (p : CategoryScore → Bool) (le : CategoryScore → CategoryScore → Bool),
      (∀ s, p s = p s.sketch) → (∀ s t, le s t = le s.sketch t.sketch) → ∀ l : List CategoryScore,
        ((l.filter p).mergeSort le).map CategoryScore.sketch =
          ((l.map CategoryScore.sketch).filter p).mergeSort le :=
    fun p le hp hle l => map_filter_mergeSort CategoryScore.sketch p p le le
      (fun s _ => hp s) fun s _ t _ => hle s t
  have hstrengths :=
    hsorted (fun s => bounds.strength.le (s.score ρ)) (strongerFirst ρ)
    (fun _ => rfl) fun _ _ => rfl
  have hweaknesses :=
    hsorted (fun s => (s.score ρ).le bounds.weakness) (weakerFirst ρ) (fun _ => rfl) fun _ _ => rfl
  -- each part of a report only looks at what a sketch keeps of its scores
  have hsketch : ∀ {l : List CategoryScore} {r : Report}, reportOf ρ weights bounds l = .ok r →
      r.sketch =
        { overall := ((reportedMean ρ weights l).clamp (.finite 0) (.finite 10)).roundTenth ρ
          scores := l.map CategoryScore.sketch
          strengths :=
            ((l.map CategoryScore.sketch).filter fun s => bounds.strength.le (s.score ρ)).mergeSort
            (strongerFirst ρ)
          weaknesses :=
            ((l.map CategoryScore.sketch).filter fun s => (s.score ρ).le bounds.weakness).mergeSort
            (weakerFirst ρ)
          recommendations := outlines bounds.most (l.map CategoryScore.sketch) } := by
    intro l r hr
    obtain ⟨rs, hrs, rfl⟩ := eq_of_reportOf hr
    simp only [Report.sketch, hstrengths, hweaknesses, map_sketch_of_recommendations hrs,
      outlines_map_sketch]
  rw [hsketch hreport, hsketch hreport', hmeans, h]

/-! ## Runs -/

theorem reportOf_scores {ρ : Rounding} {weights : Weights} {bounds : ReportBounds}
    {scores : List CategoryScore} {report : Report}
    (h : reportOf ρ weights bounds scores = .ok report) : report.scores = scores := by
  obtain ⟨rs, -, rfl⟩ := eq_of_reportOf h
  rfl

theorem aggregate_reportOf {ρ : Rounding} {scores : List CategoryScore} {overrides : Weights}
    {bounds : ReportBounds} {report : Report}
    (h : aggregate ρ scores overrides bounds = .ok report) :
    ∃ weights, Weights.resolve ρ overrides = .ok weights ∧
      reportOf ρ weights bounds report.scores = .ok report := by
  dsimp only [aggregate] at h
  split at h
  · cases h
  · split at h
    · cases h
    · split at h
      · cases h
      · rename_i weights hweights
        exact ⟨weights, hweights, (reportOf_scores h) ▸ h⟩

/-- The report of a run is made of its scores, with weights that depend on the configuration
only. -/
theorem runWith_reportOf {ρ : Rounding} {m : FactModel} {c : Config} {r : Registry} {wait : Wait}
    {report : Report} (h : runWith ρ m c r wait = .ok report) :
    ∃ weights weights', Weights.resolve ρ c.weights = .ok weights ∧
      Weights.resolve ρ weights = .ok weights' ∧
      reportOf ρ weights' c.bounds report.scores = .ok report := by
  unfold runWith at h
  split at h
  · cases h
  · rename_i weights hweights
    split at h
    · cases h
    · split at h
      · cases h
      · unfold runRules at h
        split at h
        · cases h
        · cases h
        · cases h
        · rename_i scores _
          cases haggregate : aggregate ρ scores weights c.bounds with
          | error e =>
              rw [haggregate] at h
              cases h
          | ok made =>
              rw [haggregate] at h
              cases h
              -- the report resolves weights that were resolved before
              obtain ⟨weights', hweights', hreport⟩ := aggregate_reportOf haggregate
              exact ⟨weights, weights', hweights, hweights', hreport⟩

end Scorecard
