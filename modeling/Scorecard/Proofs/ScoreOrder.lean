import Scorecard.Proofs.Sketch

set_option autoImplicit false

/-! # Higher scores of rules give higher scores

The order of scores is kept on the whole way from the rules to the report. Where the same rules
apply and none of them scores lower, the category does not score lower (`scoreOfRuns_mono`), and
where no category scores lower, neither does the report (`overall_mono`). Every step keeps the order
with or without rounding, so the results hold for any `Rounding.IsMonotone`.
-/

namespace Scorecard

variable {ρ : Rounding}

/-! ## One rule -/

/-- An outcome counts at most as much as another one: both apply or neither does, and if they do,
the score is not higher. -/
def Outcome.AtMost (o o' : Outcome) : Prop :=
  o.applicable = o'.applicable ∧ (o.applicable = true → o.score.le o'.score = true)

theorem run_score_within {rule : Rule} {m : FactModel}
    (h : (rule.run m).outcome.applicable = true) : (rule.run m).outcome.score.Within 0 1 := by
  unfold Rule.run at h ⊢
  cases hjudge : rule.judge m with
  | ok res =>
      rw [hjudge] at h
      by_cases happ : res.applicable = true
      · simp only [happ, if_true]
        exact Number.clamp_within (by norm_num) res.score
      · simp [happ] at h
  | error f => exact Number.within_finite (le_refl _) (by norm_num)

/-- Moving the scores of results into range keeps their order. -/
theorem run_atMost {rule rule' : Rule} {m m' : FactModel} {res res' : RuleResult}
    (h : rule.judge m = .ok res) (h' : rule'.judge m' = .ok res')
    (happ : res.applicable = res'.applicable)
    (hscore : res.applicable = true → res.score.le res'.score = true) :
    (rule.run m).outcome.AtMost (rule'.run m').outcome := by
  unfold Rule.run Outcome.AtMost
  rw [h, h']
  dsimp only
  rw [← happ]
  by_cases happly : res.applicable = true
  · simp only [happly, if_true, true_and]
    exact fun _ => Number.clamp_mono (by norm_num) (hscore happly)
  · simp [happly]

/-! ## One category -/

/-- Two outcomes of rules that apply and have the same weight, of which the first has no higher
score. -/
structure Outcome.Below (ρ : Rounding) (o o' : Outcome) : Prop where
  weight_eq : o.weight = o'.weight
  isWeight : o.weight.IsWeight ρ
  left : o.score.Within 0 1
  right : o'.score.Within 0 1
  le : o.score.le o'.score = true

/-- Two runs of rules that have the same weight, of which the first counts at most as much. -/
structure RuleRun.Below (ρ : Rounding) (run run' : RuleRun) : Prop where
  applicable_eq : run.outcome.applicable = run'.outcome.applicable
  isWeight : run.outcome.weight.IsWeight ρ
  isWeight' : run'.outcome.weight.IsWeight ρ
  outcome : run.outcome.applicable = true → run.outcome.Below ρ run'.outcome

theorem run_below {rule rule' : Rule} {m m' : FactModel} (hweight : rule.weight = rule'.weight)
    (hisWeight : rule.weight.IsWeight ρ) (h : (rule.run m).outcome.AtMost (rule'.run m').outcome) :
    (rule.run m).Below ρ (rule'.run m') := by
  refine ⟨h.1, by rwa [run_weight], by rwa [run_weight, ← hweight], fun happ => ?_⟩
  have happ' : (rule'.run m').outcome.applicable = true := h.1 ▸ happ
  refine ⟨?_, ?_, run_score_within happ, run_score_within happ', h.2 happ⟩
  · rw [run_weight, run_weight, hweight]
  · rwa [run_weight]

/-- The outcomes that count, side by side. -/
theorem forall₂_applicable {runs runs' : List RuleRun}
    (h : List.Forall₂ (RuleRun.Below ρ) runs runs') :
    List.Forall₂ (Outcome.Below ρ) ((runs.map (·.outcome)).filter (·.applicable))
      ((runs'.map (·.outcome)).filter (·.applicable)) := by
  induction h with
  | nil => exact List.Forall₂.nil
  | cons hhead _ ih =>
      rename_i run run' rest rest' _
      rw [List.map_cons, List.map_cons]
      by_cases happ : run.outcome.applicable = true
      · have happ' : run'.outcome.applicable = true := hhead.applicable_eq ▸ happ
        rw [List.filter_cons_of_pos happ, List.filter_cons_of_pos happ']
        exact List.Forall₂.cons (hhead.outcome happ) ih
      · have happ' : ¬run'.outcome.applicable = true := fun h => happ (hhead.applicable_eq ▸ h)
        rw [List.filter_cons_of_neg happ, List.filter_cons_of_neg happ']
        exact ih

/-- The raw score is ten if no rule applies, and ten times the mean otherwise. -/
theorem rawScore_of_scoreOfRuns {c : Category} {runs : List RuleRun} {s : CategoryScore}
    (h : scoreOfRuns ρ c runs = .ok s) :
    let applicable := (runs.map (·.outcome)).filter (·.applicable)
    (applicable = [] ∧ s.rawScore = .finite 10) ∨
      (applicable ≠ [] ∧ ∃ mean, weightedMean ρ applicable = .ok mean ∧
        s.rawScore = Number.mul ρ (.finite 10) (mean.clamp (.finite 0) (.finite 1))) := by
  intro applicable
  dsimp only [scoreOfRuns] at h
  by_cases hnone : applicable = []
  · rw [if_pos (List.isEmpty_iff.mpr hnone)] at h
    obtain ⟨-, rfl⟩ := check_eq_ok_iff.mp h
    exact Or.inl ⟨hnone, rfl⟩
  · rw [if_neg fun hempty => hnone (List.isEmpty_iff.mp hempty)] at h
    cases hmean : weightedMean ρ applicable with
    | error e =>
        rw [hmean] at h
        cases h
    | ok mean =>
        rw [hmean] at h
        obtain ⟨-, rfl⟩ := check_eq_ok_iff.mp h
        exact Or.inr ⟨hnone, mean, rfl, rfl⟩

section Means

variable (hρ : ρ.IsMonotone)
include hρ

/-- The mean grows with the scores: its divisor, the sum of the weights, stays the same. -/
theorem weightedMean_mono {os os' : List Outcome} (h : List.Forall₂ (Outcome.Below ρ) os os')
    {mean mean' : Number} (hmean : weightedMean ρ os = .ok mean)
    (hmean' : weightedMean ρ os' = .ok mean') (hne : os ≠ []) :
    (mean.clamp (.finite 0) (.finite 1)).le (mean'.clamp (.finite 0) (.finite 1)) = true := by
  have hweights : os.map (·.weight) = os'.map (·.weight) := by
    refine List.forall₂_eq_eq_eq ▸ List.forall₂_map_left_iff.mpr (List.forall₂_map_right_iff.mpr ?_)
    exact h.imp fun _ _ hbelow => hbelow.weight_eq
  -- the products grow with the scores, and so does their sum
  have hproducts : List.Forall₂ (Number.RisesTo ρ) (os.map fun o => Number.mul ρ o.weight o.score)
      (os'.map fun o => Number.mul ρ o.weight o.score) := by
    refine List.forall₂_map_left_iff.mpr
      (List.forall₂_map_right_iff.mpr (h.imp fun o o' hbelow => ?_))
    rw [← hbelow.weight_eq]
    exact Number.risesTo_mul hρ hbelow.isWeight.1 hbelow.isWeight.2.1.le hbelow.left hbelow.right
      hbelow.le
  have hsums := Number.risesTo_sum hρ hproducts
  have htotal : Number.lt (.finite 0) (Number.sum ρ (os.map (·.weight))) = true := by
    refine sum_weights_pos hρ (by simpa using hne) fun w hw => ?_
    obtain ⟨o, ho, rfl⟩ := List.mem_map.mp hw
    obtain ⟨o', -, hbelow⟩ := exists_of_mem_forall₂ h.flip ho
    exact hbelow.isWeight
  have hzero := Number.isZero_eq_false_of_lt htotal
  simp only [weightedMean, ← hweights, hzero] at hmean hmean'
  cases hmean
  cases hmean'
  exact Number.clamp_div_mono hρ (by norm_num) hsums.left.1 hsums.right.1 hsums.le htotal

/-- **A category does not score lower if none of its rules does.** -/
theorem scoreOfRuns_mono (c : Category) {runs runs' : List RuleRun}
    (h : List.Forall₂ (RuleRun.Below ρ) runs runs') :
    ∃ s s', scoreOfRuns ρ c runs = .ok s ∧ scoreOfRuns ρ c runs' = .ok s' ∧
      s.rawScore.le s'.rawScore = true := by
  obtain ⟨s, hs, -⟩ := scoreOfRuns_reports hρ c runs fun run hrun => by
    obtain ⟨_, -, hbelow⟩ := exists_of_mem_forall₂ h.flip hrun
    exact hbelow.isWeight
  obtain ⟨s', hs', -⟩ := scoreOfRuns_reports hρ c runs' fun run hrun => by
    obtain ⟨_, -, hbelow⟩ := exists_of_mem_forall₂ h hrun
    exact hbelow.isWeight'
  refine ⟨s, s', hs, hs', ?_⟩
  -- the same rules apply on both sides, so both are vacuous or none is
  have happlicable := forall₂_applicable h
  rcases rawScore_of_scoreOfRuns hs with ⟨hnone, hraw⟩ | ⟨hsome, mean, hmean, hraw⟩
  · rcases rawScore_of_scoreOfRuns hs' with ⟨-, hraw'⟩ | ⟨hsome', -⟩
    · rw [hraw, hraw']
      rfl
    · rw [hnone] at happlicable
      exact absurd (List.forall₂_nil_left_iff.mp happlicable) hsome'
  · rcases rawScore_of_scoreOfRuns hs' with ⟨hnone', -⟩ | ⟨-, mean', hmean', hraw'⟩
    · rw [hnone'] at happlicable
      exact absurd (List.forall₂_nil_right_iff.mp happlicable) hsome
    · rw [hraw, hraw']
      have hle := weightedMean_mono hρ happlicable hmean hmean' hsome
      exact (Number.risesTo_mul hρ rfl (by norm_num [Number.value])
        (Number.clamp_within (by norm_num) mean)
        (Number.clamp_within (by norm_num) mean') hle).le

/-! ## The report -/

theorem score_within {s : CategoryScore} (h : s.rawScore.Within 0 10) :
    (s.score ρ).Within 0 10 := by
  have hround := Number.roundTenth_within hρ (k := 10) (by norm_num) (by simpa using h)
  simpa [CategoryScore.score] using hround

/-- Scores as they are reported are in the order of the raw scores. -/
theorem score_mono {s s' : CategoryScore} (h : s.rawScore.Within 0 10)
    (h' : s'.rawScore.Within 0 10) (hle : s.rawScore.le s'.rawScore = true) :
    (s.score ρ).le (s'.score ρ) = true :=
  Number.roundTenth_mono hρ h.1 h.2.1 h'.1 ((Number.le_iff_value_le h.1 h'.1).mp hle)

/-- **A report does not score lower if no category does.** -/
theorem overall_mono {weights : Weights} (hweights : weights.Resolved ρ) {bounds : ReportBounds}
    {scoreOf scoreOf' : Category → CategoryScore} (hcategory : ∀ c, (scoreOf c).category = c)
    (hcategory' : ∀ c, (scoreOf' c).category = c) (hwithin : ∀ c, (scoreOf c).rawScore.Within 0 10)
    (hwithin' : ∀ c, (scoreOf' c).rawScore.Within 0 10)
    (hle : ∀ c, (scoreOf c).rawScore.le (scoreOf' c).rawScore = true) {report report' : Report}
    (h : reportOf ρ weights bounds (Category.all.map scoreOf) = .ok report)
    (h' : reportOf ρ weights bounds (Category.all.map scoreOf') = .ok report') :
    report.overall.le report'.overall = true := by
  have hterms : List.Forall₂ (Number.RisesTo ρ)
      ((Category.all.map scoreOf).map fun s => Number.mul ρ (weights.weightOf s.category)
        (s.score ρ))
      ((Category.all.map scoreOf').map fun s => Number.mul ρ (weights.weightOf s.category)
        (s.score ρ)) := by
    rw [List.map_map, List.map_map, List.forall₂_map_left_iff, List.forall₂_map_right_iff,
      List.forall₂_same]
    intro c _
    obtain ⟨hfinite, hnonneg, -⟩ := hweights.weightOf_within c
    simp only [Function.comp_apply, hcategory, hcategory']
    exact Number.risesTo_mul hρ hfinite hnonneg (score_within hρ (hwithin c))
      (score_within hρ (hwithin' c))
      (score_mono hρ (hwithin c) (hwithin' c) (hle c))
  have hsums := Number.risesTo_sum hρ hterms
  -- the weights are the same on both sides, so the divisor is
  have htotal : Number.lt (.finite 0) (weights.total ρ) = true := by
    obtain ⟨hfinite, hlow, -⟩ := hweights.total_within
    exact (Number.lt_iff_value_lt rfl hfinite).mpr
      (lt_of_lt_of_le (by norm_num [Number.value]) hlow)
  have hten : (0 : ℚ) < 10 := by norm_num
  have hmean := Number.clamp_div_mono hρ hten hsums.left.1 hsums.right.1 hsums.le htotal
  obtain ⟨hfinite, hlow, -⟩ :=
    Number.clamp_within hten.le (reportedMean ρ weights (Category.all.map scoreOf))
  have hfinite' :=
    (Number.clamp_within hten.le (reportedMean ρ weights (Category.all.map scoreOf'))).1
  obtain ⟨rs, -, rfl⟩ := eq_of_reportOf h
  obtain ⟨rs', -, rfl⟩ := eq_of_reportOf h'
  exact Number.roundTenth_mono hρ hfinite hlow hfinite'
    ((Number.le_iff_value_le hfinite hfinite').mp hmean)

end Means

theorem CategoryScore.InRange.within {s : CategoryScore} (h : s.InRange) :
    s.rawScore.Within 0 10 := by
  have hfinite : s.rawScore.isFinite = true := (Number.atLeast_zero h.1).isFinite_of_le rfl h.2
  exact ⟨hfinite, (Number.le_iff_value_le rfl hfinite).mp h.1,
    (Number.le_iff_value_le hfinite rfl).mp h.2⟩

/-- There is a report on a complete set of scores if its recommendations can be written. It is made
of the scores as a function of the category. -/
theorem CompleteScores.exists_report (hρ : ρ.IsMonotone) {scores : List CategoryScore}
    (hcomplete : CompleteScores scores) (hrange : ∀ s ∈ scores, s.InRange)
    {overrides weights : Weights} (hresolve : Weights.resolve ρ overrides = .ok weights)
    (hweights : weights.Resolved ρ) {bounds : ReportBounds}
    (hwritable : AreWritable bounds.most scores) :
    ∃ (scoreOf : Category → CategoryScore) (report : Report), (∀ c, (scoreOf c).category = c) ∧
      (Category.all.map scoreOf).Perm scores ∧
        (∀ s ∈ Category.all.map scoreOf, s.rawScore.Within 0 10) ∧
      aggregate ρ scores overrides bounds = .ok report ∧
      reportOf ρ weights bounds (Category.all.map scoreOf) = .ok report := by
  obtain ⟨scoreOf, hcategory, hperm, hordered⟩ := hcomplete.exists_scoreOf
  have hwithin : ∀ s ∈ Category.all.map scoreOf, s.rawScore.Within 0 10 :=
    fun s hs => (hrange s (hperm.mem_iff.mp hs)).within
  obtain ⟨report, hreport, -⟩ :=
    reportOf_eq_ok hρ hweights bounds rfl hwithin ((areWritable_perm hperm).mpr hwritable)
  refine ⟨scoreOf, report, hcategory, hperm, hwithin, ?_, hreport⟩
  rw [aggregate_eq_reportOf hcomplete hresolve, hordered, hreport]

theorem mem_of_perm_all {scoreOf : Category → CategoryScore} {scores : List CategoryScore}
    (h : (Category.all.map scoreOf).Perm scores) (c : Category) : scoreOf c ∈ scores :=
  h.mem_iff.mp (List.mem_map_of_mem (Category.mem_all c))

/-- A report on a complete set of scores is made of the scores as a function of the category. -/
theorem CompleteScores.exists_reportOf {scores : List CategoryScore}
    (hcomplete : CompleteScores scores) {overrides weights : Weights}
    (hresolve : Weights.resolve ρ overrides = .ok weights) {bounds : ReportBounds} {report : Report}
    (h : aggregate ρ scores overrides bounds = .ok report) :
    ∃ scoreOf : Category → CategoryScore, (∀ c, (scoreOf c).category = c) ∧
      (Category.all.map scoreOf).Perm scores ∧
      reportOf ρ weights bounds (Category.all.map scoreOf) = .ok report := by
  obtain ⟨scoreOf, hcategory, hperm, hordered⟩ := hcomplete.exists_scoreOf
  rw [aggregate_eq_reportOf hcomplete hresolve, hordered] at h
  exact ⟨scoreOf, hcategory, hperm, h⟩

/-- Two complete sets of scores side by side, combined with the same weights. -/
theorem aggregate_mono (hρ : ρ.IsMonotone) {scores scores' : List CategoryScore}
    (hcomplete : CompleteScores scores) (hcomplete' : CompleteScores scores')
    (hrange : ∀ s ∈ scores, s.InRange) (hrange' : ∀ s ∈ scores', s.InRange)
    (hle : ∀ s ∈ scores, ∀ s' ∈ scores', s.category = s'.category →
      s.rawScore.le s'.rawScore = true)
    {overrides weights : Weights} (hresolve : Weights.resolve ρ overrides = .ok weights)
    (hweights : weights.Resolved ρ) {bounds : ReportBounds} {report report' : Report}
    (h : aggregate ρ scores overrides bounds = .ok report)
    (h' : aggregate ρ scores' overrides bounds = .ok report') :
    report.overall.le report'.overall = true := by
  obtain ⟨scoreOf, hcategory, hperm, h⟩ := hcomplete.exists_reportOf hresolve h
  obtain ⟨scoreOf', hcategory', hperm', h'⟩ := hcomplete'.exists_reportOf hresolve h'
  have hmem := mem_of_perm_all hperm
  have hmem' := mem_of_perm_all hperm'
  refine overall_mono hρ hweights hcategory hcategory' (fun c => (hrange _ (hmem c)).within)
    (fun c => (hrange' _ (hmem' c)).within) (fun c => ?_) h h'
  exact hle _ (hmem c) _ (hmem' c) ((hcategory c).trans (hcategory' c).symm)

namespace Registry

/-! ## One registry -/

/-- Whatever is called, a rule of a category was there before or was registered, with a weight in
range. -/
theorem mem_rulesFor_afterAll {calls : List Call} {r : Registry} {c : Category} {rule : Rule}
    (h : rule ∈ (r.afterAll ρ calls).rulesFor c) :
    rule ∈ r.rulesFor c ∨ (Call.register rule ∈ calls ∧ Number.lt (.finite 0) rule.weight = true ∧
      rule.weight.le (.finite 1) = true) := by
  induction calls generalizing r with
  | nil => exact Or.inl h
  | cons call rest ih =>
      rcases ih h with hbefore | ⟨hcall, hweight⟩
      · -- only a call that is accepted adds to a category, after it checked the weight
        rcases perform_cases ρ call r with ⟨-, hsame, -⟩ | ⟨other, rfl, haccepts, hadd, -⟩ | ⟨-, -,
          hfreeze, -⟩
        · exact Or.inl (hsame ▸ hbefore)
        · rw [hadd, rulesFor_added] at hbefore
          by_cases hc : c = other.category
          · rw [if_pos hc, List.mem_append, List.mem_singleton] at hbefore
            rcases hbefore with hbefore | rfl
            · exact Or.inl hbefore
            · exact Or.inr ⟨List.mem_cons_self, haccepts.positive, haccepts.atMostOne⟩
          · rw [if_neg hc] at hbefore
            exact Or.inl hbefore
        · rw [hfreeze] at hbefore
          exact Or.inl hbefore
      · exact Or.inr ⟨List.mem_cons_of_mem _ hcall, hweight⟩

/-- The weights in a registry count. -/
theorem isWeight_of_mem_activeRules {calls : List Call}
    (hkept : ∀ rule, Call.register rule ∈ calls → rule.weight.KeptBy ρ)
    {active : Option (List String)} {c : Category} {rule : Rule}
    (h : rule ∈ (empty.afterAll ρ calls).activeRules active c) : rule.weight.IsWeight ρ := by
  rcases mem_rulesFor_afterAll (List.mem_filter.mp h).1 with hempty | ⟨hcall, hpos, hone⟩
  · cases hempty
  · exact isWeight_of_range hpos hone (hkept rule hcall)

/-- Rules with other results in the places of the rules of a registry. -/
theorem evaluate_mono (hρ : ρ.IsMonotone) {calls : List Call}
    (hkept : ∀ rule, Call.register rule ∈ calls → rule.weight.KeptBy ρ) {f : Rule → Rule}
    (hf : KeepsPlace f) {m m' : FactModel} {active : Option (List String)} {c : Category}
    (hcontained : ∀ rule ∈ (empty.afterAll ρ calls).activeRules active c,
      rule.IsContained m ∧ (f rule).IsContained m')
    (h : ∀ rule ∈ (empty.afterAll ρ calls).activeRules active c,
      (rule.run m).outcome.AtMost ((f rule).run m').outcome) :
    ∃ s s', evaluate ρ m (empty.afterAll ρ calls) active c = .ok s ∧
      evaluate ρ m' (empty.afterAll ρ (calls.map (Call.map f))) active c = .ok s' ∧
        s.rawScore.le s'.rawScore = true := by
  have hmapped : empty.afterAll ρ (calls.map (Call.map f)) = (empty.afterAll ρ calls).mapRules f :=
    afterAll_mapRules hf ρ calls empty
  have hcontained' : ∀ rule ∈ ((empty.afterAll ρ calls).mapRules f).activeRules active c,
      rule.IsContained m' := by
    rw [activeRules_mapRules hf, List.forall_mem_map]
    exact fun rule hrule => (hcontained rule hrule).2
  rw [hmapped, evaluate_of_isContained fun rule hrule => (hcontained rule hrule).1,
    evaluate_of_isContained hcontained', activeRules_mapRules hf, List.map_map]
  refine scoreOfRuns_mono hρ c ?_
  rw [List.forall₂_map_left_iff, List.forall₂_map_right_iff, List.forall₂_same]
  intro rule hrule
  exact run_below (hf.weight_eq rule).symm (isWeight_of_mem_activeRules hkept hrule) (h rule hrule)

end Registry

/-- **Scores keep order, with or without rounding.** A result that applies in the same cases with no
higher score counts at most as much. If that is so for all active rules of a category, in whatever
registry, the category has no higher raw score, where what the rules do is contained. If no category
has a higher raw score, none has a higher reported score, and the overall score with the same
weights is not higher, where the recommendations can be written. -/
theorem scores_keep_order {ρ : Rounding} (hρ : ρ = .exact ∨ ρ = .nearest) :
    (∀ (rule rule' : Rule) (m m' : FactModel) (res res' : RuleResult),
        rule.judge m = .ok res → rule'.judge m' = .ok res' →
        res.applicable = res'.applicable →
          (res.applicable = true → res.score.le res'.score = true) →
          (rule.run m).outcome.AtMost (rule'.run m').outcome) ∧
      (∀ (calls : List Registry.Call) (f : Rule → Rule) (m m' : FactModel)
        (active : Option (List String)) (c : Category),
        (∀ rule, Registry.Call.register rule ∈ calls → rule.weight.KeptBy ρ) →
          Registry.KeepsPlace f →
          let r := Registry.empty.afterAll ρ calls
          let r' := Registry.empty.afterAll ρ (calls.map (Registry.Call.map f))
          (∀ rule ∈ r.activeRules active c, rule.IsContained m ∧ (f rule).IsContained m') →
          (∀ rule ∈ r.activeRules active c, (rule.run m).outcome.AtMost ((f rule).run m').outcome) →
            ∃ s s', evaluate ρ m r active c = .ok s ∧ evaluate ρ m' r' active c = .ok s' ∧
              s.rawScore.le s'.rawScore = true) ∧
      ∀ scores scores' : List CategoryScore, CompleteScores scores → CompleteScores scores' →
        (∀ s ∈ scores, s.InRange) → (∀ s ∈ scores', s.InRange) →
        (∀ s ∈ scores, ∀ s' ∈ scores', s.category = s'.category →
          s.rawScore.le s'.rawScore = true) →
          (∀ s ∈ scores, ∀ s' ∈ scores', s.category = s'.category →
            (s.score ρ).le (s'.score ρ) = true) ∧
            ∀ (overrides weights : Weights) (bounds : ReportBounds),
              Weights.resolve ρ overrides = .ok weights →
              AreWritable bounds.most scores → AreWritable bounds.most scores' →
              ∃ report report', aggregate ρ scores overrides bounds = .ok report ∧
                aggregate ρ scores' overrides bounds = .ok report' ∧
                  report.overall.le report'.overall = true := by
  have hmono : ρ.IsMonotone := by
    rcases hρ with rfl | rfl
    · exact Rounding.isMonotone_exact
    · exact Rounding.isMonotone_nearest
  refine ⟨fun rule rule' m m' res res' => run_atMost, fun calls f m m' active c hkept hf =>
    Registry.evaluate_mono hmono hkept hf, ?_⟩
  intro scores scores' hcomplete hcomplete' hrange hrange' hle
  refine ⟨?_, ?_⟩
  · intro s hs s' hs' hsame
    exact score_mono hmono (hrange s hs).within (hrange' s' hs').within (hle s hs s' hs' hsame)
  · intro overrides weights bounds hresolve hwritable hwritable'
    -- that the weights are sound is shown apart for each of the two arithmetics
    have hweights : weights.Resolved ρ := by
      rcases hρ with rfl | rfl
      · exact Weights.resolved_exact hresolve
      · exact (Weights.resolve_eq_ok hresolve).1
    obtain ⟨-, report, -, -, -, hreport, -⟩ :=
      hcomplete.exists_report hmono hrange hresolve hweights hwritable
    obtain ⟨-, report', -, -, -, hreport', -⟩ :=
      hcomplete'.exists_report hmono hrange' hresolve hweights hwritable'
    exact ⟨report, report', hreport, hreport',
      aggregate_mono hmono hcomplete hcomplete' hrange hrange' hle hresolve hweights hreport
        hreport'⟩

/-- The only rule of a category scores three quarters instead of one quarter; and all categories,
given in reverse, have half a point more. -/
theorem scores_keep_order_raised :
    let weak : Rule :=
      { id := "naming.weak", category := .naming, weight := .finite 1, description := ""
        evaluate := fun _ => .result { score := .finite (1 / 4) } }
    let raised :=
      fun rule : Rule => { rule with evaluate := fun _ => .result { score := .finite (3 / 4) } }
    let calls : List Registry.Call := [.register weak, .freeze]
    let m := FactModel.build [] [] "."
    let scores := Category.all.map fun c => { category := c, rawScore := .finite 3 : CategoryScore }
    let scores' :=
      Category.all.reverse.map fun c =>
        { category := c, rawScore := .finite (7 / 2) : CategoryScore }
    (∀ ρ ∈ [Rounding.exact, .nearest], ∃ s s',
      evaluate ρ m (Registry.empty.afterAll ρ calls) none .naming = .ok s ∧
        evaluate ρ m (Registry.empty.afterAll ρ (calls.map (Registry.Call.map raised))) none
          .naming = .ok s' ∧
        s.rawScore.le s'.rawScore = true) ∧
      CompleteScores scores ∧ CompleteScores scores' ∧
      ∃ report report', aggregate .exact scores [] {} = .ok report ∧
        aggregate .exact scores' [] {} = .ok report' ∧
        report.overall.le report'.overall = true := by
  intro weak raised calls m scores scores'
  have hregistered : ∀ rule, Registry.Call.register rule ∈ calls → rule = weak := by
    intro rule hrule
    simpa [calls] using hrule
  -- both arithmetics keep the weight of one, which is all they differ in here
  have hraised : ∀ ρ, ρ = .exact ∨ ρ = .nearest → weak.weight.KeptBy ρ →
      ∃ s s', evaluate ρ m (Registry.empty.afterAll ρ calls) none .naming = .ok s ∧
        evaluate ρ m (Registry.empty.afterAll ρ (calls.map (Registry.Call.map raised))) none
          .naming = .ok s' ∧
        s.rawScore.le s'.rawScore = true := by
    intro ρ hρ hkept
    obtain ⟨hresults, hcategory, -⟩ := scores_keep_order hρ
    refine hcategory calls raised m m none .naming ?_
      ⟨fun _ => rfl, fun _ => rfl, fun _ => rfl⟩ ?_ ?_
    · intro rule hrule
      rw [hregistered rule hrule]
      exact hkept
    · intro rule hrule
      rcases Registry.mem_rulesFor_afterAll (List.mem_filter.mp hrule).1 with hempty | ⟨hcall, -⟩
      · cases hempty
      · rw [hregistered rule hcall]
        exact ⟨isContained_of_result rfl, isContained_of_result rfl⟩
    · intro rule hrule
      rcases Registry.mem_rulesFor_afterAll (List.mem_filter.mp hrule).1 with hempty | ⟨hcall, -⟩
      · cases hempty
      · rw [hregistered rule hcall]
        exact hresults weak (raised weak) m m _ _ rfl rfl rfl fun _ => by decide +kernel
  obtain ⟨-, -, hreports⟩ := scores_keep_order (ρ := .exact) (Or.inl rfl)
  have hcomplete : CompleteScores scores := List.Perm.of_eq (by decide)
  have hcomplete' : CompleteScores scores' := by
    have hreverse : scores'.map (·.category) = Category.all.reverse := by decide
    exact (List.Perm.of_eq hreverse).trans (List.reverse_perm _)
  refine ⟨?_, hcomplete, hcomplete', ?_⟩
  · rintro ρ (- | ⟨-, - | ⟨-, ⟨⟩⟩⟩)
    · exact hraised .exact (Or.inl rfl) (Number.keptBy_exact _)
    · exact hraised .nearest (Or.inr rfl) (Number.keptBy_nearest (by decide +kernel))
  · have hscores : ∀ s ∈ scores, s.rawScore = .finite 3 := by
      intro s hs
      obtain ⟨c, -, rfl⟩ := List.mem_map.mp hs
      rfl
    have hscores' : ∀ s ∈ scores', s.rawScore = .finite (7 / 2) := by
      intro s hs
      obtain ⟨c, -, rfl⟩ := List.mem_map.mp hs
      rfl
    have hnone :
        ∀ cs : List Category, ∀ raw,
          ∀ s ∈ cs.map (fun c => { category := c, rawScore := raw : CategoryScore }),
        ∀ f ∈ s.findings, f.HasWritablePlace := by
      intro cs raw s hs f hf
      obtain ⟨c, -, rfl⟩ := List.mem_map.mp hs
      cases hf
    refine (hreports scores scores' hcomplete hcomplete' ?_ ?_ ?_).2 [] (Weights.withDefaults []) {}
      (by decide +kernel)
      (areWritable_of_findings (hnone _ _) _) (areWritable_of_findings (hnone _ _) _)
    · intro s hs
      rw [CategoryScore.InRange, hscores s hs]
      decide +kernel
    · intro s hs
      rw [CategoryScore.InRange, hscores' s hs]
      decide +kernel
    · intro s hs s' hs' _
      rw [hscores s hs, hscores' s' hs']
      decide +kernel

end Scorecard
