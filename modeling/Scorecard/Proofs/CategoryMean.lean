import Mathlib.Data.Finset.Max
import Scorecard.Proofs.LocatedFindings
import Scorecard.Proofs.ReportedMean

set_option autoImplicit false

/-! # The mean of a category

In exact arithmetic the score of a category is ten times a weighted mean (`meanScore`) of the scores
of the outcomes that apply. A registry accepts positive weights only, so there is something to
divide by, and the mean lies between the lowest and the highest of these scores
(`category_mean_between`). What moves the mean into the range from zero to one, and what checks the
score afterwards, is there for rounding alone.
-/

namespace Scorecard

/-! ## Means of outcomes -/

/-- The weighted mean of the scores of some outcomes. -/
def meanScore (os : List Outcome) : ℚ :=
  (os.map fun o => o.weight.value * o.score.value).sum / (os.map fun o => o.weight.value).sum

section Means

variable {os : List Outcome} (hweight : ∀ o ∈ os, o.weight.IsWeight .exact)
  (hscore : ∀ o ∈ os, o.score.Within 0 1)
  (hne : os ≠ [])
include hweight

theorem sum_outcome_weights : Number.sum .exact (os.map (·.weight)) = .finite
    (os.map fun o => o.weight.value).sum := by
  rw [Number.sum_exact, List.map_map]
  · rfl
  · intro w hw
    obtain ⟨o, ho, rfl⟩ := List.mem_map.mp hw
    exact (hweight o ho).1

include hne

theorem sum_outcome_weights_pos : 0 < (os.map fun o => o.weight.value).sum := by
  refine List.sum_pos _ ?_ (by simpa using hne)
  intro x hx
  obtain ⟨o, ho, rfl⟩ := List.mem_map.mp hx
  exact (hweight o ho).2.1

/-- A mean is at least a common lower bound of the scores. -/
theorem le_meanScore {low : ℚ} (h : ∀ o ∈ os, low ≤ o.score.value) : low ≤ meanScore os := by
  rw [meanScore, le_div_iff₀ (sum_outcome_weights_pos hweight hne)]
  exact mul_sum_le_sum (fun o ho => (hweight o ho).2.1.le) fun o ho _ => h o ho

/-- A mean is at most a common upper bound of the scores. -/
theorem meanScore_le {high : ℚ} (h : ∀ o ∈ os, o.score.value ≤ high) : meanScore os ≤ high := by
  rw [meanScore, div_le_iff₀ (sum_outcome_weights_pos hweight hne)]
  exact sum_le_mul_sum (fun o ho => (hweight o ho).2.1.le) fun o ho _ => h o ho

include hscore

theorem meanScore_within : 0 ≤ meanScore os ∧ meanScore os ≤ 1 :=
  ⟨le_meanScore hweight hne fun o ho => (hscore o ho).2.1,
    meanScore_le hweight hne fun o ho => (hscore o ho).2.2⟩

theorem weightedMean_exact : weightedMean .exact os = .ok (.finite (meanScore os)) := by
  have hpos := sum_outcome_weights_pos hweight hne
  have hproduct : ∀ o ∈ os, (Number.mul .exact o.weight o.score).isFinite = true ∧
      (Number.mul .exact o.weight o.score).value = o.weight.value * o.score.value := fun o ho =>
    Number.mul_exact (hweight o ho).1 (hscore o ho).1
  have hproducts : Number.sum .exact (os.map fun o => Number.mul .exact o.weight o.score) =
      .finite (os.map fun o => o.weight.value * o.score.value).sum := by
    rw [Number.sum_exact, List.map_map]
    · congr 2
      exact List.map_congr_left fun o ho => (hproduct o ho).2
    · intro x hx
      obtain ⟨o, ho, rfl⟩ := List.mem_map.mp hx
      exact (hproduct o ho).1
  -- the weights are positive, so that the division is defined
  have hzero : (Number.finite (os.map fun o => o.weight.value).sum).isZero = false := by
    simpa [Number.isZero] using hpos.ne'
  have hnonneg : 0 ≤ (os.map fun o => o.weight.value * o.score.value).sum := by
    have hmean := (meanScore_within hweight hscore hne).1
    rwa [meanScore, le_div_iff₀ hpos, zero_mul] at hmean
  dsimp only [weightedMean]
  rw [sum_outcome_weights hweight, hproducts, if_neg (by simp [hzero]),
    Number.div_exact hnonneg hpos]
  rfl

/-- Moving the mean into the range from zero to one leaves it as it is. -/
theorem clamp_meanScore : (Number.finite (meanScore os)).clamp (.finite 0) (.finite 1) = .finite
    (meanScore os) :=
  Number.clamp_finite (meanScore_within hweight hscore hne).1
    (meanScore_within hweight hscore hne).2

/-- The raw score that the mean gives. -/
theorem ten_mul_mean_exact {mean : Number} (h : weightedMean .exact os = .ok mean) :
    let raw := Number.mul .exact (.finite 10) (mean.clamp (.finite 0) (.finite 1))
    raw.isFinite = true ∧ raw.value = 10 * meanScore os := by
  rw [weightedMean_exact hweight hscore hne] at h
  cases h
  rw [clamp_meanScore hweight hscore hne]
  exact Number.mul_exact (a := .finite 10) (b := .finite (meanScore os)) rfl rfl

end Means

/-! ## The outcomes that apply -/

theorem run_score {rule : Rule} {m : FactModel} (h : (rule.answer m).applicable = true) :
    (rule.run m).outcome.score = (rule.answer m).score.clamp (.finite 0) (.finite 1) := by
  unfold Rule.answer at h ⊢
  unfold Rule.run
  cases hjudge : rule.judge m with
  | ok res =>
      rw [hjudge] at h
      dsimp only at h ⊢
      rw [if_pos h]
  | error f =>
      have hzero : Number.finite 0 = (Number.finite 0).clamp (.finite 0) (.finite 1) := by decide
      exact hzero

/-- The outcomes of the rules that apply. -/
def appliedOutcomes (m : FactModel) (rules : List Rule) : List Outcome :=
  ((rules.map (·.run m)).map (·.outcome)).filter (·.applicable)

theorem mem_appliedOutcomes {m : FactModel} {rules : List Rule} {o : Outcome} :
    o ∈ appliedOutcomes m rules ↔ ∃ rule ∈ rules, (rule.answer m).applicable = true ∧
      (rule.run m).outcome = o := by
  rw [appliedOutcomes, List.map_map, List.mem_filter, List.mem_map]
  constructor
  · rintro ⟨⟨rule, hrule, rfl⟩, happ⟩
    exact ⟨rule, hrule, run_applicable rule m ▸ happ, rfl⟩
  · rintro ⟨rule, hrule, happ, rfl⟩
    exact ⟨⟨rule, hrule, rfl⟩, (run_applicable rule m).trans happ⟩

theorem appliedOutcomes_within {m : FactModel} {rules : List Rule} :
    ∀ o ∈ appliedOutcomes m rules, o.score.Within 0 1 := by
  intro o ho
  obtain ⟨rule, -, happ, rfl⟩ := mem_appliedOutcomes.mp ho
  exact run_score_within ((run_applicable rule m).trans happ)

theorem appliedOutcomes_isWeight {m : FactModel} {rules : List Rule}
    (hrules : ∀ rule ∈ rules, rule.weight.IsWeight .exact) :
    ∀ o ∈ appliedOutcomes m rules, o.weight.IsWeight .exact := by
  intro o ho
  obtain ⟨rule, hrule, -, rfl⟩ := mem_appliedOutcomes.mp ho
  rw [run_weight]
  exact hrules rule hrule

/-! ## One category -/

section Category

variable {m : FactModel} {r : Registry} {active : Option (List String)} {c : Category}
  {s : CategoryScore}

/-- A category is vacuous exactly if no outcome applies. -/
theorem vacuous_eq_false_iff (h : evaluate .exact m r active c = .ok s) :
    s.vacuous = false ↔ appliedOutcomes m (r.activeRules active c) ≠ [] := by
  rw [← Bool.not_eq_true, (evaluate_accountsFor h).2.vacuous_iff, ← not_iff_not, not_not, not_not,
    List.eq_nil_iff_forall_not_mem]
  constructor
  · rintro hquiet o ho
    obtain ⟨rule, hrule, happ, -⟩ := mem_appliedOutcomes.mp ho
    rw [hquiet rule hrule] at happ
    cases happ
  · intro hnone rule hrule
    by_contra happ
    exact hnone _ (mem_appliedOutcomes.mpr ⟨rule, hrule, by simpa using happ, rfl⟩)

/-- The raw score of a category that is not vacuous is ten times the mean of the outcomes. -/
theorem rawScore_exact (h : evaluate .exact m r active c = .ok s)
    (hrules : ∀ rule ∈ r.activeRules active c, rule.weight.IsWeight .exact)
    (hvacuous : s.vacuous = false) :
    let os := appliedOutcomes m (r.activeRules active c)
    os ≠ [] ∧ s.rawScore.isFinite = true ∧ s.rawScore.value = 10 * meanScore os := by
  intro os
  have hne : os ≠ [] := (vacuous_eq_false_iff h).mp hvacuous
  rcases rawScore_of_scoreOfRuns (Registry.scoreOfRuns_of_evaluate h) with ⟨hnone, -⟩ | ⟨-, mean,
    hmean, hraw⟩
  · exact absurd hnone hne
  · rw [hraw]
    exact ⟨hne, ten_mul_mean_exact (appliedOutcomes_isWeight hrules) appliedOutcomes_within hne
      hmean⟩

end Category

/-- **The mean of a category.** In every category with an outcome that applies, the applicable
weights have a positive sum, so their mean is defined. Ten times this mean is the raw score of the
category: the mean lies between the lowest and the highest score of an outcome that applies, which
are scores moved into the range from zero to one, so that nothing is left to move, and no score is
out of range. The category has such a score if what its rules do is contained. -/
theorem category_mean_between (ρ : Rounding) (calls : List Registry.Call) (m : FactModel)
    (active : Option (List String)) (c : Category) :
    let r := Registry.empty.afterAll ρ calls
    let os := appliedOutcomes m (r.activeRules active c)
    os ≠ [] →
      (∀ o ∈ os, ∃ rule ∈ r.activeRules active c, (rule.run m).outcome = o ∧
        o.score = (rule.answer m).score.clamp (.finite 0) (.finite 1)) ∧
      Number.lt (.finite 0) (Number.sum .exact (os.map (·.weight))) = true ∧
      ∃ mean, weightedMean .exact os = .ok mean ∧ mean.clamp (.finite 0) (.finite 1) = mean ∧
        ((∀ rule ∈ r.activeRules active c, rule.IsContained m) →
          ∃ s, evaluate .exact m r active c = .ok s) ∧
        ∀ s, evaluate .exact m r active c = .ok s →
          s.InRange ∧ s.vacuous = false ∧ s.outcomes.filter (·.applicable) = os ∧
          s.rawScore.isFinite = true ∧ s.rawScore.value / 10 = mean.value ∧
          ∃ lowest ∈ os, ∃ highest ∈ os,
            (∀ o ∈ os, lowest.score.value ≤ o.score.value ∧ o.score.value ≤ highest.score.value) ∧
            lowest.score.value ≤ s.rawScore.value / 10 ∧
              s.rawScore.value / 10 ≤ highest.score.value := by
  intro r os hne
  -- a weight is accepted if it is above zero and at most one, however the sums of weights are
  -- rounded
  have hrules : ∀ rule ∈ r.activeRules active c, rule.weight.IsWeight .exact := by
    intro rule hrule
    rcases Registry.mem_rulesFor_afterAll (List.mem_filter.mp hrule).1 with hempty | ⟨-, hpositive,
      hatMostOne⟩
    · cases hempty
    · exact isWeight_of_range hpositive hatMostOne (Number.keptBy_exact _)
  have hweight : ∀ o ∈ os, o.weight.IsWeight .exact := appliedOutcomes_isWeight hrules
  have hscore : ∀ o ∈ os, o.score.Within 0 1 := appliedOutcomes_within
  obtain ⟨s, hruns, hreports⟩ :=
    scoreOfRuns_reports Rounding.isMonotone_exact c ((r.activeRules active c).map (·.run m)) (by
    intro run hrun
    obtain ⟨rule, hrule, rfl⟩ := List.mem_map.mp hrun
    rw [run_weight]
    exact hrules rule hrule)
  refine ⟨?_, ?_, .finite (meanScore os), weightedMean_exact hweight hscore hne,
    clamp_meanScore hweight hscore hne, ?_, ?_⟩
  · intro o ho
    obtain ⟨rule, hrule, happ, rfl⟩ := mem_appliedOutcomes.mp ho
    exact ⟨rule, hrule, rfl, run_score happ⟩
  · rw [sum_outcome_weights hweight, Number.lt_iff_value_lt rfl rfl]
    exact sum_outcome_weights_pos hweight hne
  · intro hcontained
    exact ⟨s, by rw [Registry.evaluate_of_isContained hcontained, hruns]⟩
  intro s' hs
  -- a score that there is, is the one that the runs give
  obtain rfl : s = s' := Except.ok.inj (hruns.symm.trans (Registry.scoreOfRuns_of_evaluate hs))
  have hvacuous : s.vacuous = false := (vacuous_eq_false_iff hs).mpr hne
  obtain ⟨-, hfinite, hvalue⟩ := rawScore_exact hs hrules hvacuous
  have htenth : s.rawScore.value / 10 = meanScore os := by
    rw [hvalue]
    exact mul_div_cancel_left₀ _ (by norm_num)
  have hsome : os.toFinset.Nonempty := List.toFinset_nonempty_iff os |>.mpr hne
  obtain ⟨lowest, hlowest, hlow⟩ := os.toFinset.exists_min_image (·.score.value) hsome
  obtain ⟨highest, hhighest, hhigh⟩ := os.toFinset.exists_max_image (·.score.value) hsome
  simp only [List.mem_toFinset] at hlowest hlow hhighest hhigh
  refine ⟨hreports.within.le_and_le, hvacuous, ?_, hfinite, htenth, lowest, hlowest, highest,
    hhighest, fun o ho => ⟨hlow o ho, hhigh o ho⟩, ?_, ?_⟩
  · rw [hreports.outcomes_eq]
    rfl
  · rw [htenth]
    exact le_meanScore hweight hne hlow
  · rw [htenth]
    exact meanScore_le hweight hne hhigh

/-- A score above one and one of a half count as one and a half, and a rule that does not apply does
not count. -/
theorem category_mean_between_clamped :
    let high : Rule :=
      { id := "naming.high", category := .naming, weight := .finite (1 / 4), description := ""
        evaluate := fun _ => .result { score := .finite 7 } }
    let half : Rule :=
      { high with id := "naming.half", evaluate := fun _ => .result { score := .finite (1 / 2) } }
    let quiet : Rule :=
      { high with
        id := "naming.quiet", weight := .finite (1 / 2)
        evaluate := fun _ => .result .notApplicable }
    let r :=
      Registry.empty.afterAll .exact [.register high, .register half, .register quiet, .freeze]
    let m := FactModel.build [] [] "."
    appliedOutcomes m (r.activeRules none .naming) ≠ [] ∧
      ∃ s, evaluate .exact m r none .naming = .ok s ∧ 1 / 2 ≤ s.rawScore.value / 10 ∧
        s.rawScore.value / 10 ≤ 1 := by
  intro high half quiet r m
  have hne : appliedOutcomes m (r.activeRules none .naming) ≠ [] := by decide +kernel
  have hscores : ∀ o ∈ appliedOutcomes m (r.activeRules none .naming), 1 / 2 ≤ o.score.value ∧
      o.score.value ≤ 1 := by
    decide +kernel
  have hcontained : ∀ rule ∈ r.activeRules none .naming, rule.IsContained m := by
    intro rule hrule
    have hin : rule ∈ r.rulesFor .naming := (List.mem_filter.mp hrule).1
    rcases Registry.mem_rulesFor_afterAll hin with hempty | ⟨hcall, -⟩
    · cases hempty
    · have hcases : rule = high ∨ rule = half ∨ rule = quiet := by simpa using hcall
      rcases hcases with rfl | rfl | rfl <;> exact isContained_of_result rfl
  obtain ⟨-, -, mean, -, -, hexists, hmean⟩ :=
    category_mean_between .exact [.register high, .register half, .register quiet, .freeze] m none
      .naming hne
  obtain ⟨s, hs⟩ := hexists hcontained
  obtain ⟨-, -, -, -, -, lowest, hlowest, highest, hhighest, -, hlow, hhigh⟩ := hmean s hs
  exact ⟨hne, s, hs, (hscores lowest hlowest).1.trans hlow,
    hhigh.trans (hscores highest hhighest).2⟩

end Scorecard
