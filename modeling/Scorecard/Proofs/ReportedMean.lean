import Mathlib.Algebra.BigOperators.Ring.List
import Mathlib.Algebra.Order.BigOperators.Group.List
import Scorecard.Proofs.ScoreOrder

set_option autoImplicit false

/-! # The overall score is a mean of what is reported

Without rounding of the arithmetic, the overall score is the weighted mean of the reported scores,
rounded to tenths (`overall_exact`). It is within half a tenth of this mean. Since the reported
scores are whole tenths as well, rounding does not take it out of their range: it lies between the
smallest and the largest of those that have a weight (`exists_reported_le`, `exists_le_reported`).
-/

namespace Scorecard

/-! ## Tenths -/

/-- The integer to which a quotient is rounded is at most one half away, here in units of half the
divisor. -/
theorem two_mul_roundQuotient {n d : ℕ} (hd : 0 < d) :
    2 * (roundQuotient n d * d) ≤ 2 * n + d ∧ 2 * n ≤ 2 * (roundQuotient n d * d) + d := by
  have hsplit : d * (n / d) + n % d = n := Nat.div_add_mod n d
  have hr : n % d < d := Nat.mod_lt n hd
  rw [Nat.mul_comm] at hsplit
  unfold roundQuotient
  generalize n / d = q at hsplit
  generalize n % d = r at hsplit hr
  dsimp only
  by_cases hlow : 2 * r < d
  · rw [if_pos hlow]
    omega
  · rw [if_neg hlow]
    by_cases hhigh : d < 2 * r
    · rw [if_pos hhigh, Nat.add_mul, Nat.one_mul]
      omega
    · -- exactly halfway, either neighbour is as near
      rw [if_neg hhigh, Nat.add_mul]
      rcases Nat.mod_two_eq_zero_or_one q with heven | hodd
      · rw [heven, Nat.zero_mul]
        omega
      · rw [hodd, Nat.one_mul]
        omega

theorem mul_den_eq_natAbs {x : ℚ} (hx : 0 ≤ x) : x * x.den = x.num.natAbs := by
  rw [Rat.mul_den_eq_num, Nat.cast_natAbs, abs_of_nonneg (Rat.num_nonneg.mpr hx)]

/-- Rounding to tenths moves a value by at most half a tenth. -/
theorem abs_tenths_sub_le {x : ℚ} (hx : 0 ≤ x) : |(Number.tenths x : ℚ) / 10 - x| ≤ 1 / 20 := by
  have hden : (0 : ℚ) < x.den := by exact_mod_cast x.den_pos
  have hnum := mul_den_eq_natAbs hx
  obtain ⟨hlow, hhigh⟩ := two_mul_roundQuotient (n := 10 * x.num.natAbs) x.den_pos
  have hlow' : 2 * ((Number.tenths x : ℚ) * x.den) ≤ 2 * (10 * x.num.natAbs) + x.den := by
    exact_mod_cast hlow
  have hhigh' : 2 * (10 * (x.num.natAbs : ℚ)) ≤ 2 * ((Number.tenths x : ℚ) * x.den) + x.den := by
    exact_mod_cast hhigh
  rw [← hnum] at hlow' hhigh'
  have hupper : 2 * (Number.tenths x : ℚ) ≤ 20 * x + 1 := by
    refine le_of_mul_le_mul_right ?_ hden
    linarith
  have hlower : 20 * x ≤ 2 * (Number.tenths x : ℚ) + 1 := by
    refine le_of_mul_le_mul_right ?_ hden
    linarith
  rw [abs_le]
  constructor
  · linarith
  · linarith

/-! ## Weighted sums -/

section Sums

variable {α : Type} {w v : α → ℚ} {l : List α}

/-- A weighted sum is at least what a lower bound of the values gives; values without weight do not
count. -/
theorem mul_sum_le_sum {low : ℚ} (hw : ∀ a ∈ l, 0 ≤ w a) (hv : ∀ a ∈ l, 0 < w a → low ≤ v a) :
    low * (l.map w).sum ≤ (l.map fun a => w a * v a).sum := by
  rw [← List.sum_map_mul_left]
  refine List.sum_le_sum fun a ha => ?_
  rcases (hw a ha).lt_or_eq with hpos | hzero
  · rw [mul_comm]
    exact mul_le_mul_of_nonneg_left (hv a ha hpos) hpos.le
  · rw [← hzero, mul_zero, zero_mul]

theorem sum_le_mul_sum {high : ℚ} (hw : ∀ a ∈ l, 0 ≤ w a) (hv : ∀ a ∈ l, 0 < w a → v a ≤ high) :
    (l.map fun a => w a * v a).sum ≤ high * (l.map w).sum := by
  rw [← List.sum_map_mul_left]
  refine List.sum_le_sum fun a ha => ?_
  rcases (hw a ha).lt_or_eq with hpos | hzero
  · rw [mul_comm high]
    exact mul_le_mul_of_nonneg_left (hv a ha hpos) hpos.le
  · rw [← hzero, mul_zero, zero_mul]

end Sums

/-! ## The mean -/

/-- What a category counts. -/
def Weights.share (weights : Weights) (s : CategoryScore) : ℚ := (weights.weightOf s.category).value

/-- What is reported of a category. -/
def CategoryScore.reported (s : CategoryScore) : ℚ := (s.score .exact).value

/-- The weighted mean of what is reported. -/
def meanReported (weights : Weights) (scores : List CategoryScore) : ℚ :=
  (scores.map fun s => weights.share s * s.reported).sum / (scores.map weights.share).sum

/-- What is reported is a number of tenths. -/
theorem reported_eq {s : CategoryScore} (h : s.rawScore.Within 0 10) :
    s.reported = Number.tenths s.rawScore.value / 10 :=
  (Number.value_of_place (Number.place_roundTenth Rounding.isMonotone_exact h.1 h.2.1)).2

/-- What is reported and differs from a number of tenths differs by at least one tenth. -/
theorem reported_step {s : CategoryScore} (h : s.rawScore.Within 0 10) (k : ℕ) :
    ((k : ℚ) / 10 < s.reported → ((k : ℚ) + 1) / 10 ≤ s.reported) ∧
      (s.reported < (k : ℚ) / 10 → s.reported ≤ ((k : ℚ) - 1) / 10) := by
  have hten : (0 : ℚ) < 10 := by norm_num
  rw [reported_eq h]
  constructor
  · intro hlt
    have hnat : k + 1 ≤ Number.tenths s.rawScore.value := by
      exact_mod_cast (div_lt_div_iff_of_pos_right hten).mp hlt
    have hcast : (k : ℚ) + 1 ≤ Number.tenths s.rawScore.value := by exact_mod_cast hnat
    exact div_le_div_of_nonneg_right hcast hten.le
  · intro hlt
    have hnat : Number.tenths s.rawScore.value + 1 ≤ k := by
      exact_mod_cast (div_lt_div_iff_of_pos_right hten).mp hlt
    have hcast : (Number.tenths s.rawScore.value : ℚ) + 1 ≤ k := by exact_mod_cast hnat
    exact div_le_div_of_nonneg_right (by linarith) hten.le

theorem reported_within {s : CategoryScore} (h : s.rawScore.Within 0 10) :
    0 ≤ s.reported ∧ s.reported ≤ 10 :=
  (score_within Rounding.isMonotone_exact h).2

theorem share_nonneg {weights : Weights} (h : weights.Resolved .exact) (s : CategoryScore) :
    0 ≤ weights.share s :=
  (h.weightOf_within s.category).2.1

/-- The divisor of the mean is the sum of the shares: each weight is the share of one score. -/
theorem total_eq_sum_share {overrides weights : Weights}
    (h : Weights.resolve .exact overrides = .ok weights) {scores : List CategoryScore}
    (hall : scores.map (·.category) = Category.all) :
    weights.total .exact = .finite (scores.map weights.share).sum := by
  obtain ⟨rfl, hsound, -⟩ := Weights.resolve_eq_ok_iff_sound.mp h
  -- there is one score for each category, in the order of the weights
  have hshares : scores.map (Weights.withDefaults overrides).share =
      (Weights.withDefaults overrides).map fun p => p.2.value := by
    calc scores.map (Weights.withDefaults overrides).share =
          (scores.map (·.category)).map fun c =>
            ((Weights.withDefaults overrides).weightOf c).value := by
            rw [List.map_map]
            rfl
      _ = Category.all.map fun c => ((overrides.reverse.lookup c).getD defaultWeight).value := by
            rw [hall]
            refine List.map_congr_left fun c hc => ?_
            rw [Weights.weightOf, Weights.withDefaults_eq_map, Weights.lookup_map_self _ hc]
            rfl
      _ = (Weights.withDefaults overrides).map fun p => p.2.value := by
            rw [Weights.withDefaults_eq_map, List.map_map]
            rfl
  rw [hshares, Weights.total_exact (Weights.sound_withDefaults hsound)]

section Mean

variable {overrides weights : Weights} (hresolve : Weights.resolve .exact overrides = .ok weights)
  {scores : List CategoryScore} (hall : scores.map (·.category) = Category.all)
  (hscores : ∀ s ∈ scores, s.rawScore.Within 0 10)
include hresolve hall

theorem sum_share_pos : 0 < (scores.map weights.share).sum := by
  have hwithin := (Weights.resolved_exact hresolve).total_within
  rw [total_eq_sum_share hresolve hall] at hwithin
  exact lt_of_lt_of_le (by norm_num) hwithin.2.1

include hscores

theorem meanReported_within : 0 ≤ meanReported weights scores ∧
    meanReported weights scores ≤ 10 := by
  have hpos := sum_share_pos hresolve hall
  have hshare : ∀ s ∈ scores, 0 ≤ weights.share s :=
    fun s _ => share_nonneg (Weights.resolved_exact hresolve) s
  constructor
  · rw [meanReported, le_div_iff₀ hpos]
    exact mul_sum_le_sum hshare fun s hs _ => (reported_within (hscores s hs)).1
  · rw [meanReported, div_le_iff₀ hpos]
    exact sum_le_mul_sum hshare fun s hs _ => (reported_within (hscores s hs)).2

theorem reportedMean_exact : reportedMean .exact weights scores = .finite
    (meanReported weights scores) := by
  have hpos := sum_share_pos hresolve hall
  -- in exact arithmetic neither the products nor their sum is rounded
  have hproduct :
      ∀ s ∈ scores, (Number.mul .exact (weights.weightOf s.category) (s.score .exact)).isFinite =
        true ∧
      (Number.mul .exact (weights.weightOf s.category) (s.score .exact)).value =
        weights.share s * s.reported := by
    intro s hs
    have hweight := ((Weights.resolved_exact hresolve).weightOf_within s.category).1
    exact Number.mul_exact hweight (score_within Rounding.isMonotone_exact (hscores s hs)).1
  have hsum :
      Number.sum .exact (scores.map fun s => Number.mul .exact (weights.weightOf s.category)
        (s.score .exact)) =
      .finite (scores.map fun s => weights.share s * s.reported).sum := by
    rw [Number.sum_exact, List.map_map]
    · congr 2
      exact List.map_congr_left fun s hs => (hproduct s hs).2
    · intro x hx
      obtain ⟨s, hs, rfl⟩ := List.mem_map.mp hx
      exact (hproduct s hs).1
  have hnonneg : 0 ≤ (scores.map fun s => weights.share s * s.reported).sum := by
    have hmean := (meanReported_within hresolve hall hscores).1
    rwa [meanReported, le_div_iff₀ hpos, zero_mul] at hmean
  rw [reportedMean, hsum, total_eq_sum_share hresolve hall, Number.div_exact hnonneg hpos]
  rfl

/-- The overall score is the mean, rounded to tenths. -/
theorem overall_exact {bounds : ReportBounds} {report : Report}
    (h : reportOf .exact weights bounds scores = .ok report) :
    report.overall = .finite (Number.tenths (meanReported weights scores) / 10) := by
  obtain ⟨hlow, hhigh⟩ := meanReported_within hresolve hall hscores
  obtain ⟨rs, -, rfl⟩ := eq_of_reportOf h
  dsimp only
  rw [reportedMean_exact hresolve hall hscores, Number.clamp_finite hlow hhigh,
    Number.roundTenth_exact hlow]

/-- A score with a weight is at most the overall score: if all were at least a tenth above it, so
would be the mean. -/
theorem exists_reported_le :
    ∃ s ∈ scores, 0 < weights.share s ∧ s.reported ≤ Number.tenths
      (meanReported weights scores) / 10 := by
  have hpos := sum_share_pos hresolve hall
  have hshare : ∀ s ∈ scores, 0 ≤ weights.share s :=
    fun s _ => share_nonneg (Weights.resolved_exact hresolve) s
  have hnear := abs_le.mp (abs_tenths_sub_le (meanReported_within hresolve hall hscores).1)
  set k := Number.tenths (meanReported weights scores)
  by_contra hnone
  have habove : ∀ s ∈ scores, 0 < weights.share s → ((k : ℚ) + 1) / 10 ≤ s.reported := by
    intro s hs hweight
    exact (reported_step (hscores s hs) k).1 (not_le.mp fun hle => hnone ⟨s, hs, hweight, hle⟩)
  have hmean : ((k : ℚ) + 1) / 10 ≤ meanReported weights scores := by
    rw [meanReported, le_div_iff₀ hpos]
    exact mul_sum_le_sum hshare habove
  linarith [hnear.1]

/-- And a score with a weight is at least the overall score. -/
theorem exists_le_reported :
    ∃ s ∈ scores, 0 < weights.share s ∧ Number.tenths
      (meanReported weights scores) / 10 ≤ s.reported := by
  have hpos := sum_share_pos hresolve hall
  have hshare : ∀ s ∈ scores, 0 ≤ weights.share s :=
    fun s _ => share_nonneg (Weights.resolved_exact hresolve) s
  have hnear := abs_le.mp (abs_tenths_sub_le (meanReported_within hresolve hall hscores).1)
  set k := Number.tenths (meanReported weights scores)
  by_contra hnone
  have hbelow : ∀ s ∈ scores, 0 < weights.share s → s.reported ≤ ((k : ℚ) - 1) / 10 := by
    intro s hs hweight
    exact (reported_step (hscores s hs) k).2 (not_le.mp fun hle => hnone ⟨s, hs, hweight, hle⟩)
  have hmean : meanReported weights scores ≤ ((k : ℚ) - 1) / 10 := by
    rw [meanReported, div_le_iff₀ hpos]
    exact sum_le_mul_sum hshare hbelow
  linarith [hnear.2]

end Mean

/-- The mean does not depend on the order of the scores. -/
theorem meanReported_perm {weights : Weights} {scores scores' : List CategoryScore}
    (h : scores.Perm scores') : meanReported weights scores = meanReported weights scores' := by
  rw [meanReported, meanReported, (h.map _).sum_eq, (h.map weights.share).sum_eq]

/-- Nor does it depend on scores without weight. -/
theorem meanReported_congr {weights : Weights} (hweights : weights.Resolved .exact)
    {scoreOf scoreOf' : Category → CategoryScore} (hcategory : ∀ c, (scoreOf c).category = c)
    (hcategory' : ∀ c, (scoreOf' c).category = c)
    (h : ∀ c, 0 < weights.share (scoreOf c) → (scoreOf c).reported = (scoreOf' c).reported) :
    meanReported weights (Category.all.map scoreOf) = meanReported weights
      (Category.all.map scoreOf') := by
  have hshare : ∀ c, weights.share (scoreOf c) = weights.share (scoreOf' c) := by
    intro c
    rw [Weights.share, Weights.share, hcategory, hcategory']
  have hproduct :
      ∀ c, weights.share (scoreOf c) * (scoreOf c).reported =
        weights.share (scoreOf' c) * (scoreOf' c).reported := by
    intro c
    rw [← hshare c]
    rcases (share_nonneg hweights (scoreOf c)).lt_or_eq with hpos | hzero
    · rw [h c hpos]
    · rw [← hzero, zero_mul, zero_mul]
  simp only [meanReported, List.map_map, Function.comp_def, hproduct]
  simp only [hshare]

/-! ## Strengths and weaknesses -/

/-- What a reader sees of a score. -/
def CategoryScore.shown (s : CategoryScore) : Category × ℚ := (s.category, s.reported)

/-- Which scores are listed, and in which order, is decided by what is shown of them. -/
theorem lists_congr {bounds : ReportBounds} {scores scores' : List CategoryScore}
    (hscores : ∀ s ∈ scores, s.rawScore.Within 0 10)
    (hscores' : ∀ s ∈ scores', s.rawScore.Within 0 10)
    (h : scores.map CategoryScore.shown = scores'.map CategoryScore.shown) {weights : Weights}
    {report report' : Report} (hreport : reportOf .exact weights bounds scores = .ok report)
    (hreport' : reportOf .exact weights bounds scores' = .ok report') :
    report.strengths.map CategoryScore.shown = report'.strengths.map CategoryScore.shown ∧
      report.weaknesses.map CategoryScore.shown = report'.weaknesses.map CategoryScore.shown := by
  -- a score compares as the value that is shown
  have hplace : ∀ {s : CategoryScore}, s.rawScore.Within 0 10 →
      (s.score .exact).place = (Number.finite s.reported).place :=
    fun hs => Number.place_of_isFinite (score_within Rounding.isMonotone_exact hs).1
  have hstrengths : ∀ {l : List CategoryScore}, (∀ s ∈ l, s.rawScore.Within 0 10) →
      ((l.filter fun s => bounds.strength.le (s.score .exact)).mergeSort (strongerFirst .exact)).map
          CategoryScore.shown =
        ((l.map CategoryScore.shown).filter fun p =>
            bounds.strength.le (.finite p.2)).mergeSort fun p q =>
          Number.lt (.finite q.2) (.finite p.2) ||
            (!Number.lt (.finite p.2) (.finite q.2) && decide (p.1.order ≤ q.1.order)) := by
    intro l hl
    refine map_filter_mergeSort CategoryScore.shown _ _ _ _ (fun s hs =>
      Number.le_congr rfl (hplace (hl s hs))) fun s hs t ht => ?_
    rw [strongerFirst, Number.lt_congr (hplace (hl t ht)) (hplace (hl s hs)),
      Number.lt_congr (hplace (hl s hs)) (hplace (hl t ht))]
    rfl
  have hweaknesses : ∀ {l : List CategoryScore}, (∀ s ∈ l, s.rawScore.Within 0 10) →
      ((l.filter fun s => (s.score .exact).le bounds.weakness).mergeSort (weakerFirst .exact)).map
          CategoryScore.shown =
        ((l.map CategoryScore.shown).filter fun p =>
            Number.le (.finite p.2) bounds.weakness).mergeSort fun p q =>
          Number.lt (.finite p.2) (.finite q.2) ||
            (!Number.lt (.finite q.2) (.finite p.2) && decide (p.1.order ≤ q.1.order)) := by
    intro l hl
    refine map_filter_mergeSort CategoryScore.shown _ _ _ _ (fun s hs =>
      Number.le_congr (hplace (hl s hs)) rfl) fun s hs t ht => ?_
    rw [weakerFirst, Number.lt_congr (hplace (hl t ht)) (hplace (hl s hs)),
      Number.lt_congr (hplace (hl s hs)) (hplace (hl t ht))]
    rfl
  obtain ⟨rs, -, rfl⟩ := eq_of_reportOf hreport
  obtain ⟨rs', -, rfl⟩ := eq_of_reportOf hreport'
  dsimp only
  rw [hstrengths hscores, hstrengths hscores', hweaknesses hscores, hweaknesses hscores', h]
  exact ⟨rfl, rfl⟩

/-- **The overall score is a true mean of what is reported**, in exact arithmetic. It is a number of
tenths between two of the reported scores that have a weight, and within half a tenth of their
weighted mean. Scores that are reported the same give the same overall score and list the same
strengths and weaknesses, and the overall score does not depend on the scores of categories without
weight. There is such a report if the places that are recommended can be written. -/
theorem overall_is_mean_of_reported {scores : List CategoryScore}
    (hcomplete : CompleteScores scores) (hrange : ∀ s ∈ scores, s.InRange)
    {overrides weights : Weights} (hresolve : Weights.resolve .exact overrides = .ok weights)
    (bounds : ReportBounds) :
    (AreWritable bounds.most scores →
        ∃ report, aggregate .exact scores overrides bounds = .ok report) ∧
      ∀ report, aggregate .exact scores overrides bounds = .ok report →
        (∃ k : ℕ, report.overall = .finite (k / 10)) ∧
        (∃ s ∈ scores, 0 < weights.share s ∧ s.reported ≤ report.overall.value) ∧
        (∃ s ∈ scores, 0 < weights.share s ∧ report.overall.value ≤ s.reported) ∧
        |report.overall.value - meanReported weights scores| ≤ 1 / 20 ∧
        ∀ scores' : List CategoryScore, CompleteScores scores' → (∀ s ∈ scores', s.InRange) →
          ∀ report', aggregate .exact scores' overrides bounds = .ok report' →
            ((∀ s ∈ scores, ∀ s' ∈ scores', s.category = s'.category → s.reported = s'.reported) →
              report.overall = report'.overall ∧
                report.strengths.map CategoryScore.shown =
                  report'.strengths.map CategoryScore.shown ∧
                report.weaknesses.map CategoryScore.shown =
                  report'.weaknesses.map CategoryScore.shown) ∧
            ((∀ s ∈ scores, ∀ s' ∈ scores', s.category = s'.category → 0 < weights.share s →
              s.reported = s'.reported) → report.overall = report'.overall) := by
  have hweights := Weights.resolved_exact hresolve
  refine ⟨fun hwritable => ?_, fun report haggregate => ?_⟩
  · obtain ⟨-, report, -, -, -, hreport, -⟩ :=
      hcomplete.exists_report Rounding.isMonotone_exact hrange hresolve hweights hwritable
    exact ⟨report, hreport⟩
  obtain ⟨scoreOf, hcategory, hperm, hreport⟩ := hcomplete.exists_reportOf hresolve haggregate
  have hall := map_category_map hcategory Category.all
  have hwithin : ∀ s ∈ Category.all.map scoreOf, s.rawScore.Within 0 10 :=
    fun s hs => (hrange s (hperm.mem_iff.mp hs)).within
  have hoverall := overall_exact hresolve hall hwithin hreport
  refine ⟨⟨_, hoverall⟩, ?_, ?_, ?_, ?_⟩
  · obtain ⟨s, hs, hshare, hle⟩ := exists_reported_le hresolve hall hwithin
    rw [hoverall]
    exact ⟨s, hperm.mem_iff.mp hs, hshare, hle⟩
  · obtain ⟨s, hs, hshare, hle⟩ := exists_le_reported hresolve hall hwithin
    rw [hoverall]
    exact ⟨s, hperm.mem_iff.mp hs, hshare, hle⟩
  · rw [hoverall, ← meanReported_perm hperm]
    exact abs_tenths_sub_le (meanReported_within hresolve hall hwithin).1
  · intro scores' hcomplete' hrange' report' haggregate'
    obtain ⟨scoreOf', hcategory', hperm', hreport'⟩ :=
      hcomplete'.exists_reportOf hresolve haggregate'
    have hall' := map_category_map hcategory' Category.all
    have hwithin' : ∀ s ∈ Category.all.map scoreOf', s.rawScore.Within 0 10 :=
      fun s hs => (hrange' s (hperm'.mem_iff.mp hs)).within
    have hmem := mem_of_perm_all hperm
    have hmem' := mem_of_perm_all hperm'
    have hsame : ∀ c, (scoreOf c).category = (scoreOf' c).category :=
      fun c => (hcategory c).trans (hcategory' c).symm
    -- the overall score depends on the scores with a weight only, and both parts below use that
    have hequal :
        (∀ c, 0 < weights.share (scoreOf c) → (scoreOf c).reported = (scoreOf' c).reported) →
        report.overall = report'.overall := by
      intro hreported
      rw [hoverall, overall_exact hresolve hall' hwithin' hreport',
        meanReported_congr hweights hcategory hcategory' hreported]
    refine ⟨?_, ?_⟩
    · intro hreported
      have hshown :
          (Category.all.map scoreOf).map CategoryScore.shown =
            (Category.all.map scoreOf').map CategoryScore.shown := by
        rw [List.map_map, List.map_map]
        refine List.map_congr_left fun c _ => ?_
        exact Prod.ext (hsame c) (hreported _ (hmem c) _ (hmem' c) (hsame c))
      refine ⟨hequal fun c _ => hreported _ (hmem c) _ (hmem' c) (hsame c), ?_⟩
      exact lists_congr hwithin hwithin' hshown hreport hreport'
    · intro hreported
      exact hequal fun c => hreported _ (hmem c) _ (hmem' c) (hsame c)

/-- A category without weight goes from three to nine, and the overall score stays. -/
theorem overall_is_mean_of_reported_unweighted :
    let overrides : Weights := [(.layout, .finite 0), (.naming, .finite (1 / 5))]
    let scoresWith := fun x : ℚ => Category.all.reverse.map fun c =>
      { category := c, rawScore := .finite (if c = .layout then x else 157 / 20) : CategoryScore }
    CompleteScores (scoresWith 3) ∧ (∀ s ∈ scoresWith 3, s.InRange) ∧
      ∃ report report', aggregate .exact (scoresWith 3) overrides {} = .ok report ∧
        aggregate .exact (scoresWith 9) overrides {} = .ok report' ∧
          (∃ k : ℕ, report.overall = .finite (k / 10)) ∧
        report.overall = report'.overall := by
  intro overrides scoresWith
  have hcomplete : ∀ x, CompleteScores (scoresWith x) := by
    intro x
    have hreverse : (scoresWith x).map (·.category) = Category.all.reverse := by
      rw [List.map_map]
      exact List.map_id _
    exact (List.Perm.of_eq hreverse).trans (List.reverse_perm _)
  have hrange : ∀ x : ℚ, 0 ≤ x → x ≤ 10 → ∀ s ∈ scoresWith x, s.InRange := by
    intro x hlow hhigh s hs
    obtain ⟨c, -, rfl⟩ := List.mem_map.mp hs
    refine Number.Within.le_and_le (Number.within_finite ?_ ?_)
    · split
      · exact hlow
      · norm_num
    · split
      · exact hhigh
      · norm_num
  have hresolve : Weights.resolve .exact overrides = .ok (Weights.withDefaults overrides) := by
    decide +kernel
  have hzero : (Weights.withDefaults overrides).weightOf .layout = .finite 0 := by decide +kernel
  have hwritable : ∀ x, AreWritable 5 (scoresWith x) := by
    refine fun x => areWritable_of_findings (fun s hs f hf => ?_) 5
    obtain ⟨c, -, rfl⟩ := List.mem_map.mp hs
    cases hf
  obtain ⟨hexists, hmean⟩ :=
    overall_is_mean_of_reported (hcomplete 3) (hrange 3 (by norm_num) (by norm_num)) hresolve {}
  obtain ⟨report, hreport⟩ := hexists (hwritable 3)
  obtain ⟨htenths, -, -, -, hothers⟩ := hmean report hreport
  obtain ⟨report', hreport'⟩ :=
    (overall_is_mean_of_reported (hcomplete 9) (hrange 9 (by norm_num) (by norm_num)) hresolve {}).1
      (hwritable 9)
  obtain ⟨-, hsame⟩ :=
    hothers (scoresWith 9) (hcomplete 9) (hrange 9 (by norm_num) (by norm_num)) report' hreport'
  refine ⟨hcomplete 3, hrange 3 (by norm_num) (by norm_num), report, report', hreport, hreport',
    htenths, hsame ?_⟩
  intro s hs s' hs' hcategory hshare
  obtain ⟨c, -, rfl⟩ := List.mem_map.mp hs
  obtain ⟨c', -, rfl⟩ := List.mem_map.mp hs'
  -- a category with a weight is not the one that changes
  have hne : c ≠ .layout := by
    rintro rfl
    rw [Weights.share, hzero] at hshare
    exact absurd hshare (lt_irrefl _)
  have hc : c = c' := hcategory
  subst hc
  simp only [CategoryScore.reported, CategoryScore.score, hne, if_false]

end Scorecard
