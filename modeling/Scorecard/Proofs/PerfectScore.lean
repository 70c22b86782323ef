import Scorecard.Proofs.CategoryMean
import Scorecard.Proofs.RuleForm

set_option autoImplicit false

/-! # A perfect score means that nothing was found

In exact arithmetic a category that is not vacuous scores ten exactly if no rule found anything
(`evaluate_perfect_iff`). The score of every built-in rule is one exactly if it has no findings
(`JudgementForm.isFair`), and since all weights are positive, a mean of such scores is one only if
all of them are. If all categories score ten, the report has nothing to say but strengths
(`perfect_score_iff_no_findings`).
-/

namespace Scorecard

variable {m : FactModel} {scores : List CategoryScore}

/-! ## Exact values -/

namespace Number

theorem value_neg {a : Number} (h : a.isFinite = true) :
    a.neg.isFinite = true ∧ a.neg.value = -a.value := by
  rcases finite_or_negZero h with ⟨x, rfl⟩ | rfl
  · by_cases hx : x = 0
    · simp [neg, hx, isFinite, value]
    · simp [neg, hx, isFinite, value]
  · exact ⟨rfl, neg_zero.symm⟩

theorem sub_exact (x : ℚ) {b : Number} (hb : b.isFinite = true) :
    sub .exact (.finite x) b = .finite (x - b.value) := by
  rw [sub, add_exact x (value_neg hb).1, (value_neg hb).2, sub_eq_add_neg]

/-- What some equal amounts leave of one. -/
theorem one_sub_mul_exact {a : Number} (h : a.isFinite = true) (n : ℕ) :
    sub .exact (.finite 1) (mul .exact a (.finite n)) = .finite (1 - a.value * n) := by
  obtain ⟨hmul, hvalue⟩ := mul_exact h (b := .finite n) rfl
  rw [sub_exact 1 hmul, hvalue]
  rfl

theorem lt_finite_iff {x y : ℚ} : (finite x).lt (finite y) = true ↔ x < y := lt_iff_value_lt rfl rfl

/-- A value other than zero is written in one way only. -/
theorem eq_finite_of_value {a : Number} {x : ℚ} (h : a.value = x) (hx : x ≠ 0) : a = .finite x := by
  cases a with
  | finite y => exact congrArg finite h
  | negZero => exact absurd h.symm hx
  | infinite s => exact absurd h.symm hx
  | nan => exact absurd h.symm hx

/-- Moving a value into the range from zero to one leaves it as it is if it lies there. -/
theorem value_clamp_of_within {a : Number} (h : a.Within 0 1) :
    (a.clamp (.finite 0) (.finite 1)).value = a.value := by
  obtain ⟨hfinite, hnonneg, hle⟩ := h
  rcases finite_or_negZero hfinite with ⟨x, rfl⟩ | rfl
  · exact congrArg value (clamp_finite hnonneg hle)
  · decide

end Number

/-! ## Fair results -/

/-- The score of a result and its findings say the same: the score is from zero to one, and it is
one exactly if nothing was found. All findings name the rule. -/
structure RuleResult.IsFair (id : String) (res : RuleResult) : Prop where
  ruleId_eq : ∀ f ∈ res.findings, f.ruleId = id
  isFinite : res.applicable = true → res.score.isFinite = true
  nonneg : res.applicable = true → 0 ≤ res.score.value
  le_one : res.applicable = true → res.score.value ≤ 1
  one_iff : res.applicable = true → (res.score.value = 1 ↔ res.findings = [])

theorem isFair_notApplicable (id : String) : RuleResult.notApplicable.IsFair id where
  ruleId_eq := by intro f hf; cases hf
  isFinite := by intro happ; cases happ
  nonneg := by intro happ; cases happ
  le_one := by intro happ; cases happ
  one_iff := by intro happ; cases happ

theorem isFair_of_value {id : String} {score : Number} {findings : List Finding}
    (hids : ∀ f ∈ findings, f.ruleId = id) {x : ℚ} (hscore : score = .finite x) (hnonneg : 0 ≤ x)
    (hle : x ≤ 1) (hone : x = 1 ↔ findings = []) :
    RuleResult.IsFair id { score := score, findings := findings } := by
  subst hscore
  exact ⟨hids, fun _ => rfl, fun _ => hnonneg, fun _ => hle, fun _ => hone⟩

theorem isFair_perfect (id : String) : RuleResult.IsFair id { score := .finite 1 } :=
  isFair_of_value (by intro f hf; cases hf) rfl zero_le_one (le_refl 1) (by simp)

theorem isFair_zero {id : String} {f : Finding} (hf : f.ruleId = id) :
    RuleResult.IsFair id { score := .finite 0, findings := [f] } :=
  isFair_of_value (by simpa using hf) rfl (le_refl 0) zero_le_one (by simp)

theorem Finding.IsAbout.ruleId_eq {facts : List Fact} {id suggestion : String} {x : Finding}
    (h : x.IsAbout facts id suggestion) : x.ruleId = id := by
  obtain ⟨location, message, rfl, -⟩ := h
  rfl

/-- The share of `n` things that is left without `k` of them. -/
theorem share_without {n k : ℕ} (hn : 0 < n) (hkn : k ≤ n) :
    0 ≤ (((n : ℤ) - k : ℤ) : ℚ) / n ∧ (((n : ℤ) - k : ℤ) : ℚ) / n ≤ 1 ∧
      ((((n : ℤ) - k : ℤ) : ℚ) / n = 1 ↔ k = 0) := by
  have hn' : (0 : ℚ) < n := by exact_mod_cast hn
  have hk : (0 : ℚ) ≤ k := Nat.cast_nonneg k
  have hkn' : (k : ℚ) ≤ n := by exact_mod_cast hkn
  have hcast : (((n : ℤ) - k : ℤ) : ℚ) = n - k := by push_cast; ring
  rw [hcast]
  refine ⟨div_nonneg (sub_nonneg.mpr hkn') hn'.le, ?_, ?_⟩
  · rw [div_le_one hn']
    linarith
  · rw [div_eq_one_iff_eq hn'.ne', sub_eq_self, Nat.cast_eq_zero]

section Forms

variable {id : String} {res : RuleResult}

theorem judgeRatio_isFair {kind : String} {predicate selector : FactPredicate} {advice : Advice}
    (h : judgeRatio .exact id kind predicate selector advice m = .ok res) : res.IsFair id := by
  obtain ⟨selected, -, h⟩ := bind_eq_ok_iff.mp h
  split at h
  · cases h
    exact isFair_notApplicable id
  · rename_i hsome
    obtain ⟨findings, hfindings, h⟩ := bind_eq_ok_iff.mp h
    cases h
    have hpos : 0 < selected.length := List.length_pos_iff.mpr fun hnil => hsome (by simp [hnil])
    obtain ⟨hnonneg, hle, hone⟩ := share_without hpos (length_violations_le hfindings)
    refine isFair_of_value (fun f hf => (violations_isAbout hfindings f hf).ruleId_eq)
      (Number.ratio_exact _ _) hnonneg hle ?_
    rw [hone, List.length_eq_zero_iff]

/-- The score with penalties is what they leave of one, but not less than zero. -/
theorem judgePenalty_score {kind appliesTo : String} {amount : Number}
    (hfinite : amount.isFinite = true) {advice : Advice}
    (h : judgePenalty .exact id kind appliesTo amount advice m = .ok res) :
    res.score =
      .finite (max 0 (1 - amount.value * ((m.ofKind kind).filter (·.isTrue)).length)) := by
  unfold judgePenalty at h
  split at h
  · -- a rule that does not apply has no facts to flag
    rename_i hnone
    cases h
    have hempty : m.ofKind kind = [] := by simpa using (Bool.and_eq_true_iff.mp hnone).2
    rw [hempty]
    simp [RuleResult.notApplicable]
  · obtain ⟨findings, -, h⟩ := bind_eq_ok_iff.mp h
    cases h
    rw [Number.one_sub_mul_exact hfinite]
    set left := 1 - amount.value * ((m.ofKind kind).filter (·.isTrue)).length
    by_cases hpos : 0 < left
    · rw [if_pos (Number.lt_finite_iff.mpr hpos), max_eq_right hpos.le]
    · rw [if_neg fun hlt => hpos (Number.lt_finite_iff.mp hlt), max_eq_left (not_lt.mp hpos)]

/-- What is left after penalties is one exactly if there was none, since a penalty is positive. -/
theorem judgePenalty_isFair {kind appliesTo : String} {amount : Number}
    (hfinite : amount.isFinite = true) (hpositive : 0 < amount.value) {advice : Advice}
    (h : judgePenalty .exact id kind appliesTo amount advice m = .ok res) :
    res.IsFair id := by
  have hscore := judgePenalty_score hfinite h
  unfold judgePenalty at h
  split at h
  · cases h
    exact isFair_notApplicable id
  · obtain ⟨findings, hfindings, h⟩ := bind_eq_ok_iff.mp h
    cases h
    set flagged := (m.ofKind kind).filter (·.isTrue)
    have hlength : findings.length = flagged.length := (mapM_eq_ok_iff.mp hfindings).length_eq.symm
    have hnone : findings = [] ↔ (flagged.length : ℚ) = 0 := by
      rw [Nat.cast_eq_zero, ← hlength, List.length_eq_zero_iff]
    have hids : ∀ f ∈ findings, f.ruleId = id :=
      fun f hf => (mapM_violation_isAbout hfindings f hf).ruleId_eq
    have hleft : 1 - amount.value * flagged.length ≤ 1 :=
      sub_le_self _ (mul_nonneg hpositive.le (Nat.cast_nonneg _))
    refine isFair_of_value hids hscore (le_max_left _ _) (max_le zero_le_one hleft) ?_
    rw [hnone]
    constructor
    · intro hone
      -- a score of one is not the lower end, so nothing was taken away
      have hall : 1 - amount.value * flagged.length = 1 := by
        rcases max_choice 0 (1 - amount.value * flagged.length) with hzero | hmax
        · rw [hzero] at hone
          exact absurd hone zero_ne_one
        · rwa [hmax] at hone
      rwa [sub_eq_self, mul_eq_zero, or_iff_right hpositive.ne'] at hall
    · intro hzero
      rw [hzero, mul_zero, sub_zero]
      exact max_eq_right zero_le_one

theorem judgePresence_isFair {kind : String} {advice : Advice}
    (h : judgePresence id kind advice m = .ok res) : res.IsFair id := by
  unfold judgePresence at h
  split at h
  · cases h
    exact isFair_notApplicable id
  · split at h
    · cases h
      exact isFair_perfect id
    · obtain ⟨f, hf, h⟩ := bind_eq_ok_iff.mp h
      cases h
      exact isFair_zero (violation_isAbout hf (List.mem_singleton_self _)).ruleId_eq

theorem judgeTestsPresent_isFair (h : judgeTestsPresent id m = .ok res) : res.IsFair id := by
  simp only [judgeTestsPresent] at h
  split at h
  · cases h
    exact isFair_notApplicable id
  · split at h
    · cases h
      exact isFair_perfect id
    · cases h
      exact isFair_zero rfl

/-- More tests than wanted count as one, and a finding is made exactly if the score is below one. -/
theorem judgeTestRatio_isFair (h : judgeTestRatio .exact id m = .ok res) : res.IsFair id := by
  rcases judgeTestRatio_cases h with ⟨-, rfl⟩ | ⟨-, rfl⟩
  · exact isFair_notApplicable id
  · unfold testRatioResult
    dsimp only
    split
    · rename_i hlow
      have hnonneg : (0 : ℚ) ≤ ((m.counters.testFiles : ℤ) : ℚ) / m.counters.sourceFiles.natAbs :=
        div_nonneg (by exact_mod_cast Nat.zero_le _) (Nat.cast_nonneg _)
      have hwanted : (0 : ℚ) < mkRat 1 2 := by norm_num [Rat.mkRat_eq_div]
      rw [wantedTestRatio, Number.ratio_exact, Number.div_exact hnonneg hwanted] at hlow ⊢
      have hlt := Number.lt_finite_iff.mp hlow
      refine isFair_of_value (by simp [findingFor]) rfl (div_nonneg hnonneg hwanted.le) hlt.le ?_
      simpa using hlt.ne
    · exact isFair_perfect id

theorem judgeLogging_isFair (h : judgeLogging .exact id m = .ok res) : res.IsFair id := by
  simp only [judgeLogging] at h
  split at h
  · cases h
    exact isFair_notApplicable id
  · rename_i hsome
    cases h
    set logged := (m.ofKind Kind.logCall).length
    set prints := (m.ofKind Kind.printCall).filter (·.isTrue)
    obtain ⟨hnonneg, hle, hone⟩ :=
      share_without (Nat.pos_of_ne_zero hsome) (Nat.le_add_left prints.length logged)
    have hcount : (((logged + prints.length : ℕ) : ℤ) - prints.length : ℤ) = logged := by
      push_cast; ring
    rw [hcount] at hnonneg hle hone
    refine isFair_of_value ?_ (Number.ratio_exact _ _) hnonneg hle ?_
    · intro f hf
      obtain ⟨fact, -, rfl⟩ := List.mem_map.mp hf
      rfl
    · rw [hone, List.length_eq_zero_iff, List.map_eq_nil_iff]

/-- **Every judgement of a built-in rule is fair**, in exact arithmetic and on any fact model. -/
theorem JudgementForm.isFair {judge : FactModel → Except Fault RuleResult} {kinds : List String}
    (hform : JudgementForm .exact id judge kinds) (h : judge m = .ok res) : res.IsFair id := by
  cases hform with
  | ratio kind predicate selector advice => exact judgeRatio_isFair h
  | penalty kind appliesTo amount advice hfinite hpositive =>
      exact judgePenalty_isFair hfinite hpositive h
  | presence kind advice => exact judgePresence_isFair h
  | testsPresent => exact judgeTestsPresent_isFair h
  | testRatio => exact judgeTestRatio_isFair h
  | logging => exact judgeLogging_isFair h

end Forms

/-- What counts for a built-in rule is fair, also if the rule fails: then it counts zero, with a
finding. -/
theorem Rule.answer_isFair {rule : Rule} {judge : FactModel → Except Fault RuleResult}
    {kinds : List String} (hform : rule.HasForm .exact judge kinds) (m : FactModel) :
    (rule.answer m).IsFair rule.id := by
  rcases rule.counts_answer m with ⟨-, hreturns⟩ | ⟨-, hscore, -, f, hf, hid, -, -⟩
  · exact hform.form.isFair (hform.evaluate_eq_result_iff.mp (hform.result_of_returns hreturns))
  · -- a failed rule: a score of zero and one finding
    refine ⟨?_, ?_, ?_, ?_, ?_⟩
    · simpa [hf] using hid
    · intro _
      rw [hscore]
      rfl
    · intro _
      rw [hscore]
      exact le_refl 0
    · intro _
      rw [hscore]
      exact zero_le_one
    · intro _
      simp [hscore, hf, Number.value]

/-! ## One category -/

section Means

variable {os : List Outcome} (hweight : ∀ o ∈ os, o.weight.IsWeight .exact)
  (hscore : ∀ o ∈ os, o.score.Within 0 1)
  (hne : os ≠ [])
include hweight hscore hne

/-- No score above one can make up for one below: the mean is one exactly if all scores are. -/
theorem meanScore_eq_one_iff : meanScore os = 1 ↔ ∀ o ∈ os, o.score.value = 1 := by
  have hpos := sum_outcome_weights_pos hweight hne
  rw [meanScore, div_eq_one_iff_eq hpos.ne']
  constructor
  · intro hsum o ho
    by_contra hother
    have hlow : o.score.value < 1 := lt_of_le_of_ne (hscore o ho).2.2 hother
    have hlt :
        (os.map fun o => o.weight.value * o.score.value).sum <
          (os.map fun o => o.weight.value).sum := by
      refine List.sum_lt_sum _ _ ?_ ⟨o, ho, mul_lt_of_lt_one_right (hweight o ho).2.1 hlow⟩
      intro o' ho'
      exact mul_le_of_le_one_right (hweight o' ho').2.1.le (hscore o' ho').2.2
    exact hlt.ne hsum
  · intro hall
    congr 1
    refine List.map_congr_left fun o ho => ?_
    rw [hall o ho, mul_one]

end Means

theorem findingsOf_eq_nil_iff {rules : List Rule} :
    findingsOf m rules = [] ↔ ∀ rule ∈ rules, (rule.answer m).applicable = true →
      (rule.answer m).findings = [] := by
  rw [findingsOf, List.flatMap_eq_nil_iff]
  constructor
  · intro h rule hrule happ
    exact h _ (List.mem_filter.mpr ⟨List.mem_map.mpr ⟨rule, hrule, rfl⟩, happ⟩)
  · intro h res hres
    obtain ⟨hmem, happ⟩ := List.mem_filter.mp hres
    obtain ⟨rule, hrule, rfl⟩ := List.mem_map.mp hmem
    exact h rule hrule happ

/-- A rule that counts in exact arithmetic: it has a weight, and its score and its findings say the
same. -/
structure Rule.IsFair (rule : Rule) (m : FactModel) : Prop where
  isWeight : rule.weight.IsWeight .exact
  answer : (rule.answer m).IsFair rule.id

/-- The score of a fair rule counts as it is. -/
theorem Rule.IsFair.run_score_value {rule : Rule} (h : rule.IsFair m)
    (happ : (rule.answer m).applicable = true) :
    (rule.run m).outcome.score.value = (rule.answer m).score.value := by
  rw [run_score happ]
  exact Number.value_clamp_of_within ⟨h.answer.isFinite happ, h.answer.nonneg happ,
    h.answer.le_one happ⟩

section Fair

variable {rules : List Rule} (hrules : ∀ rule ∈ rules, rule.IsFair m)
include hrules

/-- The mean of fair rules is one exactly if none of them found anything. -/
theorem meanScore_perfect_iff (hne : appliedOutcomes m rules ≠ []) :
    meanScore (appliedOutcomes m rules) = 1 ↔ findingsOf m rules = [] := by
  have hweight : ∀ rule ∈ rules, rule.weight.IsWeight .exact :=
    fun rule hrule => (hrules rule hrule).isWeight
  rw [meanScore_eq_one_iff (appliedOutcomes_isWeight hweight) appliedOutcomes_within hne,
    findingsOf_eq_nil_iff]
  have hone : ∀ rule ∈ rules, (rule.answer m).applicable = true →
      ((rule.run m).outcome.score.value = 1 ↔ (rule.answer m).findings = []) := by
    intro rule hrule happ
    rw [(hrules rule hrule).run_score_value happ, (hrules rule hrule).answer.one_iff happ]
  constructor
  · intro hall rule hrule happ
    exact (hone rule hrule happ).mp (hall _ (mem_appliedOutcomes.mpr ⟨rule, hrule, happ, rfl⟩))
  · intro hall o ho
    obtain ⟨rule, hrule, happ, rfl⟩ := mem_appliedOutcomes.mp ho
    exact (hone rule hrule happ).mpr (hall rule hrule happ)

end Fair

/-- **A category with fair rules, of which some apply, scores ten exactly if nothing was found**,
and less otherwise. -/
theorem evaluate_perfect_iff {r : Registry} {active : Option (List String)} {c : Category}
    {s : CategoryScore} (h : evaluate .exact m r active c = .ok s)
    (hrules : ∀ rule ∈ r.activeRules active c, rule.IsFair m) (hvacuous : s.vacuous = false) :
    (s.rawScore = .finite 10 ↔ s.findings = []) ∧
      (s.findings ≠ [] → s.rawScore.lt (.finite 10) = true) := by
  have hweight : ∀ rule ∈ r.activeRules active c, rule.weight.IsWeight .exact :=
    fun rule hrule => (hrules rule hrule).isWeight
  obtain ⟨hne, hfinite, hvalue⟩ := rawScore_exact h hweight hvacuous
  have hperfect := meanScore_perfect_iff hrules hne
  rw [← (evaluate_accountsFor h).2.findings_eq hvacuous] at hperfect
  -- the mean is at most one, so it falls short of one if it is not one
  have hle := (meanScore_within (appliedOutcomes_isWeight hweight) appliedOutcomes_within hne).2
  refine ⟨?_, ?_⟩
  · rw [← hperfect]
    constructor
    · intro hten
      rw [hten] at hvalue
      have hvalue' : (10 : ℚ) = 10 * meanScore (appliedOutcomes m (r.activeRules active c)) :=
        hvalue
      linarith
    · intro hone
      rw [hone, mul_one] at hvalue
      exact Number.eq_finite_of_value hvalue (by norm_num)
  · intro hfound
    have hlow := lt_of_le_of_ne hle fun hone => hfound (hperfect.mp hone)
    rw [Number.lt_iff_value_lt hfinite rfl, hvalue]
    change 10 * meanScore (appliedOutcomes m (r.activeRules active c)) < (10 : ℚ)
    linarith

/-! ## The built-in rules -/

namespace Registry

/-- The weights of the built-in rules add up in exact arithmetic as well. -/
theorem places_exact : ∀ c ∈ Category.all,
    fits .exact (.finite 0) ((places.filter (·.category = c)).map (·.weight)) = true ∧
      isComplete .exact (Number.sum .exact ((places.filter (·.category = c)).map (·.weight))) =
        true := by
  decide +kernel

theorem registrable_catalog_exact (limits : Limits) :
    Registrable .exact (Catalog.rules .exact limits) where
  ids_nodup := catalog_ids_nodup limits
  positive := fun rule hrule => (catalog_sound limits rule hrule).positive
  atMostOne := fun rule hrule => (catalog_sound limits rule hrule).atMostOne
  fits := by
    intro c
    rw [catalog_weights limits c]
    exact (places_exact c (Category.mem_all c)).1
  complete := by
    intro c _
    rw [catalog_weights limits c]
    exact (places_exact c (Category.mem_all c)).2

theorem builtIn_exact_holds (limits : Limits) :
    (builtIn .exact limits).Holds (Catalog.rules .exact limits) := by
  obtain ⟨r, hr⟩ := setUp_eq_ok_iff.mpr (registrable_catalog_exact limits)
  have hbuilt : builtIn .exact limits = r := by rw [builtIn, RegistryM.leaves, build_eq_setUp, hr]
  rw [hbuilt]
  exact (holds_of_setUp hr).1

theorem builtIn_exact_categories (limits : Limits) :
    (builtIn .exact limits).categories = Category.all := by
  refine List.filter_eq_self.mpr fun c _ => ?_
  obtain ⟨rule, hrule, hcategory⟩ := exists_catalog .exact limits c
  have hne : (Catalog.rules .exact limits).filter (·.category = c) ≠ [] :=
    List.ne_nil_of_mem (List.mem_filter.mpr ⟨hrule, by simpa using hcategory⟩)
  rw [(builtIn_exact_holds limits).lookup_eq, if_neg hne]
  rfl

theorem mem_catalog_of_mem_activeRules {limits : Limits} {active : Option (List String)}
    {c : Category} {rule : Rule} (h : rule ∈ (builtIn .exact limits).activeRules active c) :
    rule ∈ Catalog.rules .exact limits ∧ rule.category = c := by
  have hfor := (List.mem_filter.mp h).1
  rw [(builtIn_exact_holds limits).rulesFor_eq] at hfor
  obtain ⟨hrule, hcategory⟩ := List.mem_filter.mp hfor
  exact ⟨hrule, of_decide_eq_true hcategory⟩

theorem catalog_isFair {limits : Limits} {rule : Rule} (h : rule ∈ Catalog.rules .exact limits)
    (m : FactModel) : rule.IsFair m := by
  have hsound := catalog_sound limits rule h
  obtain ⟨judge, kinds, hform⟩ := catalog_form .exact limits rule h
  exact ⟨isWeight_of_range hsound.positive hsound.atMostOne (Number.keptBy_exact _),
    Rule.answer_isFair hform m⟩

end Registry

/-- With the built-in rules every category has a score. -/
theorem exists_score_exact (limits : Limits) (m : FactModel) (active : Option (List String))
    (c : Category) :
    ∃ s, evaluate .exact m (.builtIn .exact limits) active c = .ok s ∧ s.category = c ∧
      s.rawScore.Within 0 10 := by
  have hcontained : ∀ rule ∈ (Registry.builtIn .exact limits).activeRules active c,
      rule.IsContained m :=
    fun rule hrule => catalog_isContained (Registry.mem_catalog_of_mem_activeRules hrule).1 m
  rw [Registry.evaluate_of_isContained hcontained]
  obtain ⟨s, hs, hreports⟩ := scoreOfRuns_reports Rounding.isMonotone_exact c
    (((Registry.builtIn .exact limits).activeRules active c).map (·.run m)) (by
      intro run hrun
      obtain ⟨rule, hrule, rfl⟩ := List.mem_map.mp hrun
      rw [run_weight]
      exact (Registry.catalog_isFair (Registry.mem_catalog_of_mem_activeRules hrule).1 m).isWeight)
  exact ⟨s, hs, hreports.category_eq, hreports.within⟩

/-- Every finding of a category to which rules apply names a registered rule. -/
theorem ruleId_registered {limits : Limits} {active : Option (List String)} {c : Category}
    {s : CategoryScore} (h : evaluate .exact m (.builtIn .exact limits) active c = .ok s)
    (hvacuous : s.vacuous = false) :
    ∀ f ∈ s.findings, (Registry.builtIn .exact limits).get? f.ruleId ≠ none := by
  intro f hf
  rw [(evaluate_accountsFor h).2.findings_eq hvacuous] at hf
  obtain ⟨res, hres, hmem⟩ := List.mem_flatMap.mp hf
  obtain ⟨rule, hrule, rfl⟩ := List.mem_map.mp (List.mem_filter.mp hres).1
  have hcatalog := (Registry.mem_catalog_of_mem_activeRules hrule).1
  have hid : f.ruleId = rule.id := (Registry.catalog_isFair hcatalog m).answer.ruleId_eq f hmem
  rw [hid, (Registry.builtIn_exact_holds limits).get?_eq_some_iff.mpr ⟨hcatalog, rfl⟩]
  simp

/-! ## The report -/

theorem tenths_ten : Number.tenths 10 = 100 := by decide

theorem score_of_perfect {s : CategoryScore} (h : s.rawScore = .finite 10) :
    s.score .exact = .finite 10 := by
  rw [CategoryScore.score, h, Number.roundTenth_exact (by norm_num), tenths_ten]
  norm_num

/-- Scores that are equal stay in the order of the categories. -/
theorem mergeSort_of_perfect (hall : scores.map (·.category) = Category.all)
    (hperfect : ∀ s ∈ scores, s.score .exact = .finite 10) :
    scores.mergeSort (strongerFirst .exact) = scores := by
  have horder : (scores.map (·.category)).Pairwise fun c d => c.order ≤ d.order := by
    rw [hall]
    decide
  refine List.mergeSort_of_pairwise ((List.pairwise_map.mp horder).imp_of_mem ?_)
  intro s t hs ht hle
  have hsame : (Number.finite 10).lt (.finite 10) = false := by decide
  simp only [strongerFirst, hperfect s hs, hperfect t ht, hsame, inOrder, hle]
  rfl

/-- The mean of nothing but tens is ten. -/
theorem meanReported_of_perfect {overrides weights : Weights}
    (hresolve : Weights.resolve .exact overrides = .ok weights)
    (hall : scores.map (·.category) = Category.all)
    (hperfect : ∀ s ∈ scores, s.score .exact = .finite 10) : meanReported weights scores = 10 := by
  have hpos := sum_share_pos hresolve hall
  have hsum :
      (scores.map fun s => weights.share s * s.reported).sum =
        (scores.map weights.share).sum * 10 := by
    rw [← List.sum_map_mul_right]
    congr 1
    refine List.map_congr_left fun s hs => ?_
    rw [CategoryScore.reported, hperfect s hs]
    rfl
  rw [meanReported, hsum, mul_div_cancel_left₀ _ hpos.ne']

/-- Nothing is recommended if nothing is asked for. -/
theorem recommendations_of_quiet {most : Int} (h : ∀ s ∈ scores, actionable s.findings = [])
    {rs : List Recommendation} (hrs : recommendations most scores = .ok rs) : rs = [] := by
  have hnone := map_sketch_of_recommendations hrs
  rw [outlines, List.flatMap_eq_nil_iff.mpr fun s hs => ?_, ite_self, List.map_eq_nil_iff] at hnone
  · exact hnone
  · rw [CategoryScore.outlines, h s (List.mem_mergeSort.mp hs)]
    simp [groupByKind]

theorem areWritable_of_quiet {most : Int} (h : ∀ s ∈ scores, actionable s.findings = []) :
    AreWritable most scores := by
  intro _ s hs
  rw [hasWritablePlaces_iff, h s hs]
  simp [groupByKind]

/-- **If all categories score ten**, all of them are strengths, in their order, and nothing is weak
or asked for. -/
theorem reportOf_perfect {overrides weights : Weights}
    (hresolve : Weights.resolve .exact overrides = .ok weights) {bounds : ReportBounds}
    (hlow : bounds.weakness.lt bounds.strength = true)
    (hhigh : bounds.strength.le (.finite 10) = true) (hall : scores.map (·.category) = Category.all)
    (hperfect : ∀ s ∈ scores, s.rawScore = .finite 10)
    (hquiet : ∀ s ∈ scores, actionable s.findings = []) {report : Report}
    (h : reportOf .exact weights bounds scores = .ok report) :
    report.overall = .finite 10 ∧ report.strengths = scores ∧ report.weaknesses = [] ∧
      report.recommendations = [] := by
  have hscore : ∀ s ∈ scores, s.score .exact = .finite 10 :=
    fun s hs => score_of_perfect (hperfect s hs)
  have hwithin : ∀ s ∈ scores, s.rawScore.Within 0 10 := by
    intro s hs
    rw [hperfect s hs]
    exact Number.within_finite (by norm_num) (le_refl _)
  refine ⟨?_, ?_, ?_, ?_⟩
  · rw [overall_exact hresolve hall hwithin h, meanReported_of_perfect hresolve hall hscore,
      tenths_ten]
    norm_num
  · have hfilter : (scores.filter fun s => bounds.strength.le (s.score .exact)) = scores := by
      refine List.filter_eq_self.mpr fun s hs => ?_
      rw [hscore s hs]
      exact hhigh
    obtain ⟨rs, -, rfl⟩ := eq_of_reportOf h
    dsimp only
    rw [hfilter, mergeSort_of_perfect hall hscore]
  · have hfilter : (scores.filter fun s => (s.score .exact).le bounds.weakness) = [] := by
      refine List.filter_eq_nil_iff.mpr fun s hs hle => ?_
      rw [hscore s hs] at hle
      -- a ten that is weak would be below the bound for strengths, which is at most ten
      have hlt := Number.lt_of_lt_of_le (Number.lt_of_le_of_lt hle hlow) hhigh
      exact absurd hlt (by decide)
    obtain ⟨rs, -, rfl⟩ := eq_of_reportOf h
    dsimp only
    rw [hfilter, List.mergeSort_nil]
  · obtain ⟨rs, hrs, rfl⟩ := eq_of_reportOf h
    exact recommendations_of_quiet hquiet hrs

/-- With the built-in rules and a configuration that is read and names known rules only every
category has a score, and there is a report on these scores if its recommendations can be
written. -/
theorem exists_scores_exact (m : FactModel) {source : String} {fields : Fields} {c : Config}
    (hread : Config.ofFields .exact source fields = .ok c)
    (hknown : ∀ id ∈ c.enabled.getD [] ++ c.disabled,
      (Registry.builtIn .exact c.limits).get? id ≠ none) :
    ∃ active scores, (Registry.builtIn .exact c.limits).select c.enabled c.disabled = .ok active ∧
      Category.all.mapM (evaluate .exact m (.builtIn .exact c.limits) (some active)) = .ok scores ∧
      scores.map (·.category) = Category.all ∧ ∀ wait : Wait,
        (wait.error? c.budget = none → AreWritable c.bounds.most scores →
          ∃ report, runWith .exact m c (.builtIn .exact c.limits) wait = .ok report) ∧
        ∀ report, runWith .exact m c (.builtIn .exact c.limits) wait = .ok report →
          report.scores = scores := by
  obtain ⟨⟨weights, hweights⟩, hworkers, -⟩ := Config.parts_of_ofFields hread
  obtain ⟨active, hselect⟩ := Registry.select_eq_ok hknown
  choose scoreOf hscore hcategory hwithin using exists_score_exact c.limits m (some active)
  have hquick : ∀ d, stalls (.builtIn .exact c.limits) (some active) d = false := by
    intro d
    rw [stalls, List.any_eq_false]
    intro rule hrule
    have hquick : rule.stalls = false :=
      (Registry.catalog_sound c.limits rule (Registry.mem_catalog_of_mem_activeRules hrule).1).quick
    simp [hquick]
  have hall := map_category_map hcategory Category.all
  have hrange : ∀ s ∈ Category.all.map scoreOf, s.rawScore.Within 0 10 :=
    List.forall_mem_map.mpr fun d _ => hwithin d
  refine ⟨active, Category.all.map scoreOf, hselect, mapM_evaluate_eq hscore, hall,
    fun wait => ⟨fun hwait hwritable => ?_, ?_⟩⟩
  · obtain ⟨report, hreport, -⟩ :=
      reportOf_eq_ok Rounding.isMonotone_exact (Weights.resolved_exact hweights) c.bounds rfl hrange
        hwritable
    have haggregate :
        aggregate .exact (Category.all.map scoreOf) weights c.bounds = .ok report := by
      rw [aggregate_of_all hall (Weights.resolve_resolve hweights), hreport]
    refine ⟨report, ?_⟩
    simp only [runWith, hweights, hselect, hwait, runRules,
      evaluateAll_eq_ok hscore hquick hworkers, Registry.builtIn_exact_categories, haggregate]
    rfl
  · intro report hrun
    obtain ⟨active', hselect', hcategories, hscores⟩ := evaluate_of_runWith hrun
    obtain rfl : active = active' := Except.ok.inj (hselect.symm.trans hselect')
    have hof : ∀ s ∈ report.scores, s = scoreOf s.category := fun s hs =>
      Except.ok.inj ((hscores s hs).symm.trans (hscore s.category))
    calc report.scores = report.scores.map id := (List.map_id _).symm
      _ = report.scores.map (scoreOf ∘ (·.category)) := List.map_congr_left hof
      _ = Category.all.map scoreOf := by rw [← List.map_map, hcategories]

section BuiltIn

variable {limits : Limits} {active : Option (List String)} {d : Category} {s : CategoryScore}
  (h : evaluate .exact m (.builtIn .exact limits) active d = .ok s)

include h

theorem builtIn_perfect_iff (hvacuous : s.vacuous = false) :
    (s.rawScore = .finite 10 ↔ s.findings = []) ∧
      (s.findings ≠ [] → s.rawScore.lt (.finite 10) = true) := by
  refine evaluate_perfect_iff h (fun rule hrule => ?_) hvacuous
  exact Registry.catalog_isFair (Registry.mem_catalog_of_mem_activeRules hrule).1 m

/-- The findings of a category that is not vacuous come from rules. -/
theorem builtIn_perfect_iff_foreign :
    (s.rawScore = .finite 10 ↔ s.vacuous = true ∨
        ∀ f ∈ s.findings, (Registry.builtIn .exact limits).get? f.ruleId = none) ∧
      (s.vacuous = false → s.findings ≠ [] → s.rawScore.lt (.finite 10) = true) := by
  cases hvacuous : s.vacuous with
  | true =>
      have hten := ((evaluate_accountsFor h).2.of_vacuous hvacuous).1
      refine ⟨⟨fun _ => Or.inl rfl, fun _ => hten⟩, ?_⟩
      intro hfalse
      cases hfalse
  | false =>
      obtain ⟨hiff, hbelow⟩ := builtIn_perfect_iff h hvacuous
      refine ⟨?_, fun _ => hbelow⟩
      rw [hiff]
      constructor
      · intro hnone
        right
        rw [hnone]
        exact List.forall_mem_nil _
      · rintro (hfalse | hforeign)
        · cases hfalse
        · rw [List.eq_nil_iff_forall_not_mem]
          intro f hf
          exact ruleId_registered h hvacuous f hf (hforeign f hf)

/-- A category that scores ten asks for nothing, also if it is vacuous. -/
theorem actionable_of_perfect (hten : s.rawScore = .finite 10) : actionable s.findings = [] := by
  cases hvacuous : s.vacuous with
  | true =>
      rw [((evaluate_accountsFor h).2.of_vacuous hvacuous).2]
      rfl
  | false =>
      rw [(builtIn_perfect_iff h hvacuous).1.mp hten]
      rfl

end BuiltIn

/-- **A perfect score means that nothing was found, and the other way round**, in exact arithmetic.
Take any fact model, the built-in rules, and a configuration that is read and names known rules
only. A category scores ten exactly if it is vacuous or none of its findings comes from a rule, and
a category that is not vacuous and has a finding scores less. There is a report on these scores if
the waiting does not fail and the places that are recommended can be written, which is so if the
places of all facts can be, and if all categories score ten. If all categories score ten, so does
the whole; the strengths are all ten categories in their order, and there are no weaknesses and no
recommendations. -/
theorem perfect_score_iff_no_findings (m : FactModel) {source : String} {fields : Fields}
    {c : Config} (hread : Config.ofFields .exact source fields = .ok c)
    (hknown : ∀ id ∈ c.enabled.getD [] ++ c.disabled,
      (Registry.builtIn .exact c.limits).get? id ≠ none) (wait : Wait) :
    ∃ active scores, (Registry.builtIn .exact c.limits).select c.enabled c.disabled = .ok active ∧
      Category.all.mapM (evaluate .exact m (.builtIn .exact c.limits) (some active)) = .ok scores ∧
      scores.map (·.category) = Category.all ∧
      (∀ s ∈ scores,
        (s.rawScore = .finite 10 ↔
          s.vacuous = true ∨
            ∀ f ∈ s.findings, (Registry.builtIn .exact c.limits).get? f.ruleId = none) ∧
        (s.vacuous = false → s.findings ≠ [] → s.rawScore.lt (.finite 10) = true)) ∧
      (wait.error? c.budget = none → AreWritable c.bounds.most scores →
        ∃ report, runWith .exact m c (.builtIn .exact c.limits) wait = .ok report) ∧
      (m.HasWritableLines ∨ (∀ s ∈ scores, s.rawScore = .finite 10) →
        AreWritable c.bounds.most scores) ∧
      ∀ report, runWith .exact m c (.builtIn .exact c.limits) wait = .ok report →
        report.scores = scores ∧ (c.limits.arePrintable = true → run .exact m c wait = .ok report) ∧
        ((∀ s ∈ scores, s.rawScore = .finite 10) →
          report.overall = .finite 10 ∧ report.strengths = report.scores ∧
            report.strengths.map (·.category) = Category.all ∧ report.weaknesses = [] ∧
              report.recommendations = []) := by
  obtain ⟨active, scores, hselect, hmapM, hall, hruns⟩ := exists_scores_exact m hread hknown
  have hscores :
      ∀ s ∈ scores, ∃ d, evaluate .exact m (.builtIn .exact c.limits) (some active) d = .ok s := by
    intro s hs
    obtain ⟨d, -, hd⟩ := exists_of_mem_forall₂ (mapM_eq_ok_iff.mp hmapM) hs
    exact ⟨d, hd⟩
  have hquiet : (∀ s ∈ scores, s.rawScore = .finite 10) →
      ∀ s ∈ scores, actionable s.findings = [] := by
    intro hten s hs
    obtain ⟨d, hd⟩ := hscores s hs
    exact actionable_of_perfect hd (hten s hs)
  refine ⟨active, scores, hselect, hmapM, hall, ?_, (hruns wait).1, ?_, ?_⟩
  · intro s hs
    obtain ⟨d, hd⟩ := hscores s hs
    exact builtIn_perfect_iff_foreign hd
  · rintro (hm | hten)
    · exact areWritable_of_catalog hm (fun _ _ hrule =>
        (Registry.mem_catalog_of_mem_activeRules hrule).1) hmapM _
    · exact areWritable_of_quiet (hquiet hten)
  · intro report hrun
    have heq := (hruns wait).2 report hrun
    refine ⟨heq, fun hprintable => (run_of_printable hprintable m wait).trans hrun, fun hten => ?_⟩
    obtain ⟨weights, weights', -, hresolve, hreport⟩ := runWith_reportOf hrun
    obtain ⟨-, -, bounds, hbounds⟩ := Config.parts_of_ofFields hread
    obtain ⟨hlow, hhigh⟩ := thresholds_of_readBounds hbounds
    rw [heq] at hreport ⊢
    obtain ⟨hoverall, hstrengths, hweaknesses, hrecommendations⟩ :=
      reportOf_perfect hresolve hlow hhigh hall hten (hquiet hten) hreport
    exact ⟨hoverall, hstrengths, hstrengths ▸ hall, hweaknesses, hrecommendations⟩

/-- With one rule enabled, which wants a test: an empty code base scores ten throughout, since the
rule does not apply to it, and a code base of one module without a test scores less than ten for
testing. -/
theorem perfect_score_iff_no_findings_untested :
    let fields : Fields := [("rules", .table [("enable", .list [.text "testing.tests_present"])])]
    let untested : Fact :=
      { kind := Kind.testFile, subject := "main", location := ⟨"main.py", .int 1, .int 1⟩
        value := .bool false }
    ∃ c, Config.ofFields .exact "scorecard.toml" fields = .ok c ∧
      (∃ report, runWith .exact (.build [] [] ".") c (.builtIn .exact c.limits) .complete =
        .ok report ∧
        report.overall = .finite 10 ∧ report.strengths.map (·.category) = Category.all ∧
          report.recommendations = []) ∧
      ∃ report, runWith .exact (.build [untested] [] ".") c
        (.builtIn .exact c.limits) .complete = .ok report ∧
        ∃ s ∈ report.scores, s.category = .testing ∧ s.rawScore.lt (.finite 10) = true := by
  intro fields untested
  have hread : Config.ofFields .exact "scorecard.toml" fields =
      .ok { enabled := some ["testing.tests_present"], source := some "scorecard.toml" } := by
        decide +kernel
  have hknown : ∀ id ∈ ["testing.tests_present"], (Registry.builtIn .exact {}).get? id ≠ none :=
    Registry.get?_ne_none_of_contains (by decide +kernel)
  refine ⟨_, hread, ?_, ?_⟩
  · have hquiet :
        ∀ rule ∈ Catalog.rules .exact {}, (rule.answer (.build [] [] ".")).applicable = false := by
          decide +kernel
    obtain ⟨active, scores, -, hmapM, -, hscores, hexists, hwritable, hreports⟩ :=
      perfect_score_iff_no_findings (.build [] [] ".") hread hknown .complete
    have hten : ∀ s ∈ scores, s.rawScore = .finite 10 := by
      intro s hs
      obtain ⟨d, -, hd⟩ := exists_of_mem_forall₂ (mapM_eq_ok_iff.mp hmapM) hs
      refine (hscores s hs).1.mpr (Or.inl ((evaluate_accountsFor hd).2.vacuous_iff.mpr ?_))
      intro rule hrule
      exact hquiet rule (Registry.mem_catalog_of_mem_activeRules hrule).1
    obtain ⟨report, hrun⟩ := hexists rfl (hwritable (Or.inr hten))
    obtain ⟨-, -, hperfect⟩ := hreports report hrun
    obtain ⟨hoverall, -, hstrengths, -, hrecommendations⟩ := hperfect hten
    exact ⟨report, hrun, hoverall, hstrengths, hrecommendations⟩
  · obtain ⟨active, scores, hselect, hmapM, hall, hscores, hexists, hwritable, hreports⟩ :=
      perfect_score_iff_no_findings (.build [untested] [] ".") hread hknown .complete
    obtain ⟨s, hs, htesting⟩ : ∃ s ∈ scores, s.category = .testing :=
      List.mem_map.mp (hall ▸ Category.mem_all .testing)
    obtain ⟨d, -, hd⟩ := exists_of_mem_forall₂ (mapM_eq_ok_iff.mp hmapM) hs
    obtain ⟨rfl, haccounts⟩ := evaluate_accountsFor hd
    have hlines : (FactModel.build [untested] [] ".").HasWritableLines :=
      ⟨_, _, _, rfl, List.forall_mem_singleton.mpr ⟨"main.py:1", by decide +kernel⟩⟩
    obtain ⟨report, hrun⟩ := hexists rfl (hwritable (Or.inl hlines))
    obtain ⟨heq, -⟩ := hreports report hrun
    -- the rule is found in the catalog by what it does, not by its place
    obtain ⟨rule, hrule, hcategory, hid, happ, hfound⟩ : ∃ rule ∈ Catalog.rules .exact {},
        rule.category = .testing ∧ rule.id = "testing.tests_present" ∧
          (rule.answer (.build [untested] [] ".")).applicable = true ∧
          (rule.answer (.build [untested] [] ".")).findings.isEmpty = false := by decide +kernel
    have hactive : "testing.tests_present" ∈ active := by
      rw [Registry.select] at hselect
      dsimp only at hselect
      split at hselect
      · cases hselect
        simp
      · cases hselect
    have hmem : rule ∈ (Registry.builtIn .exact {}).activeRules (some active) s.category := by
      rw [(Registry.builtIn_exact_holds {}).activeRules_eq, List.mem_filter]
      exact ⟨hrule, by simp [hcategory, htesting, hid, hactive]⟩
    have hvacuous : s.vacuous = false := by
      rw [← Bool.not_eq_true, haccounts.vacuous_iff]
      intro hnone
      exact absurd happ (by simp [hnone rule hmem])
    refine ⟨report, hrun, s, heq ▸ hs, htesting, (hscores s hs).2 hvacuous ?_⟩
    intro hnil
    rw [haccounts.findings_eq hvacuous, findingsOf_eq_nil_iff] at hnil
    rw [hnil rule hmem happ] at hfound
    cases hfound

end Scorecard
