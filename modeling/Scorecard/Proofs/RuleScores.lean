import Scorecard.Proofs.LocatedFindings
import Scorecard.Proofs.RuleForm
import Scorecard.Report.Render

set_option autoImplicit false

/-! # The scores of rules

A score that counts is moved into the range from zero to one, and a rule that fails counts as zero.
The score of a rule that does not apply is passed on as the rule gives it, so it may be any finite
number: a rule strays if it does not apply and gives a score out of the range. The scores of a
category, and those in the document of a report, are in the range exactly if no active rule strays
(`rule_scores_in_range`). No built-in rule does.
-/

namespace Scorecard

variable {ρ : Rounding} {m : FactModel}

/-! ## One rule -/

/-- A rule does not apply, and its score is out of the range from zero to one. -/
def Rule.Strays (rule : Rule) (m : FactModel) : Prop :=
  ¬rule.Fails m ∧ ∃ res, rule.Returns m res ∧ res.applicable = false ∧ ¬res.score.Within 0 1

/-- The outcome of a rule that does not apply: its score is the one that the rule gives. -/
theorem run_outcome_of_not_applicable {rule : Rule} {res : RuleResult} (hsound : ¬rule.Fails m)
    (hreturns : rule.Returns m res) (happ : res.applicable = false) :
    (rule.run m).outcome =
      { ruleId := rule.id, weight := rule.weight, score := res.score, applicable := false } := by
  unfold Rule.run
  cases hjudge : rule.judge m with
  | error f => exact absurd ((judge_eq_error_iff rule m).mp ⟨f, hjudge⟩) hsound
  | ok given =>
      obtain rfl : given = res := (Rule.returns_of_judge hjudge).unique hreturns
      simp [happ]

theorem run_score_within_iff (rule : Rule) (m : FactModel) :
    (rule.run m).outcome.score.Within 0 1 ↔ ¬rule.Strays m := by
  constructor
  · rintro hwithin ⟨hsound, res, hverdict, happ, hout⟩
    rw [run_outcome_of_not_applicable hsound hverdict happ] at hwithin
    exact hout hwithin
  · intro hstays
    by_cases happ : (rule.run m).outcome.applicable = true
    · exact run_score_within happ
    · rw [run_applicable] at happ
      -- only a result can say that the rule does not apply
      rcases rule.counts_answer m with ⟨hsound, hverdict⟩ | ⟨-, -, hfailed, -⟩
      · have happ' : (rule.answer m).applicable = false := by simpa using happ
        rw [run_outcome_of_not_applicable hsound hverdict happ']
        by_contra hout
        exact hstays ⟨hsound, _, hverdict, happ', hout⟩
      · exact absurd hfailed happ

/-! ## Built-in rules -/

/-- Where a built-in rule does not apply, it gives a score of one. -/
theorem JudgementForm.eq_notApplicable {id : String} {judge : FactModel → Except Fault RuleResult}
    {kinds : List String} (hform : JudgementForm ρ id judge kinds) {res : RuleResult}
    (h : judge m = .ok res) (happ : res.applicable = false) : res = .notApplicable := by
  cases hform with
  | ratio kind predicate selector advice =>
      obtain ⟨selected, -, h⟩ := bind_eq_ok_iff.mp h
      split at h
      · cases h
        rfl
      · obtain ⟨findings, -, h⟩ := bind_eq_ok_iff.mp h
        cases h
        cases happ
  | penalty kind appliesTo amount advice =>
      unfold judgePenalty at h
      split at h
      · cases h
        rfl
      · obtain ⟨findings, -, h⟩ := bind_eq_ok_iff.mp h
        cases h
        cases happ
  | presence kind advice =>
      unfold judgePresence at h
      split at h
      · cases h
        rfl
      · split at h
        · cases h
          cases happ
        · obtain ⟨finding, -, h⟩ := bind_eq_ok_iff.mp h
          cases h
          cases happ
  | testsPresent =>
      unfold judgeTestsPresent at h
      dsimp only at h
      split at h
      · cases h
        rfl
      · split at h <;> cases h <;> cases happ
  | testRatio =>
      rcases judgeTestRatio_cases h with ⟨-, rfl⟩ | ⟨-, rfl⟩
      · rfl
      · rw [applicable_testRatioResult] at happ
        cases happ
  | logging =>
      unfold judgeLogging at h
      dsimp only at h
      split at h
      · cases h
        rfl
      · cases h
        cases happ

/-- **No built-in rule strays**, whatever the limits and the facts are. -/
theorem catalog_stays {limits : Limits} {rule : Rule} (h : rule ∈ Catalog.rules ρ limits)
    (m : FactModel) : ¬rule.Strays m := by
  rintro ⟨-, res, hreturns, happ, hout⟩
  obtain ⟨judge, kinds, hform⟩ := catalog_form ρ limits rule h
  have hjudge : judge m = .ok res :=
    hform.evaluate_eq_result_iff.mp (hform.result_of_returns hreturns)
  rw [hform.form.eq_notApplicable hjudge happ] at hout
  exact hout (Number.within_finite zero_le_one (le_refl 1))

/-! ## Documents -/

/-- What is in a list; other values hold nothing. -/
def Value.items : Value → List Value
  | list items => items
  | _ => []

/-- The value of a field, or `null` if there is none. -/
def Value.at (v : Value) (name : String) : Value := (v.get? name).getD .null

/-- The scores of rules in the document of a report, category by category. -/
def documentRuleScores (document : Value) : List Value :=
  (document.at "categories").items.flatMap fun category =>
    (category.at "rules").items.map (·.at "score")

theorem documentRuleScores_toValue (ρ : Rounding) (source : String) (time : Option String)
    (report : Report) : documentRuleScores (report.toValue ρ source time) =
      (report.scores.flatMap (·.outcomes)).map fun o => Value.number o.score := by
  have hscore (o : Outcome) : o.toValue.at "score" = .number o.score := rfl
  have hcategory (s : CategoryScore) :
      ((Value.table (s.toFields ρ)).at "rules").items = s.outcomes.map Outcome.toValue := rfl
  have hcategories :
      ((report.toValue ρ source time).at "categories").items = report.scores.map fun s =>
        .table (s.toFields ρ) := rfl
  rw [documentRuleScores, hcategories, List.flatMap_map, List.map_flatMap]
  congr 1
  funext s
  rw [hcategory, List.map_map]
  exact List.map_congr_left fun o _ => hscore o

/-- A value that is a number from zero to one. -/
def Value.IsUnitScore (v : Value) : Prop := ∃ x, v = .number x ∧ x.Within 0 1

/-! ## Categories and reports -/

theorem outcomes_of_evaluate {r : Registry} {active : Option (List String)} {c : Category}
    {s : CategoryScore} (h : evaluate ρ m r active c = .ok s) :
    s.outcomes = (r.activeRules active c).map fun rule => (rule.run m).outcome := by
  have h := Registry.scoreOfRuns_of_evaluate h
  dsimp only [scoreOfRuns] at h
  split at h
  · obtain ⟨-, rfl⟩ := check_eq_ok_iff.mp h
    exact List.map_map
  · split at h
    · cases h
    · obtain ⟨-, rfl⟩ := check_eq_ok_iff.mp h
      exact List.map_map

theorem forall_outcomes_within_iff {r : Registry} {active : Option (List String)} {c : Category}
    {s : CategoryScore} (h : evaluate ρ m r active c = .ok s) :
    (∀ o ∈ s.outcomes, o.score.Within 0 1) ↔ ∀ rule ∈ r.activeRules active c, ¬rule.Strays m := by
  rw [outcomes_of_evaluate h, List.forall_mem_map]
  exact forall₂_congr fun rule _ => run_score_within_iff rule m

/-- The scores in the document of a report are in range exactly if no active rule of any category
strays. -/
theorem document_isUnitScore_iff {config : Config} {r : Registry} {wait : Wait} {report : Report}
    (h : runWith ρ m config r wait = .ok report) (source : String) (time : Option String) :
    ∃ active, r.select config.enabled config.disabled = .ok active ∧
      ((∀ v ∈ documentRuleScores (report.toValue ρ source time), v.IsUnitScore) ↔
        ∀ c, ∀ rule ∈ r.activeRules (some active) c, ¬rule.Strays m) := by
  obtain ⟨active, hselect, hall, hscores⟩ := evaluate_of_runWith h
  refine ⟨active, hselect, ?_⟩
  -- the document writes the scores of all outcomes and nothing else in their place
  have hunit : (∀ v ∈ documentRuleScores (report.toValue ρ source time), v.IsUnitScore) ↔
      ∀ s ∈ report.scores, ∀ o ∈ s.outcomes, o.score.Within 0 1 := by
    rw [documentRuleScores_toValue, List.forall_mem_map, List.forall_mem_flatMap]
    refine forall₂_congr fun s _ => forall₂_congr fun o _ => ⟨?_, fun hwithin => ⟨_, rfl, hwithin⟩⟩
    rintro ⟨x, hx, hwithin⟩
    cases hx
    exact hwithin
  rw [hunit]
  constructor
  · intro hwithin c
    obtain ⟨s, hs, rfl⟩ : ∃ s ∈ report.scores, s.category = c :=
      List.mem_map.mp (hall ▸ Category.mem_all c)
    exact (forall_outcomes_within_iff (hscores s hs)).mp (hwithin s hs)
  · intro hstays s hs
    exact (forall_outcomes_within_iff (hscores s hs)).mpr (hstays s.category)

/-- **The scores of rules that are reported.** Take a registry after any calls, with rules that do
anything. Every category in which what the rules do is contained has a score, with one outcome for
each of its active rules. An outcome of a rule that applies has a score from zero to one, and so has
one of a rule that fails. The score of any other outcome is the one that the rule gives, unchanged.
So all scores of a category are in the range exactly if no active rule strays, and the same is true
of the scores in the document of a report. With the built-in rules all of them are in the range. -/
theorem rule_scores_in_range (calls : List Registry.Call)
    (hdouble : ∀ rule, Registry.Call.register rule ∈ calls → rule.weight.IsDouble) (m : FactModel) :
    let r := Registry.empty.afterAll .nearest calls
    let rulesOf (active : Option (List String)) (c : Category) : List Rule :=
      ((Registry.accepted .nearest Registry.empty calls).filter (·.category = c)).filter
        (Registry.isActive active)
    (∀ active c, ((∀ rule ∈ rulesOf active c, rule.IsContained m) →
      ∃ s, evaluate .nearest m r active c = .ok s) ∧
        ∀ s, evaluate .nearest m r active c = .ok s →
          s.outcomes = (rulesOf active c).map (fun rule => (rule.run m).outcome) ∧
          (∀ o ∈ s.outcomes, o.applicable = true ∨ o.failed = true → o.score.Within 0 1) ∧
          ((∀ o ∈ s.outcomes, o.score.Within 0 1) ↔ ∀ rule ∈ rulesOf active c, ¬rule.Strays m)) ∧
      (∀ (rule : Rule) res, ¬rule.Fails m → rule.Returns m res → res.applicable = false →
        (rule.run m).outcome =
          { ruleId := rule.id, weight := rule.weight, score := res.score, applicable := false }) ∧
      (∀ config wait report, runWith .nearest m config r wait = .ok report → ∀ source time,
        ∃ active, r.select config.enabled config.disabled = .ok active ∧
          ((∀ v ∈ documentRuleScores (report.toValue .nearest source time), v.IsUnitScore) ↔
            ∀ c, ∀ rule ∈ rulesOf (some active) c, ¬rule.Strays m)) ∧
      (∀ limits active c, ∃ s, evaluate .nearest m (.builtIn .nearest limits) active c = .ok s ∧
        ∀ o ∈ s.outcomes, o.score.Within 0 1) ∧
      ∀ config wait report, run .nearest m config wait = .ok report → ∀ source time,
        ∀ v ∈ documentRuleScores (report.toValue .nearest source time), v.IsUnitScore := by
  intro r rulesOf
  have hconsistent : Registry.Consistent .nearest r := Registry.consistent_afterAll calls
  have hrules : r.rules = Registry.accepted .nearest Registry.empty calls :=
    Registry.rules_afterAll .nearest calls Registry.empty
  have hrulesOf : ∀ active c, r.activeRules active c = rulesOf active c := by
    intro active c
    rw [hconsistent.activeRules_eq, hrules]
  have hdouble' : ∀ rule ∈ r.rules, rule.weight.IsDouble := fun rule hrule =>
    hdouble rule (Registry.mem_of_mem_accepted (hrules ▸ hrule))
  refine ⟨?_, fun rule res => run_outcome_of_not_applicable, ?_, ?_, ?_⟩
  · intro active c
    refine ⟨fun hcontained => ?_, fun s hs => ?_⟩
    · rw [← hrulesOf] at hcontained
      exact (Registry.exists_score_iff hconsistent hdouble' m active c).mpr hcontained
    have houtcomes := outcomes_of_evaluate hs
    rw [hrulesOf] at houtcomes
    refine ⟨houtcomes, ?_, hrulesOf active c ▸ forall_outcomes_within_iff hs⟩
    intro o ho hcounts
    rw [houtcomes] at ho
    obtain ⟨rule, -, rfl⟩ := List.mem_map.mp ho
    -- a rule that fails counts as one that applies
    exact run_score_within (hcounts.elim id fun hfailed => (run_of_failed hfailed).1)
  · intro config wait report hrun source time
    obtain ⟨active, hselect, hiff⟩ := document_isUnitScore_iff hrun source time
    refine ⟨active, hselect, hiff.trans ?_⟩
    simp only [hrulesOf]
  · intro limits active c
    obtain ⟨s, hs, -⟩ := Registry.exists_builtIn_score limits m active c
    exact ⟨s, hs, (forall_outcomes_within_iff hs).mpr fun rule hrule =>
      catalog_stays (Registry.mem_of_mem_activeRules hrule).1 m⟩
  · intro config wait report hrun source time
    cases hdigits : config.limits.arePrintable with
    | false => cases (run_of_not_printable hdigits m wait).symm.trans hrun
    | true =>
        rw [run_of_printable hdigits] at hrun
        obtain ⟨active, -, hiff⟩ := document_isUnitScore_iff hrun source time
        exact hiff.mpr fun c rule hrule => catalog_stays (Registry.mem_of_mem_activeRules hrule).1 m

/-- A rule that does not apply and gives a score of five. -/
def strayRule : Rule where
  id := "layout.stray"
  category := .layout
  weight := .finite (1 / 2)
  description := ""
  evaluate _ := .result { score := .finite 5, applicable := false }

/-- A rule that applies and gives a score of five. -/
def eagerRule : Rule :=
  { strayRule with id := "layout.eager", evaluate := fun _ => .result { score := .finite 5 } }

/-- The score of a rule that does not apply is reported as it is given, out of the range. -/
theorem stray_score_reported :
    let r := Registry.empty.afterAll .nearest [.register strayRule, .register eagerRule, .freeze]
    ∃ s, evaluate .nearest (.build [] [] ".") r none .layout = .ok s ∧
      ∃ o ∈ s.outcomes, o.score = .finite 5 ∧ ¬o.score.Within 0 1 := by
  intro r
  have hout : ¬(Number.finite 5).Within 0 1 := by
    rintro ⟨-, -, hle⟩
    norm_num [Number.value] at hle
  -- the weights do not matter here, so only the scores are evaluated
  have houtcomes :
      (evaluate .nearest (.build [] [] ".") r none .layout).toOption.map
        (fun s => s.outcomes.map (·.score)) =
      some [.finite 5, .finite 1] := by
    decide +kernel
  obtain ⟨s, hs, hscores⟩ := Option.map_eq_some_iff.mp houtcomes
  obtain ⟨o, ho, hscore⟩ : ∃ o ∈ s.outcomes, o.score = .finite 5 := by
    have hmem : Number.finite 5 ∈ s.outcomes.map (·.score) := by simp [hscores]
    exact List.mem_map.mp hmem
  refine ⟨s, ?_, o, ho, hscore, hscore ▸ hout⟩
  cases hevaluate : evaluate .nearest (.build [] [] ".") r none .layout with
  | error e =>
      rw [hevaluate] at hs
      cases hs
  | ok s' =>
      rw [hevaluate] at hs
      cases hs
      rfl

/-- Of two rules that give a score of five, the one that applies is moved into the range, and the
other one strays. -/
theorem rule_scores_in_range_stray :
    let calls : List Registry.Call := [.register strayRule, .register eagerRule, .freeze]
    let m := FactModel.build [] [] "."
    (∀ rule, Registry.Call.register rule ∈ calls → rule.weight.IsDouble) ∧
      (strayRule.run m).outcome =
        { ruleId := "layout.stray", weight := .finite (1 / 2), score := .finite 5
          applicable := false } ∧
      ∃ s, evaluate .nearest m (Registry.empty.afterAll .nearest calls) none .layout = .ok s ∧
        ∀ o ∈ s.outcomes, o.applicable = true → o.score.Within 0 1 := by
  intro calls m
  have hdouble : ∀ rule, Registry.Call.register rule ∈ calls → rule.weight.IsDouble := by
    intro rule hrule
    have hcases : rule = strayRule ∨ rule = eagerRule := by simpa [calls] using hrule
    rcases hcases with rfl | rfl
    · decide +kernel
    · decide +kernel
  obtain ⟨hscores, hkept, -⟩ := rule_scores_in_range calls hdouble m
  -- a score out of the range is no failure, as long as it is finite
  have hsound : ¬strayRule.Fails m := by
    rw [← run_failed_iff]
    decide +kernel
  obtain ⟨hexists, hranges⟩ := hscores none .layout
  obtain ⟨s, hs⟩ := hexists (by
    intro rule hrule
    have hcall := Registry.mem_of_mem_accepted (List.mem_filter.mp (List.mem_filter.mp hrule).1).1
    have hcases : rule = strayRule ∨ rule = eagerRule := by simpa [calls] using hcall
    rcases hcases with rfl | rfl <;> exact isContained_of_result rfl)
  obtain ⟨-, hwithin, -⟩ := hranges s hs
  exact ⟨hdouble, hkept strayRule _ hsound (Or.inl rfl) rfl, s, hs,
    fun o ho happ => hwithin o ho (Or.inl happ)⟩

end Scorecard
