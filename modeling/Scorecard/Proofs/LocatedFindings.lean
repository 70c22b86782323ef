import Scorecard.Proofs.RegistrationOrder
import Scorecard.Proofs.ScoreOrder

set_option autoImplicit false

/-! # Where the findings of a report come from

Rules may come from anywhere and say anything, so their results are checked before they count. What
counts for a rule is its `answer`: the result it gives, or one finding that says why it gives none.
Every finding of a report is in an answer or notes that a category is vacuous, and every one of them
lies in the code base (`findings_accounted_for`). Nothing of this depends on the arithmetic.
-/

namespace Scorecard

/-! ## What counts for a rule -/

/-- What counts for a rule: its result, or a score of zero with a finding that says why it has
none. -/
def Rule.answer (rule : Rule) (m : FactModel) : RuleResult :=
  match rule.judge m with
  | .ok res => res
  | .error f => { score := .finite 0, findings := [failureFinding rule.id f] }

/-- A result may count for a rule: the result the rule gives, or for a rule that fails, a score of
zero with one finding about the rule, at the code base. -/
def Rule.Counts (rule : Rule) (m : FactModel) (res : RuleResult) : Prop :=
  (¬rule.Fails m ∧ rule.Returns m res) ∨
    (rule.Fails m ∧ res.score = .finite 0 ∧ res.applicable = true ∧
      ∃ f, res.findings = [f] ∧ f.ruleId = rule.id ∧ f.kind = "rule_error:" ++ rule.id ∧
        f.location = .codebase)

theorem Rule.counts_answer (rule : Rule) (m : FactModel) : rule.Counts m (rule.answer m) := by
  unfold Rule.answer
  cases hjudge : rule.judge m with
  | ok res =>
      refine Or.inl ⟨?_, Rule.returns_of_judge hjudge⟩
      intro hfails
      obtain ⟨f, hf⟩ := (judge_eq_error_iff rule m).mpr hfails
      rw [hjudge] at hf
      cases hf
  | error f =>
      have hfails : rule.Fails m := (judge_eq_error_iff rule m).mp ⟨f, hjudge⟩
      exact Or.inr ⟨hfails, rfl, rfl, failureFinding rule.id f, rfl, rfl, rfl, rfl⟩

theorem contains_codebase (m : FactModel) : m.contains .codebase = true := rfl

/-- The findings of an answer lie in the code base: a result with any other finding is a failure,
which is noted at the code base. -/
theorem Rule.answer_located (rule : Rule) (m : FactModel) :
    ∀ f ∈ (rule.answer m).findings, m.contains f.location = true := by
  intro f hf
  by_contra hout
  rcases rule.counts_answer m with ⟨hsound, hverdict⟩ | ⟨-, -, -, g, hg, -, -, hplace⟩
  · -- a finding elsewhere would have made the rule fail
    have hwhere := (contains_eq_false_iff m f.location).mp (by simpa using hout)
    exact hsound (Or.inr (Or.inr ⟨_, hverdict, Or.inr ⟨f, hf, hwhere⟩⟩))
  · rw [hg, List.mem_singleton] at hf
    rw [hf, hplace, contains_codebase] at hout
    exact hout rfl

theorem run_applicable (rule : Rule) (m : FactModel) :
    (rule.run m).outcome.applicable = (rule.answer m).applicable := by
  unfold Rule.run Rule.answer
  cases rule.judge m with
  | ok res => by_cases happ : res.applicable = true <;> simp [happ]
  | error f => rfl

/-- The findings of an answer count if the rule applies. -/
theorem run_findings (rule : Rule) (m : FactModel) :
    (rule.run m).findings = if (rule.answer m).applicable then (rule.answer m).findings
      else [] := by
  unfold Rule.run Rule.answer
  cases rule.judge m with
  | ok res => by_cases happ : res.applicable = true <;> simp [happ]
  | error f => rfl

/-- The findings of the rules that apply, one rule after the other. -/
def findingsOf (m : FactModel) (rules : List Rule) : List Finding :=
  ((rules.map (·.answer m)).filter (·.applicable)).flatMap (·.findings)

theorem flatMap_run_findings (m : FactModel) (rules : List Rule) :
    (rules.map (·.run m)).flatMap (·.findings) = findingsOf m rules := by
  unfold findingsOf
  induction rules with
  | nil => rfl
  | cons rule rest ih =>
      rw [List.map_cons, List.flatMap_cons, ih, run_findings, List.map_cons]
      by_cases happ : (rule.answer m).applicable = true
      · rw [if_pos happ, List.filter_cons_of_pos happ, List.flatMap_cons]
      · rw [if_neg happ, List.filter_cons_of_neg happ, List.nil_append]

theorem findingsOf_located {m : FactModel} {rules : List Rule} :
    ∀ f ∈ findingsOf m rules, m.contains f.location = true := by
  intro f hf
  obtain ⟨res, hres, hmem⟩ := List.mem_flatMap.mp hf
  obtain ⟨rule, -, rfl⟩ := List.mem_map.mp (List.mem_filter.mp hres).1
  exact rule.answer_located m f hmem

/-! ## One category -/

/-- The score accounts for the rules of its category, in their order. -/
structure CategoryScore.AccountsFor (s : CategoryScore) (m : FactModel) (rules : List Rule) :
    Prop where
  outcomes_eq : s.outcomes.map (fun o => (o.ruleId, o.applicable)) = rules.map fun rule =>
    (rule.id, (rule.answer m).applicable)
  vacuous_iff : s.vacuous = true ↔ ∀ rule ∈ rules, (rule.answer m).applicable = false
  findings_eq : s.vacuous = false → s.findings = findingsOf m rules
  of_vacuous : s.vacuous = true → s.rawScore = .finite 10 ∧ s.findings = [vacuousFinding s.category]

/-- The score of a category says which rules ran and what they found. -/
theorem evaluate_accountsFor {ρ : Rounding} {m : FactModel} {r : Registry}
    {active : Option (List String)} {c : Category} {s : CategoryScore}
    (h : evaluate ρ m r active c = .ok s) :
    s.category = c ∧ s.AccountsFor m (r.activeRules active c) := by
  set rules := r.activeRules active c with hrules
  have houtcomes : ((rules.map (·.run m)).map (·.outcome)).map (fun o => (o.ruleId, o.applicable)) =
      rules.map fun rule => (rule.id, (rule.answer m).applicable) := by
    rw [List.map_map, List.map_map]
    refine List.map_congr_left fun rule _ => ?_
    simp [run_applicable]
  have hnone : (((rules.map (·.run m)).map (·.outcome)).filter (·.applicable)).isEmpty = true ↔
      ∀ rule ∈ rules, (rule.answer m).applicable = false := by
    rw [List.isEmpty_iff, List.filter_eq_nil_iff]
    simp [run_applicable]
  have h := Registry.scoreOfRuns_of_evaluate h
  rw [← hrules] at h
  dsimp only [scoreOfRuns] at h
  by_cases hempty : (((rules.map (·.run m)).map (·.outcome)).filter (·.applicable)).isEmpty = true
  · -- no rule applies, so no rule has findings that count
    rw [if_pos hempty] at h
    obtain ⟨-, rfl⟩ := check_eq_ok_iff.mp h
    have hdropped : findingsOf m rules = [] := by
      have hfilter : (rules.map (·.answer m)).filter (·.applicable) = [] := by
        rw [List.filter_eq_nil_iff]
        simpa using hnone.mp hempty
      rw [findingsOf, hfilter, List.flatMap_nil]
    refine ⟨rfl, houtcomes, ?_, ?_, ?_⟩
    · simpa using hnone.mp hempty
    · intro hvacuous
      cases hvacuous
    · intro _
      rw [flatMap_run_findings, hdropped]
      exact ⟨rfl, rfl⟩
  · rw [if_neg hempty] at h
    cases hmean :
        weightedMean ρ (((rules.map (·.run m)).map (·.outcome)).filter (·.applicable)) with
    | error e =>
        rw [hmean] at h
        cases h
    | ok mean =>
        rw [hmean] at h
        obtain ⟨-, rfl⟩ := check_eq_ok_iff.mp h
        refine ⟨rfl, houtcomes, ?_, ?_, ?_⟩
        · simpa using fun hall => hempty (hnone.mpr hall)
        · intro _
          exact flatMap_run_findings m rules
        · intro hvacuous
          cases hvacuous

theorem CategoryScore.AccountsFor.located {s : CategoryScore} {m : FactModel} {rules : List Rule}
    (h : s.AccountsFor m rules) : ∀ f ∈ s.findings, m.contains f.location = true := by
  intro f hf
  cases hvacuous : s.vacuous with
  | false =>
      rw [h.findings_eq hvacuous] at hf
      exact findingsOf_located f hf
  | true =>
      rw [(h.of_vacuous hvacuous).2, List.mem_singleton] at hf
      rw [hf]
      exact contains_codebase m

/-! ## All categories -/

/-- The scores of a report are the given ones, in the order of the categories. -/
theorem scores_of_aggregate {ρ : Rounding} {scores : List CategoryScore} {overrides : Weights}
    {bounds : ReportBounds} {report : Report}
    (h : aggregate ρ scores overrides bounds = .ok report) :
    report.scores.map (·.category) = Category.all ∧ ∀ s ∈ report.scores, s ∈ scores := by
  dsimp only [aggregate] at h
  split at h
  · cases h
  · split at h
    · cases h
    · rename_i hmissing
      split at h
      · cases h
      · rw [reportOf_scores h]
        -- past the check no category is missing
        have hfound : ∀ c ∈ Category.all, ∃ s, scoreOf? scores c = some s := by
          have hnil : (Category.all.filter fun c => (scoreOf? scores c).isNone) = [] := by
            simpa using hmissing
          intro c hc
          have hsome := List.filter_eq_nil_iff.mp hnil c hc
          exact Option.ne_none_iff_exists'.mp (by simpa using hsome)
        refine ⟨?_, ?_⟩
        · have hcategory : ∀ c ∈ Category.all, (scoreOf? scores c).map (·.category) = some c := by
            intro c hc
            obtain ⟨s, hs⟩ := hfound c hc
            have hsame : s.category = c := by simpa [scoreOf?] using List.find?_some hs
            rw [hs, Option.map_some, hsame]
          rw [List.map_filterMap, List.filterMap_congr hcategory, List.filterMap_some]
        · intro s hs
          obtain ⟨c, -, hc⟩ := List.mem_filterMap.mp hs
          exact List.mem_of_find?_eq_some hc

theorem evaluate_of_mem_evaluateAll {ρ : Rounding} {m : FactModel} {r : Registry}
    {active : Option (List String)} {workers : Option Int} {scores : List CategoryScore}
    (h : evaluateAll ρ m r active workers = .ok scores) {s : CategoryScore} (hs : s ∈ scores) :
    evaluate ρ m r active s.category = .ok s := by
  dsimp only [evaluateAll] at h
  split at h
  · cases h
    cases hs
  · split at h
    · cases h
    · split at h
      · obtain ⟨c, -, hc⟩ := exists_of_mem_forall₂ (mapM_eq_ok_iff.mp (mapError_eq_ok_iff.mp h)) hs
        rwa [(evaluate_accountsFor hc).1]
      · cases h

/-- A report has a score for each category, and it is the one that the category has with the
selected rules. -/
theorem evaluate_of_runWith {ρ : Rounding} {m : FactModel} {c : Config} {r : Registry} {wait : Wait}
    {report : Report} (h : runWith ρ m c r wait = .ok report) :
    ∃ active, r.select c.enabled c.disabled = .ok active ∧ report.scores.map
      (·.category) = Category.all ∧
      ∀ s ∈ report.scores, evaluate ρ m r (some active) s.category = .ok s := by
  unfold runWith at h
  split at h
  · cases h
  · split at h
    · cases h
    · rename_i active hselect
      split at h
      · cases h
      · unfold runRules at h
        split at h
        · cases h
        · cases h
        · cases h
        · rename_i scores hscores
          -- only a run that got through all its checks gives a report
          obtain ⟨hall, hmem⟩ := scores_of_aggregate (mapError_eq_ok_iff.mp h)
          refine ⟨active, hselect, hall, ?_⟩
          intro s hs
          exact evaluate_of_mem_evaluateAll hscores (hmem s hs)

/-- The active rules of a category, in the order of registration. -/
theorem Registry.Holds.activeRules_eq {r : Registry} {rs : List Rule} (h : r.Holds rs)
    (active : List String) (c : Category) :
    r.activeRules (some active) c = rs.filter fun rule => rule.category = c ∧ rule.id ∈ active := by
  rw [activeRules, h.rulesFor_eq, List.filter_filter]
  refine List.filter_congr fun rule _ => ?_
  by_cases hmem : rule.id ∈ active
  · simp [isActive, hmem]
  · simp [isActive, hmem]

/-- **The findings of a report are accounted for and located.** Take a registry after any calls,
with any rules. If a run gives a report, it has a score for each category, and all its findings lie
in the code base. The findings of a category are those of its active rules that apply, in the order
of registration, where a rule that fails counts with one finding about itself. A category is vacuous
exactly if none of its active rules applies; then its score is ten, and the only finding says that
it is vacuous, at the code base. -/
theorem findings_accounted_for (ρ : Rounding) (calls : List Registry.Call) (m : FactModel)
    (c : Config) (wait : Wait) {report : Report}
    (h : runWith ρ m c (Registry.empty.afterAll ρ calls) wait = .ok report) :
    (∀ rule : Rule, rule.Counts m (rule.answer m)) ∧
      (∀ f ∈ report.findings, m.contains f.location = true) ∧
      report.scores.map (·.category) = Category.all ∧
      ∃ active, (Registry.empty.afterAll ρ calls).select c.enabled c.disabled = .ok active ∧
        ∀ s ∈ report.scores,
          let rules := (Registry.accepted ρ Registry.empty calls).filter fun rule =>
            rule.category = s.category ∧ rule.id ∈ active
          s.outcomes.map (fun o => (o.ruleId, o.applicable)) =
              (rules.map fun rule => (rule.id, (rule.answer m).applicable)) ∧
            (s.vacuous = true ↔ ∀ rule ∈ rules, (rule.answer m).applicable = false) ∧
            (s.vacuous = false →
              s.findings = ((rules.map (·.answer m)).filter (·.applicable)).flatMap (·.findings)) ∧
            (s.vacuous = true → s.rawScore = .finite 10 ∧
              ∃ f, s.findings = [f] ∧ f.kind = "vacuous" ∧ f.location = .codebase) := by
  obtain ⟨active, hselect, hall, hscores⟩ := evaluate_of_runWith h
  have haccounts :
      ∀ s ∈ report.scores,
        s.AccountsFor m ((Registry.accepted ρ Registry.empty calls).filter fun rule =>
      rule.category = s.category ∧ rule.id ∈ active) := by
    intro s hs
    rw [← (Registry.holds_afterAll ρ calls).activeRules_eq]
    exact (evaluate_accountsFor (hscores s hs)).2
  refine ⟨fun rule => rule.counts_answer m, ?_, hall, active, hselect, ?_⟩
  · intro f hf
    obtain ⟨s, hs, hmem⟩ := List.mem_flatMap.mp hf
    exact (haccounts s hs).located f hmem
  · intro s hs rules
    have hs' := haccounts s hs
    refine ⟨hs'.outcomes_eq, hs'.vacuous_iff, hs'.findings_eq, ?_⟩
    intro hvacuous
    obtain ⟨hten, hnote⟩ := hs'.of_vacuous hvacuous
    exact ⟨hten, vacuousFinding s.category, hnote, rfl, rfl⟩

/-- Every rule points to a file that is not there, except the one for naming, which does not apply.
There is a report, none of its findings is in that file, and naming is vacuous. -/
theorem findings_accounted_for_elsewhere :
    let place (c : Category) : Location :=
      if c = .naming then .codebase else ⟨"elsewhere.py", .int 1, .int 1⟩
    let rule (c : Category) : Rule :=
      { id := c.slug, category := c, weight := .finite 1, description := ""
        evaluate := fun _ => .result
          { score := .finite 1, applicable := decide (c ≠ .naming)
            findings :=
              [{ ruleId := c.slug, kind := c.slug, message := "", location := place c }] } }
    let calls := Category.all.map fun c => Registry.Call.register (rule c)
    let m := FactModel.build [] [] "."
    ∃ report, runWith .nearest m {} (Registry.empty.afterAll .nearest calls) .complete =
      .ok report ∧ (∀ f ∈ report.findings, m.contains f.location = true) ∧
      ∃ s ∈ report.scores, s.category = .naming ∧ s.vacuous = true ∧
        ∃ f, s.findings = [f] ∧ f.kind = "vacuous" ∧ f.location = .codebase := by
  intro place rule calls m
  have hconsistent := Registry.consistent_afterAll calls
  have hrules := Registry.rules_afterAll .nearest calls Registry.empty
  -- what a registry holds was registered, so the rules need not be computed
  have hmade : ∀ other ∈ (Registry.empty.afterAll .nearest calls).rules, ∃ d, other = rule d := by
    intro other hother
    rw [hrules] at hother
    obtain ⟨d, -, hd⟩ := List.mem_map.mp (Registry.mem_of_mem_accepted hother)
    injection hd with hd
    exact ⟨d, hd.symm⟩
  have hdouble : ∀ other ∈ (Registry.empty.afterAll .nearest calls).rules,
      other.weight.IsDouble := by
    intro other hother
    obtain ⟨d, rfl⟩ := hmade other hother
    have hone : (Number.finite 1).IsDouble := by decide +kernel
    exact hone
  have hquick : ∀ other ∈ (Registry.empty.afterAll .nearest calls).rules, other.stalls = false := by
    intro other hother
    obtain ⟨d, rfl⟩ := hmade other hother
    rfl
  have hgood : ¬({} : Config).Bad (Registry.empty.afterAll .nearest calls) := by
    rintro (hnone | ⟨id, hid, -⟩)
    · obtain ⟨ws, hws⟩ := Config.sound_default.1
      exact hnone ws hws
    · cases hid
  have hmissing : missingCategories (Registry.empty.afterAll .nearest calls).rules = [] := by
    rw [hrules]
    decide +kernel
  have hcontained : ({} : Config).IsContained (Registry.empty.afterAll .nearest calls) m := by
    intro active _ d other hother
    rw [hconsistent.activeRules_eq] at hother
    obtain ⟨e, rfl⟩ := hmade other (List.mem_filter.mp (List.mem_filter.mp hother).1).1
    exact isContained_of_result rfl
  obtain ⟨scores, ⟨active, -, hevaluated, -⟩, hreports⟩ :=
    runWith_complete hconsistent hdouble Config.sound_default.2
      (Config.runsInTime_of_rules hconsistent hquick _) hgood
      (Wait.error?_complete _) hcontained hmissing
  -- the code base has no files, so that every finding is about the code base as a whole
  have hwritable : AreWritable 5 scores := by
    refine areWritable_of_findings (fun s hs f hf => Or.inl ?_) 5
    obtain ⟨d, -, hd⟩ := exists_of_mem_forall₂ (mapM_eq_ok_iff.mp hevaluated) hs
    have hin := (evaluate_accountsFor hd).2.located f hf
    simpa [FactModel.contains, FactModel.mem_files_build, m] using hin
  obtain ⟨report, hrun, -⟩ := hreports.report hwritable
  obtain ⟨-, hlocated, hall, active, -, hscores⟩ :=
    findings_accounted_for .nearest calls m {} .complete hrun
  obtain ⟨s, hs, hnaming⟩ : ∃ s ∈ report.scores, s.category = .naming :=
    List.mem_map.mp (hall ▸ Category.mem_all .naming)
  obtain ⟨-, hvacuous, -, hnote⟩ := hscores s hs
  have hs' : s.vacuous = true := by
    refine hvacuous.mpr ?_
    intro other hother
    obtain ⟨haccepted, hcategory⟩ := List.mem_filter.mp hother
    rw [← List.nil_append (Registry.accepted _ _ _)] at haccepted
    obtain ⟨d, rfl⟩ := hmade other (hrules ▸ haccepted)
    have hd : d = .naming := (of_decide_eq_true hcategory).1.trans hnaming
    rw [hd]
    rfl
  exact ⟨report, hrun, hlocated, s, hs, hnaming, hs', (hnote hs').2⟩

end Scorecard
