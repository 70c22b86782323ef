import Scorecard.Proofs.Monotone
import Scorecard.Proofs.Registry
import Scorecard.Score.Basic

set_option autoImplicit false

/-! # Rules do not disturb each other

A rule may fail in many ways, and almost all of them stay its own affair (`Rule.IsContained`). Two
do not: a fault of which no message can be made leaves the evaluation, and so does one that is
raised when a score of another type is weighed. Without them a category with rules from a registry
has a score (`exists_score_iff`), in which every active rule has one outcome and one block of
findings. What is in the outcome and the block depends on the rule alone, so putting another rule in
its place changes nothing else (`replaced_active`).
-/

namespace Scorecard

variable {ρ : Rounding} {m : FactModel} {r : Registry} {rule : Rule} {active : Option (List String)}
  {c : Category} {res : RuleResult}

/-! ## One rule -/

/-- A rule gives a result, whatever type the score in it has. -/
def Rule.Returns (rule : Rule) (m : FactModel) (res : RuleResult) : Prop :=
  rule.evaluate m = .result res ∨ ∃ f, rule.evaluate m = .unweighable res f

/-- A rule gives no usable result: it raises an error, it gives something that is not a result, or
its result has a score that is not finite or a finding in a file that is not there. -/
def Rule.Fails (rule : Rule) (m : FactModel) : Prop :=
  (∃ f, rule.evaluate m = .raised f ∨ rule.evaluate m = .escaping f) ∨
    (∃ typeName, rule.evaluate m = .malformed typeName) ∨
    ∃ res, rule.Returns m res ∧
      (res.score.isFinite = false ∨
        ∃ f ∈ res.findings, f.location.file ≠ wholeCodebase ∧ f.location.file ∉ m.files)

/-- Nothing that the rule does leaves the evaluation of its category: a message can be made of what
it raises, and if its score counts, it can be weighed. -/
structure Rule.IsContained (rule : Rule) (m : FactModel) : Prop where
  speakable : ∀ f, rule.evaluate m ≠ .escaping f
  weighable : ∀ res f, rule.evaluate m = .unweighable res f → res.applicable = false ∨ rule.Fails m

theorem contains_eq_false_iff (m : FactModel) (l : Location) :
    m.contains l = false ↔ l.file ≠ wholeCodebase ∧ l.file ∉ m.files := by
  simp [FactModel.contains]

theorem resultFault_isSome_iff (m : FactModel) (res : RuleResult) :
    (resultFault m res).isSome = true ↔
      res.score.isFinite = false ∨ ∃ f ∈ res.findings, f.location.file ≠ wholeCodebase ∧
        f.location.file ∉ m.files := by
  unfold resultFault
  by_cases hscore : res.score.isFinite = true
  · rw [if_neg (by simp [hscore])]
    -- the score is checked first, then the findings up to the first one outside the code base
    cases hfind : res.findings.find? fun f => !m.contains f.location with
    | some f =>
        have hmem := List.mem_of_find?_eq_some hfind
        have hout : m.contains f.location = false := by simpa using List.find?_some hfind
        have hwhere := (contains_eq_false_iff m f.location).mp hout
        simp only [Option.isSome_some, true_iff]
        exact Or.inr ⟨f, hmem, hwhere⟩
    | none =>
        simp only [Option.isSome_none, Bool.false_eq_true, hscore, false_iff, not_or]
        refine ⟨by simp, ?_⟩
        rintro ⟨f, hmem, hwhere⟩
        have hin : m.contains f.location = true := by simpa using List.find?_eq_none.mp hfind f hmem
        rw [(contains_eq_false_iff m f.location).mpr hwhere] at hin
        cases hin
  · rw [if_pos (by simpa using hscore)]
    simp only [Option.isSome_some, true_iff]
    exact Or.inl (by simpa using hscore)

theorem check_eq_error_iff (m : FactModel) (res : RuleResult) :
    (∃ f, res.check m = .error f) ↔ (resultFault m res).isSome = true := by
  unfold RuleResult.check
  cases resultFault m res <;> simp

/-- Judging a rule goes wrong exactly if the rule fails. -/
theorem judge_eq_error_iff (rule : Rule) (m : FactModel) :
    (∃ f, rule.judge m = .error f) ↔ rule.Fails m := by
  unfold Rule.judge Rule.Fails Rule.Returns
  cases hverdict : rule.evaluate m with
  | raised f => simp
  | escaping f => simp
  | malformed typeName => simp
  | result res => simp [check_eq_error_iff, resultFault_isSome_iff]
  | unweighable res f => simp [check_eq_error_iff, resultFault_isSome_iff]

theorem eq_of_check {res res' : RuleResult} (h : res.check m = .ok res') : res = res' := by
  unfold RuleResult.check at h
  split at h
  · cases h
  · exact Except.ok.inj h

theorem Rule.returns_of_judge (h : rule.judge m = .ok res) : rule.Returns m res := by
  unfold Rule.judge at h
  unfold Rule.Returns
  cases hverdict : rule.evaluate m with
  | result given =>
      rw [hverdict] at h
      exact Or.inl (congrArg Verdict.result (eq_of_check h))
  | unweighable given f =>
      rw [hverdict] at h
      exact Or.inr ⟨f, by rw [eq_of_check h]⟩
  | _ =>
      rw [hverdict] at h
      cases h

theorem Rule.Returns.unique {res res' : RuleResult} (h : rule.Returns m res)
    (h' : rule.Returns m res') : res = res' := by
  rcases h with h | ⟨f, h⟩ <;> rcases h' with h' | ⟨f', h'⟩ <;> cases h.symm.trans h' <;> rfl

theorem escape?_eq_none_iff : rule.escape? m = none ↔ ∀ f, rule.evaluate m ≠ .escaping f := by
  unfold Rule.escape?
  cases rule.evaluate m <;> simp

theorem misfit?_eq_none_iff :
    rule.misfit? m = none ↔
      ∀ res f, rule.evaluate m = .unweighable res f → res.applicable = false ∨ rule.Fails m := by
  cases hverdict : rule.evaluate m with
  | unweighable res f =>
      -- the rule gives this result only, so it fails exactly if something is wrong with it
      have hfails : rule.Fails m ↔ (resultFault m res).isSome = true := by
        rw [← judge_eq_error_iff, Rule.judge, hverdict]
        exact check_eq_error_iff m res
      have hmisfit :
          rule.misfit? m = if res.applicable && (resultFault m res).isNone then some f
            else none := by
        rw [Rule.misfit?, hverdict]
      rw [hmisfit, hfails]
      cases happ : res.applicable <;> cases resultFault m res <;> simp [happ]
  | _ => simp [Rule.misfit?, hverdict]

theorem isContained_iff : rule.IsContained m ↔ rule.escape? m = none ∧ rule.misfit? m = none := by
  rw [escape?_eq_none_iff, misfit?_eq_none_iff]
  exact ⟨fun h => ⟨h.speakable, h.weighable⟩, fun h => ⟨h.1, h.2⟩⟩

/-- What a rule does is contained if it gives a result with a score of the right type. -/
theorem isContained_of_result (h : rule.evaluate m = .result res) : rule.IsContained m := by
  refine ⟨fun f hf => ?_, fun res' f hf => ?_⟩
  · cases h.symm.trans hf
  · cases h.symm.trans hf

/-- What a rule raises is contained if a message can be made of it. -/
theorem isContained_of_raised {fault : Fault} (h : rule.evaluate m = .raised fault) :
    rule.IsContained m := by
  refine ⟨fun f hf => ?_, fun res' f hf => ?_⟩
  · cases h.symm.trans hf
  · cases h.symm.trans hf

@[simp] theorem run_ruleId (rule : Rule) (m : FactModel) :
    (rule.run m).outcome.ruleId = rule.id := by
  unfold Rule.run
  split
  · split <;> rfl
  · rfl

@[simp] theorem run_weight (rule : Rule) (m : FactModel) :
    (rule.run m).outcome.weight = rule.weight := by
  unfold Rule.run
  split
  · split <;> rfl
  · rfl

theorem run_failed_iff (rule : Rule) (m : FactModel) :
    (rule.run m).outcome.failed = true ↔ rule.Fails m := by
  rw [← judge_eq_error_iff]
  unfold Rule.run
  cases rule.judge m with
  | ok res => by_cases happ : res.applicable = true <;> simp [happ]
  | error f => simp

/-- What a failed rule contributes. -/
theorem run_of_failed (h : (rule.run m).outcome.failed = true) :
    (rule.run m).outcome.applicable = true ∧ (rule.run m).outcome.score = .finite 0 ∧
      ∃ f, (rule.run m).findings = [f] ∧ f.kind = "rule_error:" ++ rule.id ∧
        f.location = .codebase := by
  obtain ⟨f, hf⟩ := (judge_eq_error_iff rule m).mpr ((run_failed_iff rule m).mp h)
  have hrun : rule.run m =
      ⟨{ ruleId := rule.id, weight := rule.weight
         score := .finite 0, applicable := true, failed := true }, [failureFinding rule.id f]⟩ := by
    unfold Rule.run
    rw [hf]
  rw [hrun]
  exact ⟨rfl, rfl, failureFinding rule.id f, rfl, rfl, rfl⟩

/-! ## One category -/

/-- What is said at the end of the findings. -/
def CategoryScore.note (s : CategoryScore) : List Finding :=
  if s.vacuous then [vacuousFinding s.category] else []

/-- The score is between zero and ten, it has the outcomes and the findings of all runs in their
order, and nothing is said at the end unless no rule applies. -/
structure CategoryScore.Reports (s : CategoryScore) (c : Category) (runs : List RuleRun) :
    Prop where
  category_eq : s.category = c
  outcomes_eq : s.outcomes = runs.map (·.outcome)
  findings_eq : s.findings = runs.flatMap (·.findings) ++ s.note
  vacuous_iff : s.vacuous = true ↔ ∀ run ∈ runs, run.outcome.applicable = false
  within : s.rawScore.Within 0 10

theorem check_eq_ok {s : CategoryScore} (h : s.rawScore.Within 0 10) : s.check = .ok s := by
  have hrange : s.InRange := h.le_and_le
  rw [CategoryScore.check, if_pos hrange]

/-- A weight that counts: it is positive, and rounding keeps it. -/
def Number.IsWeight (ρ : Rounding) (w : Number) : Prop :=
  w.isFinite = true ∧ 0 < w.value ∧ w.KeptBy ρ

theorem Number.IsWeight.isAmount {w : Number} (h : w.IsWeight ρ) : w.IsAmount ρ :=
  ⟨Or.inr ⟨h.1, h.2.1.le⟩, h.2.2⟩

/-- Weights do not vanish when they are added up. -/
theorem sum_weights_pos (hρ : ρ.IsMonotone) {ws : List Number} (hne : ws ≠ [])
    (hws : ∀ w ∈ ws, w.IsWeight ρ) : Number.lt (.finite 0) (Number.sum ρ ws) = true := by
  obtain ⟨w, rest, rfl⟩ := List.exists_cons_of_ne_nil hne
  obtain ⟨hfinite, hpos, -⟩ := hws w List.mem_cons_self
  exact Number.sum_pos hρ (fun v hv => (hws v hv).isAmount) List.mem_cons_self
    ((Number.lt_iff_value_lt rfl hfinite).mpr hpos)

/-- Ten times a mean that was moved into range is from zero to ten. -/
theorem ten_mul_clamp_within (hρ : ρ.IsMonotone) (mean : Number) :
    (Number.mul ρ (.finite 10) (mean.clamp (.finite 0) (.finite 1))).Within 0 10 := by
  have hten : (Number.finite 10).Within 0 (10 : ℕ) :=
    Number.within_finite (by norm_num) (by norm_num)
  have hmean : (mean.clamp (.finite 0) (.finite 1)).Within 0 (1 : ℕ) := by
    simpa using Number.clamp_within (by norm_num) mean
  simpa using Number.mul_within hρ (by norm_num) hten hmean

/-- A category has a score if the weights of its rules weigh something. -/
theorem scoreOfRuns_reports (hρ : ρ.IsMonotone) (c : Category) (runs : List RuleRun)
    (hweight : ∀ run ∈ runs, run.outcome.weight.IsWeight ρ) :
    ∃ s, scoreOfRuns ρ c runs = .ok s ∧ s.Reports c runs := by
  set applicable := (runs.map (·.outcome)).filter (·.applicable) with happlicable
  have hiff : applicable = [] ↔ ∀ run ∈ runs, run.outcome.applicable = false := by
    simp [happlicable, List.filter_eq_nil_iff]
  by_cases hnone : applicable = []
  · -- no rule applies
    have hten : (Number.finite 10).Within 0 10 := Number.within_finite (by norm_num) (le_refl _)
    refine ⟨⟨c, .finite 10, runs.flatMap (·.findings) ++ [vacuousFinding c], runs.map (·.outcome),
      true⟩, ?_, ?_⟩
    · unfold scoreOfRuns
      simp only [← happlicable, hnone, List.isEmpty_nil, if_true]
      exact check_eq_ok hten
    · exact ⟨rfl, rfl, by simp [CategoryScore.note], by simpa using hiff.mp hnone, hten⟩
  · have hsum : (Number.sum ρ (applicable.map (·.weight))).isZero = false := by
      refine Number.isZero_eq_false_of_lt (sum_weights_pos hρ (by simpa using hnone) fun w hw => ?_)
      obtain ⟨o, ho, rfl⟩ := List.mem_map.mp hw
      obtain ⟨run, hrun, rfl⟩ := List.mem_map.mp (List.mem_filter.mp ho).1
      exact hweight run hrun
    have hmean : ∃ mean, weightedMean ρ applicable = .ok mean := by
      simp only [weightedMean, hsum]
      exact ⟨_, rfl⟩
    obtain ⟨mean, hmean⟩ := hmean
    refine ⟨⟨c, Number.mul ρ (.finite 10) (mean.clamp (.finite 0) (.finite 1)),
      runs.flatMap (·.findings), runs.map (·.outcome), false⟩, ?_, ?_⟩
    · unfold scoreOfRuns
      have hempty : applicable.isEmpty = false := by simpa using hnone
      simp only [← happlicable, hempty, hmean]
      exact check_eq_ok (ten_mul_clamp_within hρ mean)
    · exact ⟨rfl, rfl, by simp [CategoryScore.note], by simpa using fun h => hnone (hiff.mpr h),
        ten_mul_clamp_within hρ mean⟩

theorem check_eq_ok_iff {s t : CategoryScore} : s.check = .ok t ↔ s.InRange ∧ s = t := by
  unfold CategoryScore.check
  by_cases h : s.InRange
  · simp [h]
  · simp [h]

/-- The findings of a score are those of its runs, and the note that no rule applies. -/
theorem findings_of_scoreOfRuns {runs : List RuleRun} {s : CategoryScore}
    (h : scoreOfRuns ρ c runs = .ok s) :
    ∀ f ∈ s.findings, f = vacuousFinding c ∨ ∃ run ∈ runs, f ∈ run.findings := by
  intro f hf
  dsimp only [scoreOfRuns] at h
  split at h
  · obtain ⟨-, rfl⟩ := check_eq_ok_iff.mp h
    rcases List.mem_append.mp hf with hf | hf
    · exact Or.inr (List.mem_flatMap.mp hf)
    · exact Or.inl (List.mem_singleton.mp hf)
  · split at h
    · cases h
    · obtain ⟨-, rfl⟩ := check_eq_ok_iff.mp h
      exact Or.inr (List.mem_flatMap.mp hf)

/-- A weight from zero to one counts. -/
theorem isWeight_of_range {w : Number} (hpos : Number.lt (.finite 0) w = true)
    (hone : w.le (.finite 1) = true) (hkept : w.KeptBy ρ) : w.IsWeight ρ := by
  rcases w with x | _ | (_ | _) | _
  · exact ⟨rfl, (Number.lt_iff_value_lt rfl rfl).mp hpos, hkept⟩
  · simp [Number.lt, Number.place] at hpos
  · simp [Number.le, Number.place] at hone
  · simp [Number.lt, Number.place] at hpos
  · simp [Number.lt, Number.place] at hpos

/-! ## One registry -/

namespace Registry

theorem Consistent.activeRules_eq (h : Consistent ρ r) (active : Option (List String))
    (c : Category) :
    r.activeRules active c = (r.rules.filter (·.category = c)).filter (isActive active) := by
  rw [activeRules, h.rulesFor_eq]

/-- A category is scored by the runs of its active rules if what they do is contained. -/
theorem evaluate_of_isContained (h : ∀ rule ∈ r.activeRules active c, rule.IsContained m) :
    evaluate ρ m r active c = scoreOfRuns ρ c ((r.activeRules active c).map (·.run m)) := by
  have hescapes : (r.activeRules active c).findSome? (·.escape? m) = none :=
    List.findSome?_eq_none_iff.mpr fun rule hrule => (isContained_iff.mp (h rule hrule)).1
  have hmisfits : (r.activeRules active c).findSome? (·.misfit? m) = none :=
    List.findSome?_eq_none_iff.mpr fun rule hrule => (isContained_iff.mp (h rule hrule)).2
  rw [evaluate, hescapes, hmisfits]
  rfl

/-- A fault that is not contained leaves the evaluation. -/
theorem evaluate_of_not_isContained (h : ¬∀ rule ∈ r.activeRules active c, rule.IsContained m) :
    ∃ f, evaluate ρ m r active c = .error (.raised f) := by
  rw [evaluate]
  cases hfound :
      (r.activeRules active c).findSome? (·.escape? m) <|> (r.activeRules active c).findSome?
        (·.misfit? m) with
  | some f => exact ⟨f, rfl⟩
  | none =>
      obtain ⟨hescapes, hmisfits⟩ :=
        Option.or_eq_none_iff.mp (Option.orElse_eq_or.symm.trans hfound)
      exact absurd (fun rule hrule => isContained_iff.mpr
        ⟨List.findSome?_eq_none_iff.mp hescapes rule hrule,
          List.findSome?_eq_none_iff.mp hmisfits rule hrule⟩) h

theorem isContained_of_evaluate {s : CategoryScore} (h : evaluate ρ m r active c = .ok s) :
    ∀ rule ∈ r.activeRules active c, rule.IsContained m := by
  by_contra hnot
  obtain ⟨f, hf⟩ := evaluate_of_not_isContained (ρ := ρ) hnot
  cases h.symm.trans hf

theorem scoreOfRuns_of_evaluate {s : CategoryScore} (h : evaluate ρ m r active c = .ok s) :
    scoreOfRuns ρ c ((r.activeRules active c).map (·.run m)) = .ok s := by
  rw [← evaluate_of_isContained (isContained_of_evaluate h), h]

/-- With weights that double precision has, a category of a registry has a score if what its rules
do is contained. -/
theorem exists_score (h : Consistent .nearest r) (hdouble : ∀ rule ∈ r.rules, rule.weight.IsDouble)
    (hcontained : ∀ rule ∈ r.activeRules active c, rule.IsContained m) :
    ∃ s, evaluate .nearest m r active c = .ok s ∧ s.Reports c
      ((r.activeRules active c).map (·.run m)) := by
  rw [evaluate_of_isContained hcontained]
  refine scoreOfRuns_reports Rounding.isMonotone_nearest c _ fun run hrun => ?_
  obtain ⟨rule, hrule, rfl⟩ := List.mem_map.mp hrun
  rw [h.activeRules_eq] at hrule
  have hin : rule ∈ r.rules := (List.mem_filter.mp (List.mem_filter.mp hrule).1).1
  rw [run_weight]
  exact isWeight_of_range (h.positive rule hin) (h.atMostOne rule hin)
    (Number.keptBy_nearest (hdouble rule hin))

theorem exists_score_iff (h : Consistent .nearest r)
    (hdouble : ∀ rule ∈ r.rules, rule.weight.IsDouble) (m : FactModel)
    (active : Option (List String)) (c : Category) :
    (∃ s, evaluate .nearest m r active c = .ok s) ↔ ∀ rule ∈ r.activeRules active c,
      rule.IsContained m := by
  constructor
  · rintro ⟨s, hs⟩
    exact isContained_of_evaluate hs
  · intro hcontained
    obtain ⟨s, hs, -⟩ := exists_score h hdouble hcontained
    exact ⟨s, hs⟩

theorem reports_of_evaluate (h : Consistent .nearest r)
    (hdouble : ∀ rule ∈ r.rules, rule.weight.IsDouble) {s : CategoryScore}
    (hs : evaluate .nearest m r active c = .ok s) :
    s.Reports c ((r.activeRules active c).map (·.run m)) := by
  obtain ⟨s', hs', hreports⟩ := exists_score h hdouble (isContained_of_evaluate hs)
  cases hs.symm.trans hs'
  exact hreports

theorem activeRules_mapRules {f : Rule → Rule} (hf : KeepsPlace f) (r : Registry)
    (active : Option (List String)) (c : Category) :
    (r.mapRules f).activeRules active c = (r.activeRules active c).map f := by
  have hactive : isActive active ∘ f = isActive active := by
    funext rule
    simp only [Function.comp_apply, isActive, hf.id_eq]
  rw [activeRules, rulesFor_mapRules, List.filter_map, hactive, activeRules]

/-- What a category scores depends on its active rules only. -/
theorem evaluate_congr {r r' : Registry} (h : r'.activeRules active c = r.activeRules active c) :
    evaluate ρ m r' active c = evaluate ρ m r active c := by
  rw [evaluate, evaluate, h]

end Registry

/-! ## Another rule in the place of a rule -/

/-- The rule `new` instead of the one in its place. -/
def Rule.replacedBy (new rule : Rule) : Rule :=
  if rule.id = new.id ∧ rule.category = new.category ∧ rule.weight = new.weight then new else rule

theorem keepsPlace_replacedBy (new : Rule) : Registry.KeepsPlace (Rule.replacedBy new) := by
  refine ⟨?_, ?_, ?_⟩
  · intro rule
    unfold Rule.replacedBy
    split
    · rename_i h
      exact h.1.symm
    · rfl
  · intro rule
    unfold Rule.replacedBy
    split
    · rename_i h
      exact h.2.1.symm
    · rfl
  · intro rule
    unfold Rule.replacedBy
    split
    · rename_i h
      exact h.2.2.symm
    · rfl

theorem replacedBy_of_id_ne {new rule : Rule} (h : rule.id ≠ new.id) :
    Rule.replacedBy new rule = rule :=
  if_neg fun hsame => h hsame.1

theorem map_replacedBy_eq_self {new : Rule} {rules : List Rule}
    (h : ∀ rule ∈ rules, rule.id ≠ new.id) : rules.map (Rule.replacedBy new) = rules := by
  have hmap : rules.map (Rule.replacedBy new) = rules.map id :=
    List.map_congr_left fun rule hrule => replacedBy_of_id_ne (h rule hrule)
  rw [hmap, List.map_id]

/-- Among rules with distinct ids, one has all others before and after it. -/
theorem exists_split_of_mem {rules : List Rule} (hids : (rules.map (·.id)).Nodup) {old : Rule}
    (h : old ∈ rules) :
    ∃ before later, rules = before ++ old :: later ∧ ∀ other ∈ before ++ later,
      other.id ≠ old.id := by
  obtain ⟨before, later, rfl⟩ := List.append_of_mem h
  refine ⟨before, later, rfl, ?_⟩
  have hperm : (before ++ old :: later).Perm (old :: (before ++ later)) := List.perm_middle
  have hnodup := (hperm.map (·.id)).nodup_iff.mp hids
  rw [List.map_cons, List.nodup_cons] at hnodup
  intro other hother heq
  exact hnodup.1 (List.mem_map.mpr ⟨other, hother, heq⟩)

namespace Registry

/-- **Replacing an active rule.** All rules before and after it stay. -/
theorem replaced_active (h : Consistent ρ r) {old new : Rule}
    (hold : old ∈ r.activeRules active old.category) (hid : new.id = old.id)
    (hcategory : new.category = old.category) (hweight : new.weight = old.weight) :
    ∃ before later, r.activeRules active old.category = before ++ old :: later ∧
      (∀ other ∈ before ++ later, other.id ≠ old.id) ∧
      (r.mapRules (Rule.replacedBy new)).activeRules active old.category =
        before ++ new :: later := by
  have hids : ((r.activeRules active old.category).map (·.id)).Nodup := by
    have hsub : (r.activeRules active old.category).Sublist r.rules := by
      rw [h.activeRules_eq]
      exact List.filter_sublist.trans List.filter_sublist
    have hall : (r.rules.map (·.id)).Nodup := h.ids_eq ▸ h.ids_nodup
    exact hall.sublist (hsub.map _)
  -- the rule stands once among the active ones, and only there the lists differ
  obtain ⟨before, later, hsplit, hother⟩ := exists_split_of_mem hids hold
  have hrest : ∀ other ∈ before ++ later, other.id ≠ new.id := hid ▸ hother
  have hnew : Rule.replacedBy new old = new := if_pos ⟨hid.symm, hcategory.symm, hweight.symm⟩
  refine ⟨before, later, hsplit, hother, ?_⟩
  rw [activeRules_mapRules (keepsPlace_replacedBy new), hsplit, List.map_append,
    List.map_cons, hnew,
    map_replacedBy_eq_self fun rule hrule => hrest rule (List.mem_append_left _ hrule),
    map_replacedBy_eq_self fun rule hrule => hrest rule (List.mem_append_right _ hrule)]

/-- The rule in the place of a rule has its weight. -/
theorem isDouble_mapRules (h : ∀ rule ∈ r.rules, rule.weight.IsDouble) (new : Rule) :
    ∀ rule ∈ (r.mapRules (Rule.replacedBy new)).rules, rule.weight.IsDouble := by
  intro rule hrule
  rw [rules_mapRules] at hrule
  obtain ⟨orig, horig, rfl⟩ := List.mem_map.mp hrule
  rw [(keepsPlace_replacedBy new).weight_eq]
  exact h orig horig

/-- Where the rule is not active, replacing it changes nothing. -/
theorem evaluate_replaced_of_not_mem {new : Rule}
    (h : ∀ rule ∈ r.activeRules active c, rule.id ≠ new.id) :
    evaluate .nearest m (r.mapRules (Rule.replacedBy new)) active c =
      evaluate .nearest m r active c := by
  refine evaluate_congr ?_
  rw [activeRules_mapRules (keepsPlace_replacedBy new)]
  exact map_replacedBy_eq_self h

/-- Only the category of a rule can have its id among the active rules. -/
theorem Consistent.eq_of_mem_activeRules (h : Consistent ρ r) {old rule : Rule}
    (hold : old ∈ r.rules) (hrule : rule ∈ r.activeRules active c) (hid : rule.id = old.id) :
    c = old.category ∧ isActive active old = true := by
  rw [h.activeRules_eq] at hrule
  obtain ⟨hin, hactive⟩ := List.mem_filter.mp hrule
  obtain ⟨hin, hcategory⟩ := List.mem_filter.mp hin
  have hget : r.get? old.id = some rule := h.get?_eq_some_iff.mpr ⟨hin, hid⟩
  have hget' : r.get? old.id = some old := h.get?_eq_some_iff.mpr ⟨hold, rfl⟩
  have hsame : rule = old := Option.some.inj (hget.symm.trans hget')
  rw [← hsame]
  exact ⟨(of_decide_eq_true hcategory).symm, hactive⟩

end Registry

end Scorecard
