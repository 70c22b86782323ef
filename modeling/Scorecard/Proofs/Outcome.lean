import Scorecard.Config.Read
import Scorecard.Proofs.Pool
import Scorecard.Proofs.Recommendations
import Scorecard.Proofs.RuleForm
import Scorecard.Proofs.Weights
import Scorecard.Report.Run

set_option autoImplicit false

/-! # How a run can end

If something is wrong with the configuration, a run says so before any rule has run. Then the
waiting may fail. Then a fault of a rule may leave the evaluation, which those of the built-in rules
never do. If a category has no rules, the run names the categories that are missing. Otherwise there
is a report on all ten categories, unless a line number in it cannot be written (`run_outcome`). The
checks that scores, means and the overall score are in range never fail: they are bounds that
rounding keeps.
-/

namespace Scorecard

variable {ρ : Rounding} {m : FactModel} {r : Registry} {c : Config} {scores : List CategoryScore}
  {s : CategoryScore}

/-! ## Reports on all categories -/

theorem repeated?_eq_none (hnodup : (scores.map (·.category)).Nodup) (seen : List Category)
    (happart : ∀ c ∈ scores.map (·.category), c ∉ seen) : repeated? seen scores = none := by
  induction scores generalizing seen with
  | nil => rfl
  | cons s rest ih =>
      rw [List.map_cons, List.nodup_cons] at hnodup
      have hs : s.category ∉ seen := happart s.category List.mem_cons_self
      rw [repeated?, if_neg (by simpa using hs)]
      refine ih hnodup.2 (s.category :: seen) ?_
      intro c hc hseen
      rcases List.mem_cons.mp hseen with rfl | hseen
      · exact hnodup.1 hc
      · exact happart c (List.mem_cons_of_mem _ hc) hseen

theorem scoreOf?_isNone_iff (scores : List CategoryScore) (c : Category) :
    (scoreOf? scores c).isNone = true ↔ c ∉ scores.map (·.category) := by
  rw [scoreOf?, Option.isNone_iff_eq_none, List.find?_eq_none]
  simp only [decide_eq_true_eq, List.mem_map, not_exists, not_and]

/-- The categories without a score. -/
theorem missing_eq (scores : List CategoryScore) :
    (Category.all.filter fun c => (scoreOf? scores c).isNone) =
      Category.all.filter fun c => decide (c ∉ scores.map (·.category)) := by
  refine List.filter_congr fun c _ => ?_
  rw [Bool.eq_iff_iff, scoreOf?_isNone_iff, decide_eq_true_eq]

theorem scoreOf?_of_mem (hnodup : (scores.map (·.category)).Nodup) (hs : s ∈ scores) :
    scoreOf? scores s.category = some s := by
  induction scores with
  | nil => cases hs
  | cons t rest ih =>
      rw [List.map_cons, List.nodup_cons] at hnodup
      rcases List.mem_cons.mp hs with rfl | hs
      · simp [scoreOf?]
      · have hne : ¬t.category = s.category := fun e => hnodup.1 (List.mem_map.mpr ⟨s, hs, e.symm⟩)
        have hrest := ih hnodup.2 hs
        rw [scoreOf?] at hrest ⊢
        simp only [List.find?_cons, hne, decide_false]
        exact hrest

/-- Scores in the order of the categories are found again in this order. -/
theorem filterMap_scoreOf? (h : scores.map (·.category) = Category.all) :
    Category.all.filterMap (scoreOf? scores) = scores := by
  have hnodup : (scores.map (·.category)).Nodup := h ▸ Category.all_nodup
  rw [← h, List.filterMap_map]
  calc scores.filterMap (scoreOf? scores ∘ (·.category)) = scores.filterMap some :=
        List.filterMap_congr fun s hs => scoreOf?_of_mem hnodup hs
    _ = scores := List.filterMap_some

/-- The mean of scores in range is finite, and the overall score is in range. -/
theorem reportedMean_sound (hρ : ρ.IsMonotone) {weights : Weights} (hweights : weights.Resolved ρ)
    (hlength : scores.length = 10) (hscores : ∀ s ∈ scores, s.rawScore.Within 0 10) :
    (reportedMean ρ weights scores).isFinite = true ∧
      (((reportedMean ρ weights scores).clamp (.finite 0) (.finite 10)).roundTenth ρ).Within 0
        10 := by
  -- ten products of at most 20, divided by a sum of at least one half
  have hproducts :
      ∀ x ∈ scores.map (fun s => Number.mul ρ (weights.weightOf s.category) (s.score ρ)),
      x.Within 0 (2 * 10 : ℕ) := by
    intro x hx
    obtain ⟨s, hs, rfl⟩ := List.mem_map.mp hx
    have hweight : (weights.weightOf s.category).Within 0 (2 : ℕ) := by
      simpa using hweights.weightOf_within s.category
    have hscore : (s.score ρ).Within 0 (10 : ℕ) :=
      Number.roundTenth_within hρ (by norm_num) (by simpa using hscores s hs)
    exact Number.mul_within hρ (by norm_num) hweight hscore
  have hsum := Number.sum_within hρ (by rw [List.length_map, hlength]; norm_num) hproducts
  have hmean : (reportedMean ρ weights scores).Within 0 _ :=
    Number.div_within hρ (by rw [List.length_map, hlength]; norm_num) hsum hweights.total_within
  have hclamped :
      ((reportedMean ρ weights scores).clamp (.finite 0) (.finite 10)).Within 0 (10 : ℕ) := by
    simpa using Number.clamp_within (by norm_num) (reportedMean ρ weights scores)
  exact ⟨hmean.1, by simpa using Number.roundTenth_within hρ (by norm_num) hclamped⟩

section

variable (hρ : ρ.IsMonotone) {weights : Weights} (hweights : weights.Resolved ρ)
  (bounds : ReportBounds) (hlength : scores.length = 10)
  (hscores : ∀ s ∈ scores, s.rawScore.Within 0 10)

include hρ hweights hlength hscores

/-- The overall score is in range, so there is a report if its recommendations can be written. -/
theorem reportOf_eq_ok (hwritable : AreWritable bounds.most scores) :
    ∃ report, reportOf ρ weights bounds scores = .ok report ∧ report.scores = scores := by
  obtain ⟨hfinite, hoverall⟩ := reportedMean_sound hρ hweights hlength hscores
  obtain ⟨rs, hrs⟩ := exists_recommendations_iff.mpr hwritable
  dsimp only [reportOf]
  rw [if_neg (by simp [hfinite]), hrs]
  exact ⟨_, if_pos hoverall.le_and_le, rfl⟩

/-- There is no report if they cannot be written. -/
theorem reportOf_eq_unwritable (hwritable : ¬AreWritable bounds.most scores) :
    reportOf ρ weights bounds scores = .error (.unwritable .tooManyDigits) := by
  obtain ⟨hfinite, -⟩ := reportedMean_sound hρ hweights hlength hscores
  dsimp only [reportOf]
  rw [if_neg (by simp [hfinite])]
  cases hrs : recommendations bounds.most scores with
  | ok rs => exact absurd (exists_recommendations_iff.mp ⟨rs, hrs⟩) hwritable
  | error e =>
      cases e
      rfl

end

/-- Scores of some categories only are refused. -/
theorem aggregate_incomplete (hnodup : (scores.map (·.category)).Nodup) (weights : Weights)
    (bounds : ReportBounds) {missing : List Category}
    (hmissing : (Category.all.filter fun c => decide (c ∉ scores.map (·.category))) = missing)
    (hne : missing ≠ []) :
    aggregate .nearest scores weights bounds = .error (.incomplete missing) := by
  unfold aggregate
  rw [repeated?_eq_none hnodup [] (by simp), missing_eq, hmissing]
  simp [hne]

/-- There is one score for each category, in any order. -/
def CompleteScores (scores : List CategoryScore) : Prop :=
  (scores.map (·.category)).Perm Category.all

theorem CompleteScores.nodup (h : CompleteScores scores) : (scores.map (·.category)).Nodup :=
  h.nodup_iff.mpr Category.all_nodup

theorem map_category_map {scoreOf : Category → CategoryScore} (h : ∀ c, (scoreOf c).category = c)
    (cs : List Category) : (cs.map scoreOf).map (·.category) = cs := by
  rw [List.map_map]
  exact List.map_id'' h cs

/-- A complete set of scores is a function of the category, and it is put in the order of the
categories. -/
theorem CompleteScores.exists_scoreOf (h : CompleteScores scores) :
    ∃ scoreOf : Category → CategoryScore, (∀ c, (scoreOf c).category = c) ∧
      (Category.all.map scoreOf).Perm scores ∧
      Category.all.filterMap (scoreOf? scores) = Category.all.map scoreOf := by
  have hexists : ∀ c, ∃ s ∈ scores, s.category = c := by
    intro c
    have hmem : c ∈ scores.map (·.category) := h.mem_iff.mpr (Category.mem_all c)
    exact List.mem_map.mp hmem
  choose scoreOf hmem hcategory using hexists
  have hfound : ∀ c, scoreOf? scores c = some (scoreOf c) := by
    intro c
    have hof := scoreOf?_of_mem h.nodup (hmem c)
    rwa [hcategory c] at hof
  refine ⟨scoreOf, hcategory, ?_, ?_⟩
  · have hnodup : (Category.all.map scoreOf).Nodup := by
      have hall := map_category_map hcategory Category.all
      exact List.Nodup.of_map _ (hall ▸ Category.all_nodup)
    -- neither list has a category twice, so it is enough that they have the same members
    rw [List.perm_ext_iff_of_nodup hnodup (List.Nodup.of_map _ h.nodup)]
    intro s
    constructor
    · intro hs
      obtain ⟨c, -, rfl⟩ := List.mem_map.mp hs
      exact hmem c
    · intro hs
      have hsame : s = scoreOf s.category :=
        Option.some.inj ((scoreOf?_of_mem h.nodup hs).symm.trans (hfound s.category))
      exact List.mem_map.mpr ⟨s.category, Category.mem_all _, hsame.symm⟩
  · calc Category.all.filterMap (scoreOf? scores) = Category.all.filterMap (some ∘ scoreOf) :=
          List.filterMap_congr fun c _ => hfound c
      _ = Category.all.map scoreOf := by rw [List.filterMap_eq_map]

/-- Complete scores are combined in the order of the categories. -/
theorem aggregate_eq_reportOf (h : CompleteScores scores) {overrides weights : Weights}
    (hweights : Weights.resolve ρ overrides = .ok weights) (bounds : ReportBounds) :
    aggregate ρ scores overrides bounds = reportOf ρ weights bounds
      (Category.all.filterMap (scoreOf? scores)) := by
  have hnone : (Category.all.filter fun c => decide (c ∉ scores.map (·.category))) = [] := by
    rw [List.filter_eq_nil_iff]
    intro c hc
    have hmem : c ∈ scores.map (·.category) := h.mem_iff.mpr hc
    simpa using List.mem_map.mp hmem
  unfold aggregate
  rw [repeated?_eq_none h.nodup [] (by simp), missing_eq, hnone, hweights]
  rfl

/-- Scores of all categories in their order are combined. -/
theorem aggregate_of_all (hall : scores.map (·.category) = Category.all)
    {overrides weights : Weights} (hweights : Weights.resolve ρ overrides = .ok weights)
    (bounds : ReportBounds) :
    aggregate ρ scores overrides bounds = reportOf ρ weights bounds scores := by
  rw [aggregate_eq_reportOf (List.Perm.of_eq hall) hweights, filterMap_scoreOf? hall]

/-! ## Scores of all categories -/

/-- If no task stalls, none is left unfinished. -/
theorem unfinished_eq_nil {stalled : Category → Bool} (hquick : ∀ c, stalled c = false)
    {workers : Option Int} (hworkers : ∀ n, workers = some n → 0 < n) (tasks : List Category) :
    unfinished stalled (workers.map Int.toNat) tasks = [] := by
  have hfilter : ∀ cs : List Category, cs.filter stalled = [] := by
    intro cs
    rw [List.filter_eq_nil_iff]
    intro c _
    simp [hquick c]
  cases workers with
  | none => rw [Option.map_none, unfinished_none, hfilter]
  | some n =>
      have hpos := hworkers n rfl
      -- no task before another one keeps a worker
      have hfew : ∀ before c later, tasks = before ++ c :: later →
          (before.filter stalled).length < n.toNat := by
        intro before c later _
        rw [hfilter, List.length_nil]
        omega
      have happend := unfinished_append stalled tasks [] n.toNat hfew (Or.inl rfl)
      rw [List.append_nil, hfilter] at happend
      exact happend

/-- If no task stalls, the categories with rules are scored in their order. -/
theorem evaluateAll_eq_mapM {active : Option (List String)} (hne : r.categories ≠ [])
    (hquick : ∀ c, stalls r active c = false) {workers : Option Int}
    (hworkers : ∀ n, workers = some n → 0 < n) :
    evaluateAll ρ m r active workers =
      (r.categories.mapM (evaluate ρ m r active)).mapError .score := by
  have hany : workers.any (· ≤ 0) = false := by
    cases workers with
    | none => rfl
    | some n =>
        have hpos := hworkers n rfl
        simp only [Option.any_some, decide_eq_false_iff_not]
        omega
  have hnotEmpty : r.categories.isEmpty = false := by simpa using hne
  unfold evaluateAll
  simp only [hnotEmpty, hany, unfinished_eq_nil hquick hworkers]
  rfl

theorem mapM_evaluate_eq {active : Option (List String)} {scoreOf : Category → CategoryScore}
    (hscore : ∀ c, evaluate ρ m r active c = .ok (scoreOf c)) {cs : List Category} :
    cs.mapM (evaluate ρ m r active) = .ok (cs.map scoreOf) := by
  rw [funext hscore]
  exact List.mapM_pure

/-- If each category has a score and no task stalls, the categories with rules have their scores. -/
theorem evaluateAll_eq_ok {active : Option (List String)} {scoreOf : Category → CategoryScore}
    (hscore : ∀ c, evaluate ρ m r active c = .ok (scoreOf c))
    (hquick : ∀ c, stalls r active c = false) {workers : Option Int}
    (hworkers : ∀ n, workers = some n → 0 < n) :
    evaluateAll ρ m r active workers = .ok (r.categories.map scoreOf) := by
  by_cases hempty : r.categories = []
  · unfold evaluateAll
    simp [hempty]
  · rw [evaluateAll_eq_mapM hempty hquick hworkers, mapM_evaluate_eq hscore]
    rfl

namespace Registry

/-! ## Known and unknown ids -/

theorem mem_unknownIds {ids : List String} {id : String} :
    id ∈ r.unknownIds ids ↔ id ∈ ids ∧ r.get? id = none := by
  rw [unknownIds, Text.sortedSet, List.mem_eraseDups, List.mem_mergeSort, List.mem_filter, contains]
  simp

/-- A selection with unknown ids is refused and names them. -/
theorem select_eq_error {enabled : Option (List String)} {disabled unknown : List String}
    (h : r.unknownIds (enabled.getD [] ++ disabled) = unknown) (hne : unknown ≠ []) :
    r.select enabled disabled = .error unknown := by
  unfold select
  simp [h, hne]

/-- A selection of known ids is made. -/
theorem select_eq_ok {enabled : Option (List String)} {disabled : List String}
    (h : ∀ id ∈ enabled.getD [] ++ disabled, r.get? id ≠ none) :
    ∃ active, r.select enabled disabled = .ok active := by
  have hnil : r.unknownIds (enabled.getD [] ++ disabled) = [] := by
    rw [List.eq_nil_iff_forall_not_mem]
    intro id hid
    obtain ⟨hmem, hnone⟩ := mem_unknownIds.mp hid
    exact h id hmem hnone
  unfold select
  rw [hnil]
  exact ⟨_, rfl⟩

/-- Which ids are unknown does not depend on what the rules do. -/
theorem unknownIds_mapRules (f : Rule → Rule) (r : Registry) (ids : List String) :
    (r.mapRules f).unknownIds ids = r.unknownIds ids := by
  unfold unknownIds
  simp only [contains_mapRules]

/-- A category is scored if a rule is registered for it. -/
theorem Consistent.mem_categories_iff_exists (h : Consistent ρ r) {c : Category} :
    c ∈ r.categories ↔ ∃ rule ∈ r.rules, rule.category = c := by
  rw [h.mem_categories_iff, h.rulesFor_eq, ne_eq, List.filter_eq_nil_iff]
  simp

end Registry

/-! ## Configurations -/

/-- Something is wrong with a configuration: the weights do not resolve, or an id is not
registered. -/
def Config.Bad (c : Config) (r : Registry) : Prop :=
  (∀ ws, Weights.resolve .nearest c.weights ≠ .ok ws) ∨ ∃ id ∈ c.enabled.getD [] ++ c.disabled,
    r.get? id = none

/-- The error says what is wrong with the configuration: the error of the weights, or else the ids
that are not registered. -/
def RunError.Blames (c : Config) (r : Registry) : RunError → Prop
  | .weights e => Weights.resolve .nearest c.weights = .error e
  | .unknownRules ids =>
    ids ≠ [] ∧ ∀ id, id ∈ ids ↔ id ∈ c.enabled.getD [] ++ c.disabled ∧ r.get? id = none
  | _ => False

/-- No active rule stalls, so that no time budget expires. -/
def Config.RunsInTime (c : Config) (r : Registry) : Prop :=
  ∀ active, r.select c.enabled c.disabled = .ok active → ∀ d, stalls r (some active) d = false

theorem stalls_eq_false (h : Registry.Consistent ρ r)
    (hrules : ∀ rule ∈ r.rules, rule.stalls = false) (active : Option (List String))
    (d : Category) : stalls r active d = false := by
  rw [stalls, h.activeRules_eq, List.any_eq_false]
  intro rule hrule
  have hmem := (List.mem_filter.mp (List.mem_filter.mp hrule).1).1
  simp [hrules rule hmem]

theorem Config.runsInTime_of_rules (h : Registry.Consistent ρ r)
    (hrules : ∀ rule ∈ r.rules, rule.stalls = false) (c : Config) : c.RunsInTime r :=
  fun active _ d => stalls_eq_false h hrules (some active) d

@[simp] theorem Wait.error?_complete (budget : Option Number) :
    Wait.complete.error? budget = none := rfl

theorem Wait.error?_eq_some {wait : Wait} {budget : Option Number} {e : RunError}
    (h : wait.error? budget = some e) : (∃ b left, e = .timeout (some b) left) ∨
      wait = .refused ∧ (∃ b, budget = some b ∧ longestWait.le b = true) ∧ e = .unwaitable := by
  unfold Wait.error? at h
  split at h
  · cases h
    exact Or.inl ⟨_, _, rfl⟩
  · rename_i b
    split at h
    · rename_i hlong
      cases h
      exact Or.inr ⟨rfl, ⟨b, rfl, hlong⟩, rfl⟩
    · cases h
  · cases h

/-- **What is wrong with a configuration is found before any rule runs**: the error is the same on
any fact model, with any rules in the places of the rules, and however the waiting would go. -/
theorem runWith_of_bad (h : c.Bad r) :
    ∃ e : RunError, e.Blames c r ∧ (∀ m wait, runWith .nearest m c r wait = .error e) ∧
      ∀ m f wait, runWith .nearest m c (r.mapRules f) wait = .error e := by
  unfold runWith
  cases hresolve : Weights.resolve .nearest c.weights with
  | error e => exact ⟨.weights e, hresolve, fun _ _ => rfl, fun _ _ _ => rfl⟩
  | ok ws =>
      -- the weights resolve, so it is an id that is unknown
      obtain ⟨id, hid, hnone⟩ : ∃ id ∈ c.enabled.getD [] ++ c.disabled, r.get? id = none := by
        rcases h with hunresolved | hunknown
        · exact absurd hresolve (hunresolved ws)
        · exact hunknown
      have hne : r.unknownIds (c.enabled.getD [] ++ c.disabled) ≠ [] :=
        List.ne_nil_of_mem (Registry.mem_unknownIds.mpr ⟨hid, hnone⟩)
      refine ⟨.unknownRules (r.unknownIds (c.enabled.getD [] ++ c.disabled)),
        ⟨hne, fun id => Registry.mem_unknownIds⟩, ?_, ?_⟩
      · intro m wait
        simp only [Registry.select_eq_error rfl hne]
      · intro m f wait
        simp only [Registry.select_eq_error (r.unknownIds_mapRules f _) hne]

/-- Nothing that an active rule does leaves the evaluation. -/
def Config.IsContained (c : Config) (r : Registry) (m : FactModel) : Prop :=
  ∀ active, r.select c.enabled c.disabled = .ok active →
    ∀ d, ∀ rule ∈ r.activeRules (some active) d, rule.IsContained m

theorem Config.parts_of_not_bad (h : ¬c.Bad r) :
    ∃ weights active, Weights.resolve .nearest c.weights = .ok weights ∧
      r.select c.enabled c.disabled = .ok active := by
  obtain ⟨weights, hweights⟩ : ∃ ws, Weights.resolve .nearest c.weights = .ok ws := by
    by_contra hnone
    exact h (Or.inl fun ws hws => hnone ⟨ws, hws⟩)
  obtain ⟨active, hselect⟩ : ∃ active, r.select c.enabled c.disabled = .ok active :=
    Registry.select_eq_ok fun id hid hnone => h (Or.inr ⟨id, hid, hnone⟩)
  exact ⟨weights, active, hweights, hselect⟩

/-- A failure of the waiting comes before any result. -/
theorem runWith_of_wait (hgood : ¬c.Bad r) {wait : Wait} {e : RunError}
    (hwait : wait.error? c.budget = some e) (m : FactModel) :
    runWith .nearest m c r wait = .error e := by
  obtain ⟨weights, active, hweights, hselect⟩ := Config.parts_of_not_bad hgood
  simp only [runWith, hweights, hselect, hwait]

section

variable (h : Registry.Consistent .nearest r) (hdouble : ∀ rule ∈ r.rules, rule.weight.IsDouble)
  (m : FactModel) (hworkers : ∀ n, c.workers = some n → 0 < n) (hquick : c.RunsInTime r)
  (hgood : ¬c.Bad r) {wait : Wait} (hwait : wait.error? c.budget = none)

include h hdouble hworkers hquick hgood hwait

/-- A fault that is not contained ends the run. -/
theorem runWith_of_not_isContained (hloose : ¬c.IsContained r m) :
    ∃ f, runWith .nearest m c r wait = .error (.score (.raised f)) := by
  obtain ⟨weights, active, hweights, hselect⟩ := Config.parts_of_not_bad hgood
  obtain ⟨d, hd⟩ : ∃ d, ¬∀ rule ∈ r.activeRules (some active) d, rule.IsContained m := by
    by_contra hnone
    refine hloose fun active' hselect' d => ?_
    cases hselect.symm.trans hselect'
    exact not_not.mp fun hd => hnone ⟨d, hd⟩
  -- a category with such a rule has rules, so that it is one of the tasks
  have htask : d ∈ r.categories := by
    obtain ⟨rule, hrule, -⟩ := not_forall₂.mp hd
    rw [h.activeRules_eq] at hrule
    obtain ⟨hin, hcategory⟩ := List.mem_filter.mp (List.mem_filter.mp hrule).1
    exact h.mem_categories_iff_exists.mpr ⟨rule, hin, of_decide_eq_true hcategory⟩
  obtain ⟨e, he⟩ : ∃ e, r.categories.mapM (evaluate .nearest m r (some active)) = .error e := by
    obtain ⟨f, hf⟩ := Registry.evaluate_of_not_isContained (ρ := .nearest) hd
    exact exists_mapM_eq_error_iff.mpr ⟨d, htask, _, hf⟩
  -- no category fails in another way
  obtain ⟨f, rfl⟩ : ∃ f, e = .raised f := by
    obtain ⟨d', -, hd'⟩ := mapM_eq_error he
    by_cases hcontained : ∀ rule ∈ r.activeRules (some active) d', rule.IsContained m
    · obtain ⟨s, hs, -⟩ := Registry.exists_score h hdouble hcontained
      cases hs.symm.trans hd'
    · obtain ⟨f, hf⟩ := Registry.evaluate_of_not_isContained (ρ := .nearest) hcontained
      cases hf.symm.trans hd'
      exact ⟨f, rfl⟩
  refine ⟨f, ?_⟩
  have hall : evaluateAll .nearest m r (some active) c.workers = .error (.score (.raised f)) := by
    rw [evaluateAll_eq_mapM (List.ne_nil_of_mem htask) (hquick active hselect) hworkers, he]
    rfl
  simp only [runWith, hweights, hselect, hwait, runRules, hall]

variable (hcontained : c.IsContained r m)

include hcontained

/-- With a configuration that has nothing wrong, the categories are scored and the scores are
combined. -/
theorem runWith_of_not_bad :
    ∃ active weights scoreOf, r.select c.enabled c.disabled = .ok active ∧
      (∀ d, evaluate .nearest m r (some active) d = .ok (scoreOf d)) ∧
      (∀ d, (scoreOf d).category = d ∧ (scoreOf d).rawScore.Within 0 10) ∧
      weights.Resolved .nearest ∧ Weights.resolve .nearest weights = .ok weights ∧
      runWith .nearest m c r wait =
        (aggregate .nearest (r.categories.map scoreOf) weights c.bounds).mapError .report := by
  obtain ⟨weights, active, hweights, hselect⟩ := Config.parts_of_not_bad hgood
  -- every category has a score, also one without rules, so the scores are a function of the
  -- category
  choose scoreOf hscore hreports using fun d => Registry.exists_score h hdouble
    (hcontained active hselect d)
  refine ⟨active, weights, scoreOf, hselect, hscore, fun d =>
    ⟨(hreports d).category_eq, (hreports d).within⟩,
    (Weights.resolve_eq_ok hweights).1, (Weights.resolve_eq_ok hweights).2, ?_⟩
  simp only [runWith, hweights, hselect, hwait, runRules,
    evaluateAll_eq_ok hscore (hquick active hselect) hworkers]

end

/-- The categories without registered rules. -/
def missingCategories (registered : List Rule) : List Category :=
  Category.all.filter fun d => registered.all fun rule => rule.category ≠ d

theorem missingCategories_eq (h : Registry.Consistent .nearest r) :
    missingCategories r.rules = Category.all.filter fun d => decide (d ∉ r.categories) := by
  refine List.filter_congr fun d _ => ?_
  rw [Bool.eq_iff_iff, decide_eq_true_eq, h.mem_categories_iff_exists]
  simp

theorem categories_eq_all (h : Registry.Consistent .nearest r)
    (hmissing : missingCategories r.rules = []) : r.categories = Category.all := by
  rw [missingCategories_eq h, List.filter_eq_nil_iff] at hmissing
  have hmem : ∀ d ∈ Category.all, d ∈ r.categories := fun d hd => by simpa using hmissing d hd
  exact List.filter_eq_self.mpr fun d hd => (List.mem_filter.mp (hmem d hd)).2

/-- The scores of all categories in their order, with the rules that a configuration selects. -/
def Config.HasScores (c : Config) (r : Registry) (m : FactModel) (scores : List CategoryScore) :
    Prop :=
  ∃ active, r.select c.enabled c.disabled = .ok active ∧
    Category.all.mapM (evaluate .nearest m r (some active)) = .ok scores ∧
      scores.map (·.category) = Category.all

theorem Config.HasScores.unique {scores scores' : List CategoryScore} (h : c.HasScores r m scores)
    (h' : c.HasScores r m scores') : scores = scores' := by
  obtain ⟨active, hselect, hscores, -⟩ := h
  obtain ⟨active', hselect', hscores', -⟩ := h'
  obtain rfl : active = active' := Except.ok.inj (hselect.symm.trans hselect')
  exact Except.ok.inj (hscores.symm.trans hscores')

/-- A run ends with a report on some scores, unless a place in it cannot be written. -/
structure ReportsOn (result : Except RunError Report) (most : Int) (scores : List CategoryScore) :
    Prop where
  report : AreWritable most scores → ∃ report, result = .ok report ∧ report.scores = scores
  refusal : ¬AreWritable most scores → result = .error (.report (.unwritable .tooManyDigits))

theorem ReportsOn.scores_eq {result : Except RunError Report} {most : Int} {report : Report}
    (h : ReportsOn result most scores) (hreport : result = .ok report) :
    report.scores = scores := by
  by_cases hwritable : AreWritable most scores
  · obtain ⟨report', hreport', hscores⟩ := h.report hwritable
    rw [Except.ok.inj (hreport.symm.trans hreport'), hscores]
  · cases hreport.symm.trans (h.refusal hwritable)

section

variable (h : Registry.Consistent .nearest r) (hdouble : ∀ rule ∈ r.rules, rule.weight.IsDouble)
  (hworkers : ∀ n, c.workers = some n → 0 < n) (hquick : c.RunsInTime r) (hgood : ¬c.Bad r)
  {wait : Wait} (hwait : wait.error? c.budget = none) (hcontained : c.IsContained r m)

include h hdouble hworkers hquick hgood hwait hcontained

/-- If a category has no rule, the categories without one are named. -/
theorem runWith_incomplete (hmissing : missingCategories r.rules ≠ []) :
    runWith .nearest m c r wait = .error (.report (.incomplete (missingCategories r.rules))) := by
  obtain ⟨active, weights, scoreOf, -, -, hscoreOf, -, -, hrun⟩ :=
    runWith_of_not_bad h hdouble m hworkers hquick hgood hwait hcontained
  have hcategories := map_category_map (fun d => (hscoreOf d).1) r.categories
  have hnodup : ((r.categories.map scoreOf).map (·.category)).Nodup := by
    rw [hcategories]
    exact r.categories_nodup
  rw [hrun, aggregate_incomplete hnodup weights c.bounds
    (by rw [hcategories, missingCategories_eq h]) hmissing]
  rfl

/-- If every category has a rule, there is a report on all categories, with the scores they have. -/
theorem runWith_complete (hmissing : missingCategories r.rules = []) :
    ∃ scores, c.HasScores r m scores ∧
      ReportsOn (runWith .nearest m c r wait) c.bounds.most scores := by
  obtain ⟨active, weights, scoreOf, hselect, hscore, hscoreOf, hresolved, hagain, hrun⟩ :=
    runWith_of_not_bad h hdouble m hworkers hquick hgood hwait hcontained
  have hcategories := map_category_map (fun d => (hscoreOf d).1) Category.all
  have hwithin : ∀ s ∈ Category.all.map scoreOf, s.rawScore.Within 0 10 :=
    List.forall_mem_map.mpr fun d _ => (hscoreOf d).2
  rw [categories_eq_all h hmissing, aggregate_of_all hcategories hagain] at hrun
  refine ⟨Category.all.map scoreOf, ⟨active, hselect, mapM_evaluate_eq hscore, hcategories⟩,
    fun hwritable => ?_, fun hwritable => ?_⟩
  · obtain ⟨report, hreport, hscores⟩ :=
      reportOf_eq_ok Rounding.isMonotone_nearest hresolved c.bounds rfl hwithin hwritable
    refine ⟨report, ?_, hscores⟩
    rw [hrun, hreport]
    rfl
  · rw [hrun, reportOf_eq_unwritable Rounding.isMonotone_nearest hresolved c.bounds rfl hwithin
      hwritable]
    rfl

end

/-! ## Configurations that are read -/

theorem readWorkers_pos {v : Option Value} {workers : Option Int}
    (h : readWorkers v = .ok workers) : ∀ n, workers = some n → 0 < n := by
  rintro n rfl
  unfold readWorkers at h
  split at h
  · cases h
  · cases h
  · obtain ⟨k, -, hk⟩ := bind_eq_ok_iff.mp h
    by_cases hpos : k ≤ 0
    · rw [if_pos hpos] at hk
      cases hk
    · rw [if_neg hpos] at hk
      cases hk
      omega

/-- The weights of a configuration resolve, and if it says how many workers there are, there are
some. -/
def Config.Sound (c : Config) : Prop :=
  (∃ ws, Weights.resolve .nearest c.weights = .ok ws) ∧ ∀ n, c.workers = some n → 0 < n

theorem Config.sound_default : ({} : Config).Sound := by
  have hresolve : Weights.resolve .nearest [] = .ok (Weights.withDefaults []) := by decide +kernel
  exact ⟨⟨_, hresolve⟩, fun n hn => by cases hn⟩

/-- Thresholds that are read are in order. -/
theorem thresholds_of_readBounds {fields : Fields} {b : ReportBounds}
    (h : readBounds ρ fields = .ok b) :
    b.weakness.lt b.strength = true ∧ b.strength.le (.finite 10) = true := by
  obtain ⟨most, -, h⟩ := bind_eq_ok_iff.mp h
  split at h
  · cases h
  · obtain ⟨strength, -, h⟩ := bind_eq_ok_iff.mp h
    obtain ⟨weakness, -, h⟩ := bind_eq_ok_iff.mp h
    split at h
    · rename_i hin
      cases h
      rw [Bool.and_eq_true, Bool.and_eq_true] at hin
      exact ⟨hin.1.2, hin.2⟩
    · cases h

/-- In a configuration that is read the weights resolve, there are workers, and the bounds are those
of some fields. -/
theorem Config.parts_of_ofFields {source : String} {fields : Fields}
    (h : Config.ofFields ρ source fields = .ok c) :
    (∃ ws, Weights.resolve ρ c.weights = .ok ws) ∧ (∀ n, c.workers = some n → 0 < n) ∧
      ∃ report, readBounds ρ report = .ok c.bounds := by
  simp only [Config.ofFields, bind_eq_ok_iff] at h
  obtain ⟨rules, -, weightFields, -, report, -, evaluation, -, limitFields, -, format, -, failUnder,
    -, weights, -, u, hresolve,
    included, -, excluded, -, enabled, -, disabled, -, bounds, hbounds, workers, hworkers, budget,
      -, limits, -, hc⟩ := h
  cases hc
  refine ⟨?_, readWorkers_pos hworkers, report, hbounds⟩
  cases hws : Weights.resolve ρ weights with
  | ok ws => exact ⟨ws, rfl⟩
  | error e =>
      rw [hws] at hresolve
      cases hresolve

/-- A configuration that is read is sound. -/
theorem Config.ofFields_sound {source : String} {fields : Fields}
    (h : Config.ofFields .nearest source fields = .ok c) : c.Sound :=
  ⟨(parts_of_ofFields h).1, (parts_of_ofFields h).2.1⟩

/-! ## The built-in rules -/

theorem Registry.builtIn_rules (limits : Limits) :
    (builtIn .nearest limits).rules = Catalog.rules .nearest limits := by
  obtain ⟨-, hbuilt, haccepted⟩ := build_eq_ok limits
  rw [hbuilt, rules_afterAll, haccepted]
  rfl

theorem Registry.builtIn_consistent (limits : Limits) :
    Consistent .nearest (builtIn .nearest limits) := by
  rw [(build_eq_ok limits).2.1]
  exact consistent_afterAll _

theorem Registry.builtIn_isDouble (limits : Limits) :
    ∀ rule ∈ (builtIn .nearest limits).rules, rule.weight.IsDouble := by
  rw [builtIn_rules]
  exact fun rule h => (catalog_sound limits rule h).isDouble

/-- The built-in rules that are active for a category are rules of the catalog for this category. -/
theorem Registry.mem_of_mem_activeRules {limits : Limits} {active : Option (List String)}
    {c : Category} {rule : Rule} (h : rule ∈ (builtIn .nearest limits).activeRules active c) :
    rule ∈ Catalog.rules .nearest limits ∧ rule.category = c := by
  rw [(builtIn_consistent limits).activeRules_eq, builtIn_rules] at h
  obtain ⟨hrule, hcategory⟩ := List.mem_filter.mp (List.mem_filter.mp h).1
  exact ⟨hrule, of_decide_eq_true hcategory⟩

theorem Registry.builtIn_isContained (limits : Limits) (m : FactModel)
    (active : Option (List String)) (c : Category) :
    ∀ rule ∈ (builtIn .nearest limits).activeRules active c, rule.IsContained m :=
  fun _ hrule => catalog_isContained (mem_of_mem_activeRules hrule).1 m

theorem Registry.evaluate_builtIn (limits : Limits) (m : FactModel) (active : Option (List String))
    (c : Category) : evaluate .nearest m (builtIn .nearest limits) active c =
      scoreOfRuns .nearest c (((builtIn .nearest limits).activeRules active c).map (·.run m)) :=
  evaluate_of_isContained (builtIn_isContained limits m active c)

/-- Every category has a score by the built-in rules. -/
theorem Registry.exists_builtIn_score (limits : Limits) (m : FactModel)
    (active : Option (List String)) (c : Category) :
    ∃ s, evaluate .nearest m (builtIn .nearest limits) active c = .ok s ∧
      s.Reports c (((builtIn .nearest limits).activeRules active c).map (·.run m)) :=
  exists_score (builtIn_consistent limits) (builtIn_isDouble limits)
    (builtIn_isContained limits m active c)

theorem missingCategories_builtIn (limits : Limits) :
    missingCategories (Registry.builtIn .nearest limits).rules = [] := by
  rw [Registry.builtIn_rules, missingCategories, List.filter_eq_nil_iff]
  intro d _ hall
  obtain ⟨rule, hrule, hcategory⟩ := Registry.exists_catalog .nearest limits d
  exact of_decide_eq_true (List.all_eq_true.mp hall rule hrule) hcategory

theorem Registry.builtIn_stalls (limits : Limits) :
    ∀ rule ∈ (builtIn .nearest limits).rules, rule.stalls = false := by
  rw [builtIn_rules]
  exact fun rule h => (catalog_sound limits rule h).quick

theorem run_of_printable (h : c.limits.arePrintable = true) (m : FactModel) (wait : Wait) :
    run ρ m c wait = runWith ρ m c (.builtIn ρ c.limits) wait := by
  rw [run, Registry.ofLimits, if_pos h]

theorem run_of_not_printable (h : c.limits.arePrintable = false) (m : FactModel) (wait : Wait) :
    run ρ m c wait = .error .unprintable := by
  rw [run, Registry.ofLimits, if_neg (by simp [h])]

theorem Config.not_bad_of_sound (hsound : c.Sound)
    (hknown : ∀ id ∈ c.enabled.getD [] ++ c.disabled, r.get? id ≠ none) : ¬c.Bad r := by
  obtain ⟨⟨ws, hws⟩, -⟩ := hsound
  rintro (hnone | ⟨id, hid, hnone⟩)
  · exact hnone ws hws
  · exact hknown id hid hnone

/-- With the built-in rules and a sound configuration that names known rules only, there is a
report, with the scores that the categories have. -/
theorem runWith_builtIn_of_sound (m : FactModel) (limits : Limits) (hsound : c.Sound)
    (hknown : ∀ id ∈ c.enabled.getD [] ++ c.disabled,
      (Registry.builtIn .nearest limits).get? id ≠ none) :
    ∃ scores, c.HasScores (.builtIn .nearest limits) m scores ∧ ∀ wait : Wait,
      (wait.error? c.budget = none →
        ReportsOn (runWith .nearest m c (.builtIn .nearest limits) wait) c.bounds.most scores) ∧
      ∀ report, runWith .nearest m c (.builtIn .nearest limits) wait = .ok report →
        report.scores = scores := by
  have hends := fun (wait : Wait) (hwait : wait.error? c.budget = none) =>
    runWith_complete (Registry.builtIn_consistent limits)
      (Registry.builtIn_isDouble limits) hsound.2
      (Config.runsInTime_of_rules (Registry.builtIn_consistent limits)
        (Registry.builtIn_stalls limits) c)
      (Config.not_bad_of_sound hsound hknown) hwait
      (fun active _ d => Registry.builtIn_isContained limits m (some active) d)
        (missingCategories_builtIn limits)
  obtain ⟨scores, hscores, -⟩ := hends .complete rfl
  refine ⟨scores, hscores, fun wait => ?_⟩
  cases hwait : wait.error? c.budget with
  | some e =>
      rw [runWith_of_wait (Config.not_bad_of_sound hsound hknown) hwait m]
      exact ⟨nofun, nofun⟩
  | none =>
      -- how long is waited has no influence on the scores
      obtain ⟨scores', hscores', hreports⟩ := hends wait hwait
      rw [hscores.unique hscores']
      exact ⟨fun _ => hreports, fun report hreport => hreports.scores_eq hreport⟩

/-- The same for the registry of the limits of the configuration, if these can be written. -/
theorem run_of_sound (m : FactModel) (hsound : c.Sound)
    (hknown : ∀ id ∈ c.enabled.getD [] ++ c.disabled,
      (Registry.builtIn .nearest c.limits).get? id ≠ none) :
    ∃ scores, c.HasScores (.builtIn .nearest c.limits) m scores ∧ ∀ wait : Wait,
      (c.limits.arePrintable = true → ∀ e, wait.error? c.budget = some e →
        run .nearest m c wait = .error e) ∧
      (c.limits.arePrintable = true → wait.error? c.budget = none →
        ReportsOn (run .nearest m c wait) c.bounds.most scores) ∧
      ∀ report, run .nearest m c wait = .ok report → report.scores = scores := by
  obtain ⟨scores, hscores, hreports⟩ := runWith_builtIn_of_sound m c.limits hsound hknown
  refine ⟨scores, hscores, fun wait => ?_⟩
  cases hdigits : c.limits.arePrintable with
  | false =>
      rw [run_of_not_printable hdigits]
      exact ⟨nofun, nofun, nofun⟩
  | true =>
      rw [run_of_printable hdigits]
      exact ⟨fun _ e hwait => runWith_of_wait (Config.not_bad_of_sound hsound hknown) hwait m,
        fun _ => (hreports wait).1, (hreports wait).2⟩

/-- A fact model of which every location can be written. -/
def FactModel.HasWritableLines (m : FactModel) : Prop :=
  ∃ facts files root, m = .build facts files root ∧ ∀ f ∈ facts, f.location.IsWritable

/-- The findings of built-in rules lie where the facts were made or are about the code base. -/
theorem areWritable_of_catalog (hm : m.HasWritableLines) {limits : Limits}
    {active : Option (List String)}
    (hrules : ∀ d, ∀ rule ∈ r.activeRules active d, rule ∈ Catalog.rules ρ limits)
    (hscores : Category.all.mapM (evaluate ρ m r active) = .ok scores) (most : Int) :
    AreWritable most scores := by
  obtain ⟨facts, files, root, rfl, hfacts⟩ := hm
  refine areWritable_of_findings (fun s hs f hf => ?_) most
  obtain ⟨d, -, hd⟩ := exists_of_mem_forall₂ (mapM_eq_ok_iff.mp hscores) hs
  have hfound := findings_of_scoreOfRuns (Registry.scoreOfRuns_of_evaluate hd) f hf
  rcases hfound with rfl | ⟨run, hrun, hf⟩
  · exact Or.inl rfl
  · obtain ⟨rule, hrule, rfl⟩ := List.mem_map.mp hrun
    have hplace := run_located (hrules d rule hrule) facts files root f hf
    rcases hplace with hcodebase | ⟨fact, hfact, heq⟩
    · exact Or.inl (by rw [hcodebase]; rfl)
    · exact Or.inr (heq ▸ hfacts fact hfact)

theorem areWritable_builtIn (hm : m.HasWritableLines) {limits : Limits}
    {active : Option (List String)}
    (hscores : Category.all.mapM (evaluate .nearest m (.builtIn .nearest limits) active) =
      .ok scores)
    (most : Int) : AreWritable most scores :=
  areWritable_of_catalog hm (fun _ _ hrule => (Registry.mem_of_mem_activeRules hrule).1)
    hscores most

end Scorecard
