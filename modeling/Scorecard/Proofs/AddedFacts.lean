import Scorecard.Proofs.RuleAgreement

set_option autoImplicit false

/-! # Facts that are added

A score on shares is a mean over the selected facts, so one more fact moves it towards the score of
this fact alone: one if the fact complies, zero if it does not (`RuleResult.IsShare.append`). A rule
that did not apply arrives there at once. How far the outcomes of a category are from that score can
then only shrink while the weights that count can only grow (`sums_of_nears`), and so the mean of
the category comes nearer too. In categories of such rules alone, a fact that complies never lowers
the score and a fact that does not comply never raises it (`added_fact_moves_score`).
-/

namespace Scorecard

/-! ## Outcomes that come nearer to a score -/

/-- How far an outcome is from a score, with its weight. -/
def Outcome.gap (y : ℚ) (o : Outcome) : ℚ := o.weight.value * |o.score.value - y|

/-- The second outcome of a rule is at least as near to a score as the first one was. If only the
second one applies, it has this score. -/
structure Outcome.Nears (y : ℚ) (o o' : Outcome) : Prop where
  weight_eq : o'.weight = o.weight
  applies : o.applicable = true → o'.applicable = true
  nearer : o.applicable = true → |o'.score.value - y| ≤ |o.score.value - y|
  arrives : o.applicable = false → o'.applicable = true → o'.score.value = y

/-- The weights that count grow, and the distances from the score shrink. -/
theorem sums_of_nears {y : ℚ} {os os' : List Outcome} (h : List.Forall₂ (Outcome.Nears y) os os')
    (hweight : ∀ o ∈ os, 0 ≤ o.weight.value) :
    ((os.filter (·.applicable)).map fun o => o.weight.value).sum ≤
      ((os'.filter (·.applicable)).map fun o => o.weight.value).sum ∧
      ((os'.filter (·.applicable)).map (·.gap y)).sum ≤
        ((os.filter (·.applicable)).map (·.gap y)).sum := by
  induction h with
  | nil => exact ⟨le_rfl, le_rfl⟩
  | @cons o o' os os' hnears _ ih =>
      -- a rule that applied counts in both lists, with the same weight; any other counts in the
      -- second list at most
      obtain ⟨ho, hos⟩ := List.forall_mem_cons.mp hweight
      obtain ⟨ihweight, ihgap⟩ := ih hos
      have hweights : o'.weight.value = o.weight.value := congrArg Number.value hnears.weight_eq
      by_cases happ : o.applicable = true
      · have hgap : o'.gap y ≤ o.gap y := by
          unfold Outcome.gap
          rw [hweights]
          exact mul_le_mul_of_nonneg_left (hnears.nearer happ) ho
        rw [List.filter_cons_of_pos happ, List.filter_cons_of_pos (hnears.applies happ)]
        simp only [List.map_cons, List.sum_cons]
        exact ⟨add_le_add hweights.ge ihweight, add_le_add hgap ihgap⟩
      · rw [List.filter_cons_of_neg happ]
        by_cases happ' : o'.applicable = true
        · -- the rule begins to apply: its weight counts from now on, and it adds no distance
          have hgap : o'.gap y = 0 := by
            unfold Outcome.gap
            rw [hnears.arrives (by simpa using happ) happ', sub_self, abs_zero, mul_zero]
          rw [List.filter_cons_of_pos happ']
          simp only [List.map_cons, List.sum_cons, hgap, hweights, zero_add]
          exact ⟨ihweight.trans (le_add_of_nonneg_left ho), ihgap⟩
        · rw [List.filter_cons_of_neg happ']
          exact ⟨ihweight, ihgap⟩

/-- The mean distance of some outcomes from a score. -/
def meanGap (y : ℚ) (os : List Outcome) : ℚ :=
  (os.map (·.gap y)).sum / (os.map fun o => o.weight.value).sum

section Means

variable {os : List Outcome} (hscore : ∀ o ∈ os, o.score.Within 0 1)
include hscore

theorem meanGap_zero : meanGap 0 os = meanScore os := by
  have hgap : os.map (·.gap 0) = os.map fun o => o.weight.value * o.score.value := by
    refine List.map_congr_left ?_
    intro o ho
    show o.weight.value * |o.score.value - 0| = o.weight.value * o.score.value
    rw [sub_zero, abs_of_nonneg (hscore o ho).2.1]
  rw [meanGap, hgap, meanScore]

theorem sum_gap_one : (os.map (·.gap 1)).sum =
    (os.map fun o => o.weight.value).sum - (os.map fun o =>
      o.weight.value * o.score.value).sum := by
  induction os with
  | nil => simp
  | cons o os ih =>
      obtain ⟨ho, hos⟩ := List.forall_mem_cons.mp hscore
      have hgap : o.gap 1 = o.weight.value - o.weight.value * o.score.value := by
        unfold Outcome.gap
        rw [abs_sub_comm, abs_of_nonneg (sub_nonneg.mpr ho.2.2), mul_sub, mul_one]
      simp only [List.map_cons, List.sum_cons, hgap, ih hos]
      ring

theorem meanGap_one (hweight : ∀ o ∈ os, o.weight.IsWeight .exact) (hne : os ≠ []) :
    meanGap 1 os = 1 - meanScore os := by
  rw [meanGap, meanScore, sum_gap_one hscore, sub_div,
    div_self (sum_outcome_weights_pos hweight hne).ne']

end Means

/-! ## Rules that come nearer to a score -/

section Rules

variable {m m' : FactModel} {rules : List Rule} (hrules : ∀ rule ∈ rules,
  rule.weight.IsWeight .exact) {y : ℚ}
  (hnears : ∀ rule ∈ rules, (rule.run m).outcome.Nears y (rule.run m').outcome)
include hnears

/-- A category that was not vacuous is not vacuous later. -/
theorem appliedOutcomes_ne_nil_of_nears (hne : appliedOutcomes m rules ≠ []) :
    appliedOutcomes m' rules ≠ [] := by
  obtain ⟨o, ho⟩ := List.exists_mem_of_ne_nil _ hne
  obtain ⟨rule, hrule, happ, -⟩ := mem_appliedOutcomes.mp ho
  have happ' := (hnears rule hrule).applies ((run_applicable rule m).trans happ)
  rw [run_applicable] at happ'
  exact List.ne_nil_of_mem (mem_appliedOutcomes.mpr ⟨rule, hrule, happ', rfl⟩)

/-- Where no rule applied, all outcomes that apply have the score. -/
theorem score_of_nears (hnone : appliedOutcomes m rules = []) :
    ∀ o ∈ appliedOutcomes m' rules, o.score.value = y := by
  intro o ho
  obtain ⟨rule, hrule, happ', rfl⟩ := mem_appliedOutcomes.mp ho
  refine (hnears rule hrule).arrives ?_ ((run_applicable rule m').trans happ')
  by_contra happ
  rw [run_applicable, Bool.not_eq_false] at happ
  exact List.ne_nil_of_mem (mem_appliedOutcomes.mpr ⟨rule, hrule, happ, rfl⟩) hnone

include hrules

/-- The mean distance from the score shrinks. -/
theorem meanGap_le (hne : appliedOutcomes m rules ≠ []) :
    meanGap y (appliedOutcomes m' rules) ≤ meanGap y (appliedOutcomes m rules) := by
  have hforall :
      List.Forall₂ (Outcome.Nears y) ((rules.map (·.run m)).map (·.outcome))
        ((rules.map (·.run m')).map (·.outcome)) := by
    simp only [List.forall₂_map_left_iff, List.forall₂_map_right_iff, List.forall₂_same]
    exact hnears
  obtain ⟨hweights, hgaps⟩ := sums_of_nears hforall (by
    intro o ho
    obtain ⟨run, hrun, rfl⟩ := List.mem_map.mp ho
    obtain ⟨rule, hrule, rfl⟩ := List.mem_map.mp hrun
    rw [run_weight]
    exact (hrules rule hrule).2.1.le)
  -- the distances are divided by at least as much as before, and before there was something to
  -- divide by
  have hpos := sum_outcome_weights_pos (appliedOutcomes_isWeight hrules) hne
  have hnonneg : 0 ≤ ((appliedOutcomes m rules).map (·.gap y)).sum := by
    apply List.sum_nonneg
    intro x hx
    obtain ⟨o, ho, rfl⟩ := List.mem_map.mp hx
    exact mul_nonneg (appliedOutcomes_isWeight hrules o ho).2.1.le (abs_nonneg _)
  exact div_le_div₀ hnonneg hgaps hpos hweights

end Rules

section Category

variable {m m' : FactModel} {r : Registry} {active : Option (List String)} {c : Category}
  {s s' : CategoryScore}
  (hrules : ∀ rule ∈ r.activeRules active c, rule.weight.IsWeight .exact)
include hrules

theorem rawScore_cases (h : evaluate .exact m r active c = .ok s) :
    let os := appliedOutcomes m (r.activeRules active c)
    s.rawScore.isFinite = true ∧
      ((os = [] ∧ s.rawScore.value = 10) ∨ (os ≠ [] ∧ s.rawScore.value = 10 * meanScore os)) := by
  intro os
  rcases rawScore_of_scoreOfRuns (Registry.scoreOfRuns_of_evaluate h) with ⟨hnone, hraw⟩ | ⟨hne, -⟩
  · rw [hraw]
    exact ⟨rfl, .inl ⟨hnone, rfl⟩⟩
  · obtain ⟨-, hfinite, hvalue⟩ := rawScore_exact h hrules ((vacuous_eq_false_iff h).mpr hne)
    exact ⟨hfinite, .inr ⟨hne, hvalue⟩⟩

variable (h : evaluate .exact m r active c = .ok s) (h' : evaluate .exact m' r active c = .ok s')
include h h'

/-- Rules that come nearer to one do not lower the score of their category. -/
theorem rawScore_le_of_nears_one
    (hnears : ∀ rule ∈ r.activeRules active c, (rule.run m).outcome.Nears 1 (rule.run m').outcome) :
    s.rawScore.le s'.rawScore = true := by
  obtain ⟨hfinite, hraw⟩ := rawScore_cases hrules h
  obtain ⟨hfinite', hraw'⟩ := rawScore_cases hrules h'
  rw [Number.le_iff_value_le hfinite hfinite']
  rcases hraw with ⟨hnone, hraw⟩ | ⟨hne, hraw⟩ <;> rcases hraw' with ⟨hnone', hraw'⟩ | ⟨hne', hraw'⟩
  · rw [hraw, hraw']
  · -- all that applies now has the highest score
    have hmean :=
      le_meanScore (appliedOutcomes_isWeight hrules) hne' fun o ho =>
        (score_of_nears hnears hnone o ho).ge
    rw [hraw, hraw']
    linarith only [hmean]
  · exact absurd hnone' (appliedOutcomes_ne_nil_of_nears hnears hne)
  · have hgap := meanGap_le hrules hnears hne
    rw [meanGap_one appliedOutcomes_within (appliedOutcomes_isWeight hrules) hne,
      meanGap_one appliedOutcomes_within (appliedOutcomes_isWeight hrules) hne'] at hgap
    rw [hraw, hraw']
    linarith only [hgap]

/-- Rules that come nearer to zero do not raise it. -/
theorem rawScore_le_of_nears_zero
    (hnears : ∀ rule ∈ r.activeRules active c, (rule.run m).outcome.Nears 0 (rule.run m').outcome) :
    s'.rawScore.le s.rawScore = true := by
  obtain ⟨hfinite, hraw⟩ := rawScore_cases hrules h
  obtain ⟨hfinite', hraw'⟩ := rawScore_cases hrules h'
  rw [Number.le_iff_value_le hfinite' hfinite]
  rcases hraw with ⟨hnone, hraw⟩ | ⟨hne, hraw⟩ <;> rcases hraw' with ⟨hnone', hraw'⟩ | ⟨hne', hraw'⟩
  · rw [hraw, hraw']
  · -- no mean is above the score of a category that is vacuous
    have hmean := (meanScore_within (appliedOutcomes_isWeight hrules) appliedOutcomes_within hne').2
    rw [hraw, hraw']
    linarith only [hmean]
  · exact absurd hnone' (appliedOutcomes_ne_nil_of_nears hnears hne)
  · have hgap := meanGap_le hrules hnears hne
    rw [meanGap_zero appliedOutcomes_within, meanGap_zero appliedOutcomes_within] at hgap
    rw [hraw, hraw']
    linarith only [hgap]

end Category

/-! ## One more fact for a share -/

/-- The score of one fact alone. -/
def factScore (complies : Bool) : ℚ := if complies then 1 else 0

theorem factScore_injective : Function.Injective factScore := by
  rintro (_ | _) (_ | _) h
  · rfl
  · exact absurd h zero_ne_one
  · exact absurd h one_ne_zero
  · rfl

/-- **A running mean.** One more fact adds its own score to what the share counts. -/
theorem RuleResult.IsShare.append {res res' : RuleResult} {id : String} {advice : Advice}
    {predicate : FactPredicate} {selected : List Fact} {f : Fact} {complies : Bool}
    (h : res.IsShare id advice predicate selected)
    (h' : res'.IsShare id advice predicate (selected ++ [f])) (hf : predicate f = .ok complies) :
    res'.score.value * (selected.length + 1) =
      res.score.value * selected.length + factScore complies := by
  -- both shares count the facts that comply: all selected ones less the findings
  have hcounts := h.counts
  have hcounts' := h'.counts
  rw [← h.findings.length_eq] at hcounts
  rw [← h'.findings.length_eq, List.filter_append, List.length_append, List.length_append,
    List.length_singleton] at hcounts'
  cases complies with
  | true =>
      rw [List.filter_cons_of_neg (by simp [hf])] at hcounts'
      simp only [List.filter_nil, List.length_nil, Nat.add_zero, Nat.cast_add,
        Nat.cast_one] at hcounts'
      rw [hcounts', hcounts, factScore, if_pos rfl]
      ring
  | false =>
      rw [List.filter_cons_of_pos (by simp [hf])] at hcounts'
      simp only [List.filter_nil, List.length_singleton, Nat.cast_add, Nat.cast_one] at hcounts'
      rw [hcounts', hcounts, factScore, if_neg (by decide)]
      ring

/-- A running mean comes nearer to what is added. -/
theorem abs_sub_le_of_mean {x x' y : ℚ} {n : Nat} (h : x' * (n + 1) = x * n + y) :
    |x' - y| ≤ |x - y| := by
  have hn : (0 : ℚ) ≤ n := Nat.cast_nonneg n
  -- what is missing to `y` in all is the same before and after, and it is shared by one more
  have hmass : (x' - y) * (n + 1) = (x - y) * n := by
    rw [sub_mul, h]
    ring
  have habs : |x' - y| * (n + 1) = |x - y| * n := by
    rw [← abs_of_nonneg (add_nonneg hn zero_le_one), ← abs_mul, hmass, abs_mul, abs_of_nonneg hn]
  refine le_of_mul_le_mul_right ?_ (lt_of_lt_of_le zero_lt_one (le_add_of_nonneg_left hn))
  calc |x' - y| * (n + 1) = |x - y| * n := habs
    _ ≤ |x - y| * (n + 1) :=
        mul_le_mul_of_nonneg_left (le_add_of_nonneg_right zero_le_one) (abs_nonneg _)

theorem RuleResult.IsShare.score_eq {res res' : RuleResult} {id : String} {advice : Advice}
    {predicate : FactPredicate} {selected : List Fact} (hne : selected ≠ [])
    (h : res.IsShare id advice predicate selected)
    (h' : res'.IsShare id advice predicate selected) : res'.score.value = res.score.value := by
  have hlength : (selected.length : ℚ) ≠ 0 := by
    rw [Nat.cast_ne_zero, Ne, List.length_eq_zero_iff]
    exact hne
  apply mul_right_cancel₀ hlength
  rw [h'.counts, h.counts, ← h'.findings.length_eq, ← h.findings.length_eq]

/-! ## Rules on shares -/

/-- A built-in rule that does not fail gives the result that counts. -/
theorem Rule.HasForm.answer_of_not_fails {ρ : Rounding} {rule : Rule}
    {judge : FactModel → Except Fault RuleResult} {kinds : List String}
    (hform : rule.HasForm ρ judge kinds) {m : FactModel} (h : ¬rule.Fails m) :
    rule.evaluate m = .result (rule.answer m) ∧ rule.Gives m := by
  rcases rule.counts_answer m with ⟨-, hreturns⟩ | ⟨hfails, -⟩
  · have hres := hform.result_of_returns hreturns
    refine ⟨hres, _, hres, ?_⟩
    by_contra hinfinite
    exact h (Or.inr (Or.inr ⟨_, hreturns, Or.inl (by simpa using hinfinite)⟩))
  · exact absurd hfails h

theorem not_fails_of_gives {ρ : Rounding} {rule : Rule}
    {judge : FactModel → Except Fault RuleResult} {kinds : List String}
    (hform : rule.HasForm ρ judge kinds) {facts : List Fact} {files : List String} {root : String}
    (h : rule.Gives (.build facts files root)) : ¬rule.Fails (.build facts files root) := by
  obtain ⟨res, hres, hfinite⟩ := h
  rw [← judge_eq_error_iff, judge_of_result hform hres hfinite]
  rintro ⟨fault, hfault⟩
  cases hfault

/-- Whether a verdict is a result with a property can be decided. -/
instance Verdict.decidableResult (v : Verdict) (P : RuleResult → Prop) [DecidablePred P] :
    Decidable (∃ res, v = .result res ∧ P res) :=
  match v with
  | .result res => decidable_of_iff (P res) (by simp)
  | .malformed _ | .raised _ | .escaping _ | .unweighable _ _ => isFalse (by simp)

/-- What a rule on the share of facts that comply is made of. -/
structure ShareRule where
  id : String
  category : Category
  weight : Nat
  description : String
  kind : String
  predicate : FactPredicate
  message : String
  suggestion : String
  selector : FactPredicate

namespace ShareRule

def rule (t : ShareRule) : Rule :=
  Catalog.ratio .exact t.id t.category t.weight t.description t.kind t.predicate t.message
    t.suggestion t.selector

def selected (t : ShareRule) (facts : List Fact) : List Fact :=
  (facts.filter (·.kind = t.kind)).filter (t.selector · = .ok true)

/-- The rule can judge a fact, and if it selects the fact, this is how. -/
def Judges (t : ShareRule) (f : Fact) (complies : Bool) : Prop :=
  f.kind = t.kind → ∃ chosen, t.selector f = .ok chosen ∧
    (chosen = true → t.predicate f = .ok complies)

variable {t : ShareRule} {facts : List Fact} {files : List String} {root : String} {f : Fact}
  {complies : Bool}

/-- One more fact is selected as the last one, or not at all. -/
theorem selected_append (h : t.Judges f complies) :
    (t.selected (facts ++ [f]) = t.selected facts ++ [f] ∧ t.predicate f = .ok complies) ∨
      t.selected (facts ++ [f]) = t.selected facts := by
  unfold selected
  rw [List.filter_append, List.filter_append]
  by_cases hkind : f.kind = t.kind
  · obtain ⟨chosen, hchosen, hcomplies⟩ := h hkind
    rw [List.filter_cons_of_pos (by simpa using hkind), List.filter_nil]
    cases chosen with
    | true =>
        exact Or.inl ⟨by rw [List.filter_cons_of_pos (by simpa using hchosen), List.filter_nil],
          hcomplies rfl⟩
    | false =>
        exact Or.inr
          (by rw [List.filter_cons_of_neg (by simp [hchosen]), List.filter_nil, List.append_nil])
  · right
    rw [List.filter_cons_of_neg (by simpa using hkind), List.filter_nil, List.filter_nil,
      List.append_nil]

theorem isShare {res : RuleResult} (h : t.rule.evaluate (.build facts files root) = .result res) :
    res.IsShare t.id ⟨t.message, t.suggestion⟩ t.predicate (t.selected facts) := by
  rw [selected, ← FactModel.ofKind_build facts files root]
  exact judgeRatio_isShare (evaluate_of_eq_result_iff.mp h)

/-- A rule that gives a result still gives one after a fact that it can judge. -/
theorem gives_append (hwrites : IsMessage t.message) (h : t.rule.Gives (.build facts files root))
    (hf : t.Judges f complies) : t.rule.Gives (.build (facts ++ [f]) files root) := by
  have hgives : ∀ m, t.rule.Gives m ↔ ∀ g ∈ m.ofKind t.kind, CanJudge t.predicate t.selector g := by
    intro m
    apply gives_of_iff.trans
    apply hasResult_ratio_iff Rounding.isMonotone_exact
    exact hwrites
  rw [hgives, FactModel.ofKind_build] at h ⊢
  rw [List.filter_append]
  intro g hg
  rcases List.mem_append.mp hg with hg | hg
  · exact h g hg
  · obtain ⟨hmem, hkind⟩ := List.mem_filter.mp hg
    obtain rfl := List.mem_singleton.mp hmem
    obtain ⟨chosen, hchosen, hcomplies⟩ := hf (by simpa using hkind)
    exact ⟨chosen, hchosen, fun h => ⟨complies, hcomplies h⟩⟩

/-- Results on facts, before and after one more: the later one comes nearer to the score of the new
fact. -/
theorem nears_of_result {res res' : RuleResult}
    (h : t.rule.evaluate (.build facts files root) = .result res)
    (h' : t.rule.evaluate (.build (facts ++ [f]) files root) = .result res')
    (hf : t.Judges f complies) :
    (res.applicable = true → res'.applicable = true ∧
      |res'.score.value - factScore complies| ≤ |res.score.value - factScore complies|) ∧
    (res.applicable = false → res'.applicable = true → res'.score.value = factScore complies) := by
  have hshare := isShare h
  have hshare' := isShare h'
  rw [← Bool.not_eq_true, hshare.applicable_iff, hshare'.applicable_iff, not_not]
  rcases selected_append hf with ⟨happend, hcomplies⟩ | hsame
  · rw [happend] at hshare' ⊢
    have hmean := hshare.append hshare' hcomplies
    refine ⟨fun _ => ⟨by simp, abs_sub_le_of_mean hmean⟩, ?_⟩
    -- a mean of one fact is the score of this fact
    intro hnone _
    rw [hnone] at hmean
    simpa using hmean
  · rw [hsame] at hshare' ⊢
    refine ⟨fun hne => ⟨hne, ?_⟩, fun hnone hne => absurd hnone hne⟩
    rw [hshare.score_eq hne hshare']

/-- How a rule judges a fact shows in its result on this fact alone. -/
theorem judges_of_alone {res : RuleResult}
    (hres : t.rule.evaluate (.build [f] files root) = .result res)
    (hscore : res.applicable = true → res.score.value = factScore complies) :
    t.Judges f complies := by
  intro hkind
  have hshare := isShare hres
  obtain ⟨_, hselect, -⟩ := bind_eq_ok_iff.mp (evaluate_of_eq_result_iff.mp hres)
  obtain ⟨hdecides, -⟩ := selectFacts_eq_ok_iff.mp hselect
  have hofKind : [f].filter (·.kind = t.kind) = [f] :=
    List.filter_cons_of_pos (by simpa using hkind)
  rw [FactModel.ofKind_build, hofKind] at hdecides
  obtain ⟨chosen, hchosen⟩ := hdecides f List.mem_cons_self
  refine ⟨chosen, hchosen, ?_⟩
  rintro rfl
  have hselected : t.selected [f] = [] ++ [f] := by
    rw [selected, hofKind, List.filter_cons_of_pos (by simpa using hchosen)]
    rfl
  rw [hselected] at hshare
  obtain ⟨found, hfound⟩ := hshare.decides f (by simp)
  -- the fact is added to none, so the share is its own score
  have hmean :=
    (isShare_notApplicable t.id ⟨t.message, t.suggestion⟩ t.predicate).append hshare hfound
  rw [hscore (hshare.applicable_iff.mpr (by simp))] at hmean
  have hsame : factScore complies = factScore found := by simpa using hmean
  rw [factScore_injective hsame]
  exact hfound

end ShareRule

/-! ## Categories of rules on shares -/

/-- The categories all of whose built-in rules are rules on shares. -/
def shareCategories : List Category :=
  [.layout, .naming, .functionDesign, .classDesign, .errorHandling, .performance]

theorem Registry.not_listed_of_share : ∀ p ∈ Registry.places, p.category ∈ shareCategories →
    p.id ∉ (Catalog.penalties ++ Catalog.others).map (·.1) := by
  decide +kernel

theorem Rule.Reads.exists_share {kind : String} {type : ValueType} {rule : Rule}
    (h : rule.Reads .exact kind type)
    (hlisted : rule.id ∉ (Catalog.penalties ++ Catalog.others).map (·.1)) :
    ∃ t : ShareRule, rule = t.rule ∧ IsMessage t.message := by
  have hnot : (rule.id, kind) ∉ Catalog.penalties ++ Catalog.others :=
    fun hmem => hlisted (List.mem_map.mpr ⟨_, hmem, rfl⟩)
  cases h with
  | @ratio id c weight description kind message suggestion type predicate selector listed judges
      writes suggests =>
      exact ⟨⟨id, c, weight, description, kind, predicate, message, suggestion, selector⟩, rfl,
        writes⟩
  | penalty listed range writes suggests => exact absurd (List.mem_append_left _ listed) hnot
  | presence listed writes suggests => exact absurd (List.mem_append_right _ listed) hnot
  | testsPresent listed => exact absurd (List.mem_append_right _ listed) hnot
  | testRatio listed => exact absurd (List.mem_append_right _ listed) hnot
  | logging listed => exact absurd (List.mem_append_right _ listed) hnot

section BuiltIn

variable {limits : Limits} {c : Category} (hc : c ∈ shareCategories) {active : Option (List String)}
  {rule : Rule}
  (hrule : rule ∈ (Registry.builtIn .exact limits).activeRules active c)
include hc hrule

/-- Every active rule of such a category is a rule on shares, whose message can be written. -/
theorem exists_share_of_mem : ∃ t : ShareRule, rule = t.rule ∧ IsMessage t.message := by
  obtain ⟨hmem, hcategory⟩ := Registry.mem_catalog_of_mem_activeRules hrule
  obtain ⟨kind, type, -, hreads⟩ := catalog_reads .exact limits rule hmem
  apply hreads.exists_share
  apply Registry.forall_catalog Registry.not_listed_of_share limits rule hmem
  show rule.category ∈ shareCategories
  rw [hcategory]
  exact hc

/-- **One more fact for a rule.** A rule that did not fail does not fail on one more fact that it
can judge, and its outcome comes nearer to the score of this fact. -/
theorem run_nears {facts : List Fact} {files : List String} {root : String} {f : Fact}
    {complies : Bool} (hsound : ¬rule.Fails (.build facts files root))
    (hf : ∀ t : ShareRule, t.rule = rule → t.Judges f complies) :
    ¬rule.Fails (.build (facts ++ [f]) files root) ∧
      (rule.run (.build facts files root)).outcome.Nears (factScore complies)
        (rule.run (.build (facts ++ [f]) files root)).outcome := by
  have hmem := (Registry.mem_catalog_of_mem_activeRules hrule).1
  have hfair := Registry.catalog_isFair hmem (.build facts files root)
  have hfair' := Registry.catalog_isFair hmem (.build (facts ++ [f]) files root)
  obtain ⟨judge, kinds, hform⟩ := catalog_form .exact limits rule hmem
  obtain ⟨t, rfl, hwrites⟩ := exists_share_of_mem hc hrule
  obtain ⟨hres, hgives⟩ := hform.answer_of_not_fails hsound
  have hsound' : ¬t.rule.Fails (.build (facts ++ [f]) files root) :=
    not_fails_of_gives hform (ShareRule.gives_append hwrites hgives (hf t rfl))
  -- the runs show the scores that the rule gives, as these are in the range already
  obtain ⟨happlies, harrives⟩ :=
    ShareRule.nears_of_result hres (hform.answer_of_not_fails hsound').1 (hf t rfl)
  refine ⟨hsound', ⟨by rw [run_weight, run_weight], ?_, ?_, ?_⟩⟩ <;> rw [run_applicable]
  · intro happ
    rw [run_applicable]
    exact (happlies happ).1
  · intro happ
    rw [hfair.run_score_value happ, hfair'.run_score_value (happlies happ).1]
    exact (happlies happ).2
  · intro happ happ'
    rw [run_applicable] at happ'
    rw [hfair'.run_score_value happ']
    exact harrives happ happ'

end BuiltIn

/-- **Facts that comply never hurt, and facts that do not comply never help.** Take a category of
rules on shares alone, any limits, any active rules and any code base on which none of these rules
fails. All scores are there before and after one more fact. If each rule that selects this fact
finds that it complies, the score of the category does not fall. If each such rule finds that it
does not comply, the score does not rise. This is so too if the fact is the first one that a rule
selects, or that any rule of the category selects. -/
theorem added_fact_moves_score (limits : Limits) (c : Category) (hc : c ∈ shareCategories)
    (active : Option (List String)) (facts : List Fact) (files : List String) (root : String)
    (f : Fact) (hsound : ∀ rule ∈ (Registry.builtIn .exact limits).activeRules active c,
      ¬rule.Fails (.build facts files root)) :
    let r := Registry.builtIn .exact limits
    let later := FactModel.build (facts ++ [f]) files root
    (∀ rule ∈ r.activeRules active c, ∃ t : ShareRule, rule = t.rule) ∧
      ∃ s s', evaluate .exact (.build facts files root) r active c = .ok s ∧
        evaluate .exact later r active c = .ok s' ∧
        ((∀ t : ShareRule, t.rule ∈ r.activeRules active c → t.Judges f true) →
          (∀ rule ∈ r.activeRules active c, ¬rule.Fails later) ∧ s.rawScore.le s'.rawScore = true) ∧
        ((∀ t : ShareRule, t.rule ∈ r.activeRules active c → t.Judges f false) →
          (∀ rule ∈ r.activeRules active c, ¬rule.Fails later) ∧
            s'.rawScore.le s.rawScore = true) := by
  intro r later
  obtain ⟨s, hs, -⟩ := exists_score_exact limits (.build facts files root) active c
  obtain ⟨s', hs', -⟩ := exists_score_exact limits later active c
  have hrules : ∀ rule ∈ r.activeRules active c, rule.weight.IsWeight .exact := fun rule hrule =>
    (Registry.catalog_isFair (Registry.mem_catalog_of_mem_activeRules hrule).1 later).isWeight
  -- both directions are one step: each rule comes nearer to the score of the new fact, which is one
  -- or zero
  have hstep :
      ∀ complies, (∀ t : ShareRule, t.rule ∈ r.activeRules active c → t.Judges f complies) →
      ∀ rule ∈ r.activeRules active c, ¬rule.Fails later ∧
        (rule.run (.build facts files root)).outcome.Nears (factScore complies)
          (rule.run later).outcome := by
    intro complies hall rule hrule
    apply run_nears hc hrule (hsound rule hrule)
    rintro t rfl
    exact hall t hrule
  refine ⟨?_, s, s', hs, hs', ?_, ?_⟩
  · intro rule hrule
    obtain ⟨t, ht, -⟩ := exists_share_of_mem hc hrule
    exact ⟨t, ht⟩
  · intro hall
    refine ⟨fun rule hrule => (hstep true hall rule hrule).1, ?_⟩
    exact rawScore_le_of_nears_one hrules hs hs' fun rule hrule => (hstep true hall rule hrule).2
  · intro hall
    refine ⟨fun rule hrule => (hstep false hall rule hrule).1, ?_⟩
    exact rawScore_le_of_nears_zero hrules hs hs' fun rule hrule => (hstep false hall rule hrule).2

/-- Two rules on names look at arguments, and none of them applied before. -/
theorem added_fact_moves_score_arguments :
    let name (kind value : String) : Fact :=
      { kind, location := ⟨"a.py", .int 1, .int 1⟩, value := .text value, subject := "area" }
    let facts := [name Kind.functionName "Area", name Kind.className "Shape"]
    let score (facts : List Fact) :=
      evaluate .exact (.build facts ["a.py"] ".") (.builtIn .exact {}) none .naming
    ∃ s better worse, score facts = .ok s ∧
      score (facts ++ [name Kind.argumentName "width"]) = .ok better ∧
      score (facts ++ [name Kind.argumentName "W"]) = .ok worse ∧
        s.rawScore.le better.rawScore = true ∧
      worse.rawScore.le s.rawScore = true := by
  intro name facts score
  have hsound : ∀ rule ∈ (Registry.builtIn .exact {}).activeRules none .naming,
      ¬rule.Fails (.build facts ["a.py"] ".") := by
    intro rule hrule
    obtain ⟨hmem, hcategory⟩ := Registry.mem_catalog_of_mem_activeRules hrule
    have hcatalog : ∀ rule ∈ Catalog.rules .exact {}, rule.category = .naming →
        ∃ res, rule.evaluate (.build facts ["a.py"] ".") = .result res ∧
          res.score.isFinite = true := by decide +kernel
    obtain ⟨judge, kinds, hform⟩ := catalog_form .exact {} rule hmem
    exact not_fails_of_gives hform (hcatalog rule hmem hcategory)
  -- how a rule judges one fact can be read off its score on a code base with this fact alone
  have hjudges : ∀ f complies, (∀ rule ∈ Catalog.rules .exact {}, rule.category = .naming →
      ∃ res, rule.evaluate (.build [f] ["a.py"] ".") = .result res ∧
        (res.applicable = true → res.score.value = factScore complies)) →
      ∀ t : ShareRule, t.rule ∈ (Registry.builtIn .exact {}).activeRules none .naming →
        t.Judges f complies := by
    intro f complies hcatalog t ht
    obtain ⟨hmem, hcategory⟩ := Registry.mem_catalog_of_mem_activeRules ht
    obtain ⟨res, hres, hscore⟩ := hcatalog t.rule hmem hcategory
    exact ShareRule.judges_of_alone hres hscore
  obtain ⟨-, s, better, hs, hbetter, hrises, -⟩ :=
    added_fact_moves_score {} .naming (by decide) none facts ["a.py"] "."
    (name Kind.argumentName "width") hsound
  obtain ⟨-, s', worse, hs', hworse, -, hfalls⟩ :=
    added_fact_moves_score {} .naming (by decide) none facts ["a.py"] "."
    (name Kind.argumentName "W") hsound
  obtain rfl : s = s' := Except.ok.inj (hs.symm.trans hs')
  exact ⟨s, better, worse, hs, hbetter, hworse, (hrises (hjudges _ true (by decide +kernel))).2,
    (hfalls (hjudges _ false (by decide +kernel))).2⟩

end Scorecard
