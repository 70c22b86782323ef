import Scorecard.Proofs.RuleTotality
import Scorecard.Proofs.ScoreOrder

set_option autoImplicit false

/-! # Looser limits

If the built-in rules measure against looser limits, nothing scores lower
(`looser_limits_score_higher`). A limit occurs only in the condition that a rule on shares asks of
each fact. The looser condition holds wherever the tighter one does, and where one of them has no
answer the other has none (`FactPredicate.Implies`), so fewer facts violate it and the rule applies
and fails in the same cases. The rest is the order of scores.
-/

namespace Scorecard

/-- The limits on the left ask for at least as much as those on the right. -/
structure Limits.Loosens (limits limits' : Limits) : Prop where
  lineLength : limits.lineLength ≤ limits'.lineLength
  functionLength : limits.functionLength ≤ limits'.functionLength
  arguments : limits.arguments ≤ limits'.arguments
  complexity : limits.complexity ≤ limits'.complexity
  loopDepth : limits.loopDepth ≤ limits'.loopDepth
  classMethods : limits.classMethods ≤ limits'.classMethods
  classBases : limits.classBases ≤ limits'.classBases
  moduleLength : limits.moduleLength ≤ limits'.moduleLength
  leastCommitSubject : limits'.leastCommitSubject ≤ limits.leastCommitSubject
  mostCommitSubject : limits.mostCommitSubject ≤ limits'.mostCommitSubject

/-! ## Conditions -/

/-- Wherever the first condition holds the second one does, and both have an answer for the same
facts. -/
def FactPredicate.Implies (p q : FactPredicate) : Prop :=
  ∀ f, Alike (fun a b => a = true → b = true) (p f) (q f)

theorem within_implies {limit limit' : Int} (h : limit ≤ limit') :
    (Catalog.within .nearest limit).Implies (Catalog.within .nearest limit') := by
  intro f
  refine (Alike.refl (T := Eq) (fun _ => rfl)
    ((f.number .nearest).mapError NumberError.fault)).bind ?_
  rintro x - rfl
  refine .agreed fun hle => ?_
  have hlimit : Number.le (.finite limit) (.finite limit') = true := by
    have hcast : (limit : ℚ) ≤ limit' := by exact_mod_cast h
    exact (Number.le_iff_value_le rfl rfl).mpr hcast
  exact Number.le_trans hle hlimit

theorem commitSubject_implies {least most least' most' : Int} (hleast : least' ≤ least)
    (hmost : most ≤ most') :
    (FactPredicate.commitSubject least most).Implies
      (FactPredicate.commitSubject least' most') := by
  intro f
  refine (Alike.refl (T := Eq) (fun _ => rfl) (f.label.mapError DigitError.fault)).bind ?_
  rintro message - rfl
  refine .agreed fun hholds => ?_
  simp only [Bool.and_eq_true, decide_eq_true_eq] at hholds ⊢
  obtain ⟨⟨hspecific, hlow⟩, hhigh⟩ := hholds
  exact ⟨⟨hspecific, hleast.trans hlow⟩, hhigh.trans hmost⟩

/-! ## Judgements -/

/-- The second result is no worse: it applies in the same cases, it has no lower score, and it finds
something only in places where the first one does, in the same order. -/
structure RuleResult.Improves (res res' : RuleResult) : Prop where
  applicable_eq : res.applicable = res'.applicable
  finite : res.score.isFinite = true
  finite' : res'.score.isFinite = true
  score_le : res.score.le res'.score = true
  locations : (res'.findings.map (·.location)).Sublist (res.findings.map (·.location))

theorem RuleResult.Improves.refl {res : RuleResult} (h : res.score.isFinite = true) :
    res.Improves res :=
  ⟨rfl, h, h, (Number.le_iff_value_le h h).mpr le_rfl, .refl _⟩

section Ratio

variable {id id' : String} {advice advice' : Advice} {p q : FactPredicate}
  (hmessage : IsMessage advice.message) (hmessage' : IsMessage advice'.message) (h : p.Implies q)
include hmessage hmessage' h

/-- Fewer facts violate the weaker condition, and they stand in the same order. -/
theorem violations_improve (facts : List Fact) :
    Alike (fun found found' => (found'.map (·.location)).Sublist (found.map (·.location)) ∧
      found.length ≤ facts.length)
      (violations id advice p facts) (violations id' advice' q facts) := by
  induction facts with
  | nil => exact .agreed ⟨.refl _, le_rfl⟩
  | cons f rest ih =>
      obtain ⟨x, hx⟩ := exists_violation hmessage id f
      obtain ⟨x', hx'⟩ := exists_violation hmessage' id' f
      have hlocation : x.location = x'.location := by
        obtain ⟨_, -, hfinding⟩ := bind_eq_ok_iff.mp hx
        obtain ⟨_, -, hfinding'⟩ := bind_eq_ok_iff.mp hx'
        cases hfinding
        cases hfinding'
        rfl
      rw [violations, violations, hx, hx']
      refine (h f).bind fun a b hab => ?_
      -- the fact complies with both conditions, with the weaker one only, or with neither
      cases a with
      | true =>
          rw [hab rfl]
          exact ih.imp fun _ _ _ _ hfound => ⟨hfound.1, hfound.2.trans (Nat.le_succ _)⟩
      | false =>
          cases b with
          | true =>
              change Alike _ (violations id advice p rest >>= fun more => .ok (x :: more))
                (violations id' advice' q rest)
              rw [← bind_pure (violations id' advice' q rest)]
              exact ih.bind fun _ _ hfound => .agreed ⟨hfound.1.cons _, Nat.succ_le_succ hfound.2⟩
          | false =>
              refine ih.bind fun _ _ hfound => .agreed ⟨?_, Nat.succ_le_succ hfound.2⟩
              rw [List.map_cons, List.map_cons, hlocation]
              exact hfound.1.cons_cons _

theorem judgeRatio_improves (kind : String) (selector : FactPredicate) (m : FactModel) :
    Alike RuleResult.Improves (judgeRatio .nearest id kind p selector advice m)
      (judgeRatio .nearest id' kind q selector advice' m) := by
  refine (Alike.refl (T := Eq) (fun _ => rfl) (selectFacts selector (m.ofKind kind))).bind ?_
  rintro selected - rfl
  split
  · exact .agreed (.refl rfl)
  · refine (violations_improve hmessage hmessage' h selected).bind fun found found' hfound =>
      .agreed ?_
    obtain ⟨hsublist, hlength⟩ := hfound
    have hfewer : found'.length ≤ found.length := by simpa using hsublist.length_le
    refine ⟨rfl, ?_, ?_, ?_, hsublist⟩
    · exact Number.ratio_isFinite Rounding.isMonotone_nearest (by omega) (by omega)
    · exact Number.ratio_isFinite Rounding.isMonotone_nearest (by omega) (by omega)
    · exact Number.ratio_mono Rounding.isMonotone_nearest (by omega) (by omega)

end Ratio

/-! ## The catalog -/

theorem isFinite_of_judge {rule : Rule} {m : FactModel} {res : RuleResult}
    (h : rule.judge m = .ok res) : res.score.isFinite = true := by
  by_contra hfinite
  -- a score that is not finite makes the rule fail
  have hfails : rule.Fails m :=
    Or.inr (Or.inr ⟨res, Rule.returns_of_judge h, Or.inl (by simpa using hfinite)⟩)
  obtain ⟨f, hf⟩ := (judge_eq_error_iff rule m).mpr hfails
  rw [h] at hf
  cases hf

/-- Two rules in the same place, of which the second is no worse on a model. -/
structure Rule.Improves (m : FactModel) (rule rule' : Rule) : Prop where
  place_eq : Registry.place rule = Registry.place rule'
  judge : Alike RuleResult.Improves (rule.judge m) (rule'.judge m)

theorem Rule.Improves.refl (m : FactModel) (rule : Rule) : rule.Improves m rule := by
  refine ⟨rfl, (Alike.refl (T := Eq) (fun _ => rfl) (rule.judge m)).imp
    fun res res' hres _ hsame => ?_⟩
  rw [← hsame]
  exact .refl (isFinite_of_judge hres)

section Catalog

variable {facts : List Fact} {files : List String} {root : String}

/-- A rule on shares with a weaker condition, whatever it says about it. -/
theorem ratio_improves {id : String} {c : Category} {weight : Nat}
    {description description' kind message suggestion suggestion' : String}
    {p q selector : FactPredicate} (hkind : kind ∈ c.kinds) (hmessage : IsMessage message)
    (h : p.Implies q) :
    (Catalog.ratio .nearest id c weight description kind p message suggestion selector).Improves
      (.build facts files root)
      (Catalog.ratio .nearest id c weight description' kind q message suggestion' selector) := by
  refine ⟨rfl, ?_⟩
  have hform : ∀ {d : String} {predicate : FactPredicate} {advice : Advice},
      (Rule.of id c (Catalog.hundredths weight) d
        (judgeRatio .nearest id kind predicate selector advice)).HasForm
          .nearest (judgeRatio .nearest id kind predicate selector advice) [kind] :=
    ⟨rfl, .ratio _ _ _ _, List.forall_mem_singleton.mpr hkind⟩
  unfold Catalog.ratio
  rw [judge_of_form hform, judge_of_form hform]
  have hadvice : IsMessage (Advice.mk message suggestion).message := hmessage
  have hadvice' : IsMessage (Advice.mk message suggestion').message := hmessage
  refine (judgeRatio_improves hadvice hadvice' h kind selector _).bind fun res res' himproves => ?_
  rw [RuleResult.finite?, RuleResult.finite?, if_pos himproves.finite, if_pos himproves.finite']
  exact .agreed himproves

/-- **Under looser limits every built-in rule is no worse.** -/
theorem catalog_improves {limits limits' : Limits} (h : limits.Loosens limits') :
    List.Forall₂ (Rule.Improves (.build facts files root)) (Catalog.rules .nearest limits)
      (Catalog.rules .nearest limits') := by
  have hsame :
      ∀ rules : List Rule, List.Forall₂ (Rule.Improves (.build facts files root)) rules rules :=
    fun rules => List.forall₂_same.mpr fun rule _ => .refl _ rule
  -- only the rules with a limit differ, all others are the same under both
  have hlayout :
      List.Forall₂ (Rule.Improves (.build facts files root)) (Catalog.layout .nearest limits)
      (Catalog.layout .nearest limits') :=
    .cons (ratio_improves (by decide) (isMessage (by decide +kernel)) (within_implies h.lineLength))
      (hsame _)
  have hfunctionDesign :
      List.Forall₂ (Rule.Improves (.build facts files root))
        (Catalog.functionDesign .nearest limits)
      (Catalog.functionDesign .nearest limits') := by
    refine .cons (ratio_improves (by decide) (isMessage (by decide +kernel))
      (within_implies h.functionLength)) ?_
    refine .cons (.refl _ _) ?_
    refine .cons (ratio_improves (by decide) (isMessage (by decide +kernel))
      (within_implies h.arguments)) ?_
    exact .cons (ratio_improves (by decide) (isMessage (by decide +kernel))
      (within_implies h.complexity)) .nil
  have hclassDesign :
      List.Forall₂ (Rule.Improves (.build facts files root)) (Catalog.classDesign .nearest limits)
      (Catalog.classDesign .nearest limits') := by
    refine .cons (.refl _ _) ?_
    refine .cons (ratio_improves (by decide) (isMessage (by decide +kernel))
      (within_implies h.classMethods)) ?_
    exact .cons (ratio_improves (by decide) (isMessage (by decide +kernel))
      (within_implies h.classBases)) .nil
  have hconfiguration :
      List.Forall₂ (Rule.Improves (.build facts files root)) (Catalog.configuration .nearest limits)
      (Catalog.configuration .nearest limits') := by
    refine .cons (.refl _ _) (.cons (.refl _ _) ?_)
    exact .cons (ratio_improves (by decide) (isMessage (by decide +kernel))
      (within_implies h.moduleLength)) .nil
  have hperformance :
      List.Forall₂ (Rule.Improves (.build facts files root)) (Catalog.performance .nearest limits)
      (Catalog.performance .nearest limits') := by
    refine .cons (.refl _ _) ?_
    exact .cons (ratio_improves (by decide) (isMessage (by decide +kernel))
      (within_implies h.loopDepth)) (hsame _)
  have hversionControl :
      List.Forall₂ (Rule.Improves (.build facts files root))
        (Catalog.versionControl .nearest limits)
      (Catalog.versionControl .nearest limits') := by
    refine .cons (.refl _ _) ?_
    exact .cons (ratio_improves (by decide) (isMessage (by decide +kernel))
      (commitSubject_implies h.leastCommitSubject h.mostCommitSubject)) (hsame _)
  have happend : ∀ {before before' later later' : List Rule},
      List.Forall₂ (Rule.Improves (.build facts files root)) before before' →
      List.Forall₂ (Rule.Improves (.build facts files root)) later later' →
        List.Forall₂ (Rule.Improves (.build facts files root)) (before ++ later)
          (before' ++ later') :=
    fun hbefore hlater => List.rel_append hbefore hlater
  unfold Catalog.rules
  exact happend
    (happend
    (happend
    (happend (happend (happend (happend (happend (happend hlayout (hsame _)) hfunctionDesign)
    hclassDesign) (hsame _)) hconfiguration) (hsame _)) (hsame _)) hperformance) hversionControl

end Catalog

/-! ## Runs -/

/-- The second run is no worse: it is of the same rule, it applies and fails in the same cases, and
it has no lower score. If it does not fail, it finds something only in places where the first one
does. -/
structure RuleRun.Improves (run run' : RuleRun) : Prop where
  ruleId_eq : run.outcome.ruleId = run'.outcome.ruleId
  applicable_eq : run.outcome.applicable = run'.outcome.applicable
  failed_eq : run.outcome.failed = run'.outcome.failed
  score_le : run.outcome.score.le run'.outcome.score = true
  locations : run.outcome.failed = false →
    (run'.findings.map (·.location)).Sublist (run.findings.map (·.location))

theorem run_improves {rule rule' : Rule} {m : FactModel} (h : rule.Improves m rule') :
    (rule.run m).Improves (rule'.run m) := by
  have hid : rule.id = rule'.id := congrArg Registry.Place.id h.place_eq
  have hjudge := h.judge
  unfold Rule.run
  generalize rule.judge m = x at hjudge
  generalize rule'.judge m = y at hjudge
  cases hjudge with
  | failed f f' => exact ⟨hid, rfl, rfl, rfl, fun hfailed => by cases hfailed⟩
  | @agreed res res' himproves =>
      dsimp only
      rw [← himproves.applicable_eq]
      split
      · exact ⟨hid, rfl, rfl, Number.clamp_mono (by norm_num) himproves.score_le,
          fun _ => himproves.locations⟩
      · exact ⟨hid, rfl, rfl, himproves.score_le, fun _ => .refl _⟩

/-! ## Categories -/

section Scores

variable {limits limits' : Limits} (h : limits.Loosens limits') (facts : List Fact)
  (files : List String) (root : String)
  (active : Option (List String))
include h

/-- The same rules are active for a category, side by side. -/
theorem activeRules_improve (c : Category) :
    List.Forall₂ (Rule.Improves (.build facts files root))
      ((Registry.builtIn .nearest limits).activeRules active c)
      ((Registry.builtIn .nearest limits').activeRules active c) := by
  rw [(Registry.builtIn_consistent limits).activeRules_eq,
    (Registry.builtIn_consistent limits').activeRules_eq,
    Registry.builtIn_rules, Registry.builtIn_rules]
  refine List.rel_filter (fun rule rule' himproves => ?_)
    (List.rel_filter (fun rule rule' himproves => ?_) (catalog_improves h))
  · have hid : rule.id = rule'.id := congrArg Registry.Place.id himproves.place_eq
    simp only [Registry.isActive, hid]
  · have hcategory : rule.category = rule'.category :=
      congrArg Registry.Place.category himproves.place_eq
    simp only [hcategory]

/-- Every category has a score under both limits, and it is no lower under the looser ones. -/
theorem evaluate_improves (c : Category) :
    ∃ s s', evaluate .nearest (.build facts files root)
      (.builtIn .nearest limits) active c = .ok s ∧
      evaluate .nearest (.build facts files root) (.builtIn .nearest limits') active c = .ok s' ∧
      s.rawScore.le s'.rawScore = true := by
  have hweight : ∀ rule ∈ (Registry.builtIn .nearest limits).activeRules active c,
      rule.weight.IsWeight .nearest := by
    intro rule hrule
    obtain ⟨hmem, -⟩ := Registry.mem_of_mem_activeRules hrule
    have hsound := Registry.catalog_sound limits rule hmem
    exact isWeight_of_range hsound.positive hsound.atMostOne (Number.keptBy_nearest hsound.isDouble)
  rw [Registry.evaluate_builtIn, Registry.evaluate_builtIn]
  refine scoreOfRuns_mono Rounding.isMonotone_nearest c ?_
  rw [List.forall₂_map_left_iff, List.forall₂_map_right_iff]
  have hrules :=
    (List.forall₂_and_left _ _).mpr ⟨hweight, activeRules_improve h facts files root active c⟩
  refine hrules.imp fun rule rule' hboth => ?_
  have hrun := run_improves hboth.2
  exact run_below (congrArg Registry.Place.weight hboth.2.place_eq) hboth.1
    ⟨hrun.applicable_eq, fun _ => hrun.score_le⟩

end Scores

/-- Without rules that stall, all categories are scored by the built-in rules. -/
theorem evaluateAll_builtIn {limits : Limits} {m : FactModel} {active : Option (List String)}
    {scoreOf : Category → CategoryScore}
    (hscore : ∀ c, evaluate .nearest m (.builtIn .nearest limits) active c = .ok (scoreOf c))
    {workers : Option Int} (hworkers : ∀ n, workers = some n → 0 < n) :
    evaluateAll .nearest m (.builtIn .nearest limits) active workers =
      .ok (Category.all.map scoreOf) := by
  have hconsistent := Registry.builtIn_consistent limits
  have hquick := stalls_eq_false hconsistent (Registry.builtIn_stalls limits) active
  rw [evaluateAll_eq_ok hscore hquick hworkers,
    categories_eq_all hconsistent (missingCategories_builtIn limits)]

/-- **Looser limits never lower a score.** On any code base and with any active rules, each rule
applies and fails in the same cases under the looser limits, with no lower score, and if it does not
fail it finds something only where it did before. No category has a lower raw score, and a report
has no lower overall score; there are reports if the places of all facts can be written. -/
theorem looser_limits_score_higher {limits limits' : Limits} (h : limits.Loosens limits')
    (facts : List Fact) (files : List String) (root : String) (active : Option (List String)) :
    let m := FactModel.build facts files root
    let r := Registry.builtIn .nearest limits
    let r' := Registry.builtIn .nearest limits'
    (∀ c, List.Forall₂ RuleRun.Improves ((r.activeRules active c).map (·.run m))
      ((r'.activeRules active c).map (·.run m)) ∧
        ∃ s s', evaluate .nearest m r active c = .ok s ∧ evaluate .nearest m r' active c = .ok s' ∧
          s.Reports c ((r.activeRules active c).map (·.run m)) ∧
          s'.Reports c ((r'.activeRules active c).map (·.run m)) ∧
          s.rawScore.le s'.rawScore = true) ∧
      ∀ workers : Option Int, (∀ n, workers = some n → 0 < n) →
        ∃ scores scores', evaluateAll .nearest m r active workers = .ok scores ∧
          evaluateAll .nearest m r' active workers = .ok scores' ∧
          ∀ (overrides weights : Weights) (bounds : ReportBounds),
            Weights.resolve .nearest overrides = .ok weights →
            ((∀ f ∈ facts, f.location.IsWritable) →
              ∃ report report', aggregate .nearest scores overrides bounds = .ok report ∧
                aggregate .nearest scores' overrides bounds = .ok report') ∧
            ∀ report report', aggregate .nearest scores overrides bounds = .ok report →
              aggregate .nearest scores' overrides bounds = .ok report' →
                report.overall.le report'.overall = true := by
  intro m r r'
  have hscores : ∀ c, ∃ s s', evaluate .nearest m r active c = .ok s ∧
      evaluate .nearest m r' active c = .ok s' ∧
      s.Reports c ((r.activeRules active c).map (·.run m)) ∧
        s'.Reports c ((r'.activeRules active c).map (·.run m)) ∧
      s.rawScore.le s'.rawScore = true := by
    intro c
    obtain ⟨s, s', hs, hs', hle⟩ := evaluate_improves h facts files root active c
    obtain ⟨t, ht, hreports⟩ := Registry.exists_builtIn_score limits m active c
    obtain ⟨t', ht', hreports'⟩ := Registry.exists_builtIn_score limits' m active c
    cases hs.symm.trans ht
    cases hs'.symm.trans ht'
    exact ⟨s, s', hs, hs', hreports, hreports', hle⟩
  refine ⟨fun c => ⟨?_, hscores c⟩, fun workers hworkers => ?_⟩
  · rw [List.forall₂_map_left_iff, List.forall₂_map_right_iff]
    exact (activeRules_improve h facts files root active c).imp fun _ _ => run_improves
  · -- the scores of all categories as functions, to write down the two lists of them
    choose scoreOf scoreOf' hscore hscore' hreports hreports' hle using hscores
    have hcategory : ∀ c, (scoreOf c).category = c := fun c => (hreports c).category_eq
    have hcategory' : ∀ c, (scoreOf' c).category = c := fun c => (hreports' c).category_eq
    have hcomplete : CompleteScores (Category.all.map scoreOf) :=
      List.Perm.of_eq (map_category_map hcategory _)
    have hcomplete' : CompleteScores (Category.all.map scoreOf') :=
      List.Perm.of_eq (map_category_map hcategory' _)
    have hrange : ∀ s ∈ Category.all.map scoreOf, s.InRange :=
      List.forall_mem_map.mpr fun c _ => (hreports c).within.le_and_le
    have hrange' : ∀ s ∈ Category.all.map scoreOf', s.InRange :=
      List.forall_mem_map.mpr fun c _ => (hreports' c).within.le_and_le
    refine ⟨_, _, evaluateAll_builtIn hscore hworkers, evaluateAll_builtIn hscore' hworkers,
      fun overrides weights bounds hresolve => ⟨fun hfacts => ?_, fun report report' => ?_⟩⟩
    · have hm : m.HasWritableLines := ⟨facts, files, root, rfl, hfacts⟩
      have hweights := (Weights.resolve_eq_ok hresolve).1
      obtain ⟨-, report, -, -, -, hreport, -⟩ :=
        hcomplete.exists_report Rounding.isMonotone_nearest hrange hresolve hweights
        (areWritable_builtIn hm (mapM_evaluate_eq hscore) bounds.most)
      obtain ⟨-, report', -, -, -, hreport', -⟩ :=
        hcomplete'.exists_report Rounding.isMonotone_nearest hrange' hresolve hweights
        (areWritable_builtIn hm (mapM_evaluate_eq hscore') bounds.most)
      exact ⟨report, report', hreport, hreport'⟩
    · refine aggregate_mono Rounding.isMonotone_nearest hcomplete hcomplete' hrange hrange' ?_
        hresolve
        (Weights.resolve_eq_ok hresolve).1
      intro s hs s' hs' hsame
      obtain ⟨c, -, rfl⟩ := List.mem_map.mp hs
      obtain ⟨c', -, rfl⟩ := List.mem_map.mp hs'
      rw [hcategory, hcategory'] at hsame
      rw [← hsame]
      exact hle c

/-- A line of 110 characters: it is too long for the default limits and not for looser ones. -/
theorem looser_limits_score_higher_line :
    let limits : Limits := {}
    let limits' : Limits := { lineLength := 120, leastCommitSubject := 5 }
    let facts : List Fact := [⟨Kind.lineLength, ⟨"a.py", .int 1, .int 1⟩, .int 110, ""⟩]
    limits.Loosens limits' ∧ Weights.resolve .nearest [] = .ok (Weights.withDefaults []) ∧
      (∃ s s',
        evaluate .nearest (.build facts ["a.py"] ".") (.builtIn .nearest limits) none .layout =
          .ok s ∧
        evaluate .nearest (.build facts ["a.py"] ".") (.builtIn .nearest limits') none .layout =
          .ok s' ∧
        s.rawScore.le s'.rawScore = true) ∧
      ∃ scores scores' report report',
        evaluateAll .nearest (.build facts ["a.py"] ".") (.builtIn .nearest limits) none
          (some 4) = .ok scores ∧
        evaluateAll .nearest (.build facts ["a.py"] ".") (.builtIn .nearest limits') none
          (some 4) = .ok scores' ∧
        aggregate .nearest scores [] {} = .ok report ∧
        aggregate .nearest scores' [] {} = .ok report' ∧
        report.overall.le report'.overall = true := by
  intro limits limits' facts
  have hloosens : limits.Loosens limits' := by constructor <;> decide
  have hresolve : Weights.resolve .nearest [] = .ok (Weights.withDefaults []) := by decide +kernel
  obtain ⟨hcategories, hall⟩ := looser_limits_score_higher hloosens facts ["a.py"] "." none
  refine ⟨hloosens, hresolve, ?_, ?_⟩
  · obtain ⟨-, s, s', hs, hs', -, -, hle⟩ := hcategories .layout
    exact ⟨s, s', hs, hs', hle⟩
  · obtain ⟨scores, scores', hscores, hscores', hreports⟩ := hall (some 4) (by rintro n ⟨⟩; decide)
    obtain ⟨hexist, hle⟩ := hreports [] _ {} hresolve
    obtain ⟨report, report', hreport, hreport'⟩ :=
      hexist (List.forall_mem_singleton.mpr ⟨"a.py:1", by decide +kernel⟩)
    exact ⟨scores, scores', report, report', hscores, hscores', hreport, hreport',
      hle report report' hreport hreport'⟩

end Scorecard
