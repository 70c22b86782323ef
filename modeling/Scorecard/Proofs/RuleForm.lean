import Scorecard.Proofs.FactModel
import Scorecard.Proofs.BuiltIn
import Scorecard.Proofs.Except
import Scorecard.Proofs.Isolation

set_option autoImplicit false

/-! # Forms of the built-in rules

A built-in rule judges in one of six ways (`JudgementForm`, `catalog_form`), and its form says which
kinds of facts it looks at. What it finds is about one of the facts or about the code base as a
whole (`JudgementForm.exists_suggestion`). Hence no built-in rule is refused for a finding outside
the code base: a result counts if its score is finite (`judge_of_form`).
-/

namespace Scorecard

variable {id : String} {advice : Advice} {predicate : FactPredicate} {facts : List Fact}

/-! ## Passes over facts -/

/-- What a step gives for each of some facts, put together. The first step that fails ends the
pass. -/
def collect {α : Type} (step : Fact → Except Fault (List α)) : List Fact → Except Fault (List α)
  | [] => .ok []
  | f :: rest => do
    let part ← step f
    let more ← collect step rest
    return part ++ more

theorem selectFacts_eq_collect (selector : FactPredicate) (facts : List Fact) :
    selectFacts selector facts = collect
      (fun f => do return if ← selector f then [f] else []) facts := by
  induction facts with
  | nil => rfl
  | cons f rest ih =>
      rw [selectFacts, collect, ih]
      cases selector f with
      | error e => rfl
      | ok chosen => cases chosen <;> rfl

/-- The finding for a fact that does not comply. -/
def violationStep (id : String) (advice : Advice) (predicate : FactPredicate) (f : Fact) :
    Except Fault (List Finding) := do
  if ← predicate f then return []
  else return [← violation id advice f]

theorem violations_eq_collect (id : String) (advice : Advice) (predicate : FactPredicate)
    (facts : List Fact) :
    violations id advice predicate facts = collect (violationStep id advice predicate) facts := by
  induction facts with
  | nil => rfl
  | cons f rest ih =>
      rw [violations, collect, violationStep, ih]
      cases predicate f with
      | error e => rfl
      | ok complies =>
          cases complies with
          | false => cases violation id advice f <;> rfl
          | true => exact (bind_pure (collect (violationStep id advice predicate) rest)).symm

theorem mapM_violation_eq_collect (id : String) (advice : Advice) (facts : List Fact) :
    facts.mapM (violation id advice) = collect
      (fun f => do return [← violation id advice f]) facts := by
  induction facts with
  | nil => rfl
  | cons f rest ih =>
      rw [List.mapM_cons, collect, ih]
      cases violation id advice f <;> rfl

/-- A condition that can be decided for a fact. -/
def FactPredicate.Decides (predicate : FactPredicate) (f : Fact) : Prop :=
  ∃ holds, predicate f = .ok holds

/-- Facts are selected if the condition can be decided for all of them. -/
theorem selectFacts_eq_ok_iff {selector : FactPredicate} {facts selected : List Fact} :
    selectFacts selector facts = .ok selected ↔
      (∀ f ∈ facts, selector.Decides f) ∧ selected = facts.filter (selector · = .ok true) := by
  induction facts generalizing selected with
  | nil => simp [selectFacts, eq_comm]
  | cons f rest ih =>
      rw [List.forall_mem_cons, selectFacts]
      constructor
      · intro h
        obtain ⟨chosen, hchosen, h⟩ := bind_eq_ok_iff.mp h
        obtain ⟨more, hmore, h⟩ := bind_eq_ok_iff.mp h
        obtain ⟨hrest, rfl⟩ := ih.mp hmore
        cases h
        -- the filter decides on the first fact as the selector did
        refine ⟨⟨⟨chosen, hchosen⟩, hrest⟩, ?_⟩
        cases chosen <;> simp [hchosen]
      · rintro ⟨⟨⟨chosen, hchosen⟩, hrest⟩, rfl⟩
        refine bind_eq_ok_iff.mpr ⟨chosen, hchosen, bind_eq_ok_iff.mpr ⟨_, ih.mpr ⟨hrest, rfl⟩, ?_⟩⟩
        cases chosen <;> simp [hchosen, pure, Except.pure]

/-- Findings are made if it can be decided for all facts whether they comply: one for each fact that
does not, in their order. -/
theorem violations_eq_ok_iff {findings : List Finding} :
    violations id advice predicate facts = .ok findings ↔
      (∀ f ∈ facts, predicate.Decides f) ∧
        List.Forall₂ (fun f x => violation id advice f = .ok x)
          (facts.filter (predicate · = .ok false)) findings := by
  induction facts generalizing findings with
  | nil => simp [violations, eq_comm]
  | cons f rest ih =>
      rw [List.forall_mem_cons, violations]
      constructor
      · intro h
        obtain ⟨complies, hcomplies, h⟩ := bind_eq_ok_iff.mp h
        cases complies with
        | true =>
            obtain ⟨hrest, hfindings⟩ := ih.mp h
            refine ⟨⟨⟨true, hcomplies⟩, hrest⟩, ?_⟩
            rwa [List.filter_cons_of_neg (by simp [hcomplies])]
        | false =>
            obtain ⟨x, hx, h⟩ := bind_eq_ok_iff.mp h
            obtain ⟨more, hmore, h⟩ := bind_eq_ok_iff.mp h
            cases h
            obtain ⟨hrest, hfindings⟩ := ih.mp hmore
            refine ⟨⟨⟨false, hcomplies⟩, hrest⟩, ?_⟩
            rw [List.filter_cons_of_pos (by simp [hcomplies])]
            exact .cons hx hfindings
      · rintro ⟨⟨⟨complies, hcomplies⟩, hrest⟩, hfindings⟩
        refine bind_eq_ok_iff.mpr ⟨complies, hcomplies, ?_⟩
        cases complies with
        | true =>
            rw [List.filter_cons_of_neg (by simp [hcomplies])] at hfindings
            exact ih.mpr ⟨hrest, hfindings⟩
        | false =>
            rw [List.filter_cons_of_pos (by simp [hcomplies])] at hfindings
            cases hfindings with
            | cons hx hmore =>
                exact bind_eq_ok_iff.mpr ⟨_, hx, bind_eq_ok_iff.mpr ⟨_, ih.mpr ⟨hrest, hmore⟩, rfl⟩⟩

theorem length_violations_le {findings : List Finding}
    (h : violations id advice predicate facts = .ok findings) : findings.length ≤ facts.length := by
  rw [← (violations_eq_ok_iff.mp h).2.length_eq]
  exact List.length_filter_le _ _

/-! ## What a rule finds -/

/-- A finding that a rule makes about some facts: it asks for one thing, and it lies where one of
the facts was made or is about the code base as a whole. -/
def Finding.IsAbout (facts : List Fact) (id suggestion : String) (x : Finding) : Prop :=
  ∃ location message, x = findingFor id location message suggestion ∧
    (location = .codebase ∨ ∃ f ∈ facts, f.location = location)

theorem violation_isAbout {f : Fact} {x : Finding} (h : violation id advice f = .ok x)
    (hf : f ∈ facts) : x.IsAbout facts id advice.suggestion := by
  obtain ⟨message, -, h⟩ := bind_eq_ok_iff.mp h
  cases h
  exact ⟨f.location, message, rfl, Or.inr ⟨f, hf, rfl⟩⟩

theorem violations_isAbout {findings : List Finding}
    (h : violations id advice predicate facts = .ok findings) :
    ∀ x ∈ findings, x.IsAbout facts id advice.suggestion := by
  intro x hx
  obtain ⟨f, hf, hfound⟩ := exists_of_mem_forall₂ (violations_eq_ok_iff.mp h).2 hx
  exact violation_isAbout hfound (List.mem_filter.mp hf).1

theorem mapM_violation_isAbout {findings : List Finding}
    (h : facts.mapM (violation id advice) = .ok findings) :
    ∀ x ∈ findings, x.IsAbout facts id advice.suggestion := by
  intro x hx
  obtain ⟨f, hf, hfound⟩ := exists_of_mem_forall₂ (mapM_eq_ok_iff.mp h) hx
  exact violation_isAbout hfound hf

theorem Finding.IsAbout.mono {facts facts' : List Fact} (h : ∀ f ∈ facts, f ∈ facts')
    {id suggestion : String} {x : Finding} (hx : x.IsAbout facts id suggestion) :
    x.IsAbout facts' id suggestion := by
  obtain ⟨location, message, hx, hwhere⟩ := hx
  refine ⟨location, message, hx, hwhere.imp_right ?_⟩
  rintro ⟨f, hf, hlocation⟩
  exact ⟨f, h f hf, hlocation⟩

/-- What is about facts of a code base lies in it. -/
theorem Finding.IsAbout.contains_build {id suggestion : String} {x : Finding}
    (h : x.IsAbout facts id suggestion) {files : List String} {root : String} :
    (FactModel.build facts files root).contains x.location = true := by
  obtain ⟨location, message, rfl, rfl | ⟨f, hf, rfl⟩⟩ := h
  · rfl
  · exact FactModel.contains_build_of_mem files root hf

section Judgements

variable {ρ : Rounding} {kind : String} {m : FactModel} {res : RuleResult}

theorem judgeRatio_isAbout {predicate selector : FactPredicate}
    (h : judgeRatio ρ id kind predicate selector advice m = .ok res) :
    ∀ x ∈ res.findings, x.IsAbout (m.ofKind kind) id advice.suggestion := by
  intro x hx
  obtain ⟨selected, hselected, h⟩ := bind_eq_ok_iff.mp h
  obtain ⟨-, rfl⟩ := selectFacts_eq_ok_iff.mp hselected
  split at h
  · cases h
    cases hx
  · obtain ⟨findings, hfindings, h⟩ := bind_eq_ok_iff.mp h
    cases h
    exact (violations_isAbout hfindings x hx).mono fun f hf => (List.mem_filter.mp hf).1

theorem judgePenalty_isAbout {appliesTo : String} {amount : Number}
    (h : judgePenalty ρ id kind appliesTo amount advice m = .ok res) :
    ∀ x ∈ res.findings, x.IsAbout (m.ofKind kind) id advice.suggestion := by
  intro x hx
  unfold judgePenalty at h
  split at h
  · cases h
    cases hx
  · obtain ⟨findings, hfindings, h⟩ := bind_eq_ok_iff.mp h
    cases h
    exact (mapM_violation_isAbout hfindings x hx).mono fun f hf => (List.mem_filter.mp hf).1

theorem judgePresence_isAbout (h : judgePresence id kind advice m = .ok res) :
    ∀ x ∈ res.findings, x.IsAbout (m.ofKind kind) id advice.suggestion := by
  intro x hx
  unfold judgePresence at h
  split at h
  · cases h
    cases hx
  · rename_i first rest hfacts
    split at h
    · cases h
      cases hx
    · obtain ⟨y, hy, h⟩ := bind_eq_ok_iff.mp h
      cases h
      rw [List.mem_singleton.mp hx, hfacts]
      exact violation_isAbout hy List.mem_cons_self

/-- A judgement of the code base as a whole finds something about no fact. -/
theorem judgeTestsPresent_isAbout (h : judgeTestsPresent id m = .ok res) :
    ∀ x ∈ res.findings,
      x.IsAbout (m.ofKind Kind.testFile) id
      "Add a tests/ package with pytest modules for the public behavior." := by
  intro x hx
  simp only [judgeTestsPresent] at h
  split at h
  · cases h
    cases hx
  · split at h
    · cases h
      cases hx
    · cases h
      rw [List.mem_singleton.mp hx]
      exact ⟨_, _, rfl, Or.inl rfl⟩

/-- There is nothing to divide by without source modules, and the rule does not try. -/
theorem judgeTestRatio_of_nonpos (h : m.counters.sourceFiles ≤ 0) :
    judgeTestRatio ρ id m = .ok .notApplicable := by
  rw [judgeTestRatio, if_pos h]
  rfl

theorem judgeTestRatio_of_pos (h : 0 < m.counters.sourceFiles) :
    judgeTestRatio ρ id m = .ok (testRatioResult ρ id m.counters.testFiles m.counters.sourceFiles
      (.ratio ρ m.counters.testFiles m.counters.sourceFiles.natAbs)) := by
  rw [judgeTestRatio, if_neg (Int.not_le.mpr h), quotient, if_neg h.ne', Int.sign_eq_one_of_pos h,
    one_mul]
  rfl

theorem judgeTestRatio_cases (h : judgeTestRatio ρ id m = .ok res) :
    (m.counters.sourceFiles ≤ 0 ∧ res = .notApplicable) ∨ (0 < m.counters.sourceFiles ∧
      res = testRatioResult ρ id m.counters.testFiles m.counters.sourceFiles
        (.ratio ρ m.counters.testFiles m.counters.sourceFiles.natAbs)) := by
  by_cases hsources : m.counters.sourceFiles ≤ 0
  · rw [judgeTestRatio_of_nonpos hsources] at h
    exact Or.inl ⟨hsources, (Except.ok.inj h).symm⟩
  · rw [judgeTestRatio_of_pos (Int.not_le.mp hsources)] at h
    exact Or.inr ⟨Int.not_le.mp hsources, (Except.ok.inj h).symm⟩

theorem applicable_testRatioResult (ρ : Rounding) (id : String) (tests : Nat) (sources : Int)
    (ratio : Number) : (testRatioResult ρ id tests sources ratio).applicable = true := by
  unfold testRatioResult
  dsimp only
  split <;> rfl

theorem judgeTestRatio_isAbout (h : judgeTestRatio ρ id m = .ok res) :
    ∀ x ∈ res.findings,
      x.IsAbout (m.ofKind Kind.testFile) id "Add test modules for untested source modules." := by
  intro x hx
  rcases judgeTestRatio_cases h with ⟨-, rfl⟩ | ⟨-, rfl⟩
  · cases hx
  · unfold testRatioResult at hx
    dsimp only at hx
    split at hx
    · rw [List.mem_singleton.mp hx]
      exact ⟨_, _, rfl, Or.inl rfl⟩
    · cases hx

theorem judgeLogging_isAbout (h : judgeLogging ρ id m = .ok res) :
    ∀ x ∈ res.findings,
      x.IsAbout (m.ofKind Kind.printCall) id
      "Replace print() diagnostics with a module logger." := by
  intro x hx
  simp only [judgeLogging] at h
  split at h
  · cases h
    cases hx
  · cases h
    obtain ⟨f, hf, rfl⟩ := List.mem_map.mp hx
    exact ⟨_, _, rfl, Or.inr ⟨f, (List.mem_filter.mp hf).1, rfl⟩⟩

end Judgements

/-! ## The forms -/

variable {ρ : Rounding} {c : Category} {rule : Rule} {judge : FactModel → Except Fault RuleResult}

/-- The forms of judgements, with the kinds of facts that a judgement looks at. -/
inductive JudgementForm (ρ : Rounding) (id : String) :
    (FactModel → Except Fault RuleResult) → List String → Prop where
  | ratio (kind : String) (predicate selector : FactPredicate) (advice : Advice) :
      JudgementForm ρ id (judgeRatio ρ id kind predicate selector advice) [kind]
  | penalty (kind appliesTo : String) (amount : Number) (advice : Advice)
      (finite : amount.isFinite = true)
      (positive : 0 < amount.value) :
      JudgementForm ρ id (judgePenalty ρ id kind appliesTo amount advice) [kind, appliesTo]
  | presence (kind : String) (advice : Advice) :
      JudgementForm ρ id (judgePresence id kind advice) [kind]
  | testsPresent : JudgementForm ρ id (judgeTestsPresent id) [Kind.testFile]
  | testRatio : JudgementForm ρ id (judgeTestRatio ρ id) [Kind.testFile, Kind.moduleLength]
  | logging : JudgementForm ρ id (judgeLogging ρ id) [Kind.logCall, Kind.printCall]

/-- **What a judgement finds is about the facts of the model**, and it always asks for the same
thing. -/
theorem JudgementForm.exists_suggestion {kinds : List String}
    (hform : JudgementForm ρ id judge kinds) :
    ∃ suggestion, ∀ facts files root res, judge (.build facts files root) = .ok res →
      ∀ x ∈ res.findings, x.IsAbout facts id suggestion := by
  have hkind : ∀ {facts : List Fact} {files : List String} {root kind : String},
      ∀ f ∈ (FactModel.build facts files root).ofKind kind, f ∈ facts := by
    intro facts files root kind f hf
    rw [FactModel.ofKind_build] at hf
    exact (List.mem_filter.mp hf).1
  cases hform with
  | ratio kind predicate selector advice =>
      exact ⟨_, fun _ _ _ _ h x hx => (judgeRatio_isAbout h x hx).mono hkind⟩
  | penalty kind appliesTo amount advice =>
      exact ⟨_, fun _ _ _ _ h x hx => (judgePenalty_isAbout h x hx).mono hkind⟩
  | presence kind advice =>
      exact ⟨_, fun _ _ _ _ h x hx => (judgePresence_isAbout h x hx).mono hkind⟩
  | testsPresent => exact ⟨_, fun _ _ _ _ h x hx => (judgeTestsPresent_isAbout h x hx).mono hkind⟩
  | testRatio => exact ⟨_, fun _ _ _ _ h x hx => (judgeTestRatio_isAbout h x hx).mono hkind⟩
  | logging => exact ⟨_, fun _ _ _ _ h x hx => (judgeLogging_isAbout h x hx).mono hkind⟩

/-! ## The catalog -/

/-- The kinds of facts that a category is about. -/
def Category.kinds : Category → List String
  | layout => [Kind.lineLength, Kind.importGroupOrder, Kind.wildcardImport]
  | naming => [Kind.functionName, Kind.className, Kind.argumentName]
  | functionDesign =>
      [Kind.functionLength, Kind.docstringPresent, Kind.functionArgs, Kind.functionComplexity]
  | classDesign => [Kind.classDocstringPresent, Kind.classMethodCount, Kind.classBases]
  | errorHandling => [Kind.bareExcept, Kind.broadExcept, Kind.swallowedException]
  | configuration => [Kind.hardcodedSecret, Kind.globalStatement, Kind.moduleLength]
  | testing => [Kind.testFile, Kind.moduleLength, Kind.testName, Kind.testAssertions]
  | logging => [Kind.logCall, Kind.printCall, Kind.loggerDefinition, Kind.eagerLogFormat]
  | performance => [Kind.rangeLenLoop, Kind.loopDepth, Kind.loopStringConcat]
  | versionControl => [Kind.gitignorePresent, Kind.commitMessage, Kind.trackedArtifact]

variable {kinds : List String}

/-- A rule whose judgement has a form, and looks only at facts that its category is about. -/
structure Rule.HasForm (ρ : Rounding) (rule : Rule) (judge : FactModel → Except Fault RuleResult)
    (kinds : List String) : Prop where
  rule_eq : rule = .of rule.id rule.category rule.weight rule.description judge
  form : JudgementForm ρ rule.id judge kinds
  kinds_mem : ∀ kind ∈ kinds, kind ∈ rule.category.kinds

/-- A rule made from a judgement gives what the judgement gives. -/
theorem evaluate_of_eq_result_iff {weight : Number} {description : String} {m : FactModel}
    {res : RuleResult} :
    (Rule.of id c weight description judge).evaluate m = .result res ↔ judge m = .ok res := by
  simp only [Rule.of]
  cases judge m with
  | error f => simp
  | ok res' => simp

theorem Rule.HasForm.evaluate_eq_result_iff (hform : rule.HasForm ρ judge kinds) {m : FactModel}
    {res : RuleResult} : rule.evaluate m = .result res ↔ judge m = .ok res := by
  have hevaluate := congrArg (fun r : Rule => r.evaluate m) hform.rule_eq
  rw [hevaluate]
  exact evaluate_of_eq_result_iff

theorem hasForm_of {weight : Number} {description : String} (hform : JudgementForm ρ id judge kinds)
    (h : ∀ kind ∈ kinds, kind ∈ c.kinds) :
    ∃ judge' kinds', (Rule.of id c weight description judge).HasForm ρ judge' kinds' :=
  ⟨judge, kinds, rfl, hform, h⟩

theorem hasForm_ratio {weight : Nat} {description kind : String} {predicate : FactPredicate}
    {message suggestion : String} {selector : FactPredicate} (h : kind ∈ c.kinds) :
    ∃ judge kinds,
      (Catalog.ratio ρ id c weight description kind predicate message suggestion selector).HasForm ρ
      judge kinds :=
  hasForm_of (.ratio kind predicate selector ⟨message, suggestion⟩) (by simpa using h)

theorem hasForm_penalty {weight : Nat} {description kind : String} {amount : Nat}
    {message suggestion : String} (h : kind ∈ c.kinds) (hmodules : Kind.moduleLength ∈ c.kinds)
    (hamount : (Catalog.hundredths amount).isFinite = true ∧
      0 < (Catalog.hundredths amount).value) :
    ∃ judge kinds,
      (Catalog.penalty ρ id c weight description kind amount message suggestion).HasForm ρ judge
      kinds :=
  hasForm_of (.penalty kind Kind.moduleLength (Catalog.hundredths amount)
    ⟨message, suggestion⟩ hamount.1 hamount.2)
    (by simpa using ⟨h, hmodules⟩)

theorem hasForm_presence {weight : Nat} {description kind : String} {message suggestion : String}
    (h : kind ∈ c.kinds) :
    ∃ judge kinds,
      (Catalog.presence id c weight description kind message suggestion).HasForm ρ judge kinds :=
  hasForm_of (.presence kind ⟨message, suggestion⟩) (by simpa using h)

/-- **Every built-in rule has a form**, whatever the limits are. -/
theorem catalog_form (ρ : Rounding) (limits : Limits) :
    ∀ rule ∈ Catalog.rules ρ limits, ∃ judge kinds, rule.HasForm ρ judge kinds := by
  -- one case for each category, with its rules in the order of the catalog
  simp only [Catalog.rules, List.forall_mem_append]
  refine ⟨⟨⟨⟨⟨⟨⟨⟨⟨?layout, ?naming⟩, ?functionDesign⟩, ?classDesign⟩, ?errorHandling⟩,
    ?configuration⟩, ?testing⟩, ?logging⟩, ?performance⟩, ?versionControl⟩
  case layout =>
      simp only [Catalog.layout, List.forall_mem_cons]
      exact ⟨hasForm_ratio (by decide), hasForm_ratio (by decide),
        hasForm_ratio (by decide), by simp⟩
  case naming =>
      simp only [Catalog.naming, List.forall_mem_cons]
      exact ⟨hasForm_ratio (by decide), hasForm_ratio (by decide), hasForm_ratio (by decide),
        hasForm_ratio (by decide), by simp⟩
  case functionDesign =>
      simp only [Catalog.functionDesign, List.forall_mem_cons]
      exact ⟨hasForm_ratio (by decide), hasForm_ratio (by decide), hasForm_ratio (by decide),
        hasForm_ratio (by decide), by simp⟩
  case classDesign =>
      simp only [Catalog.classDesign, List.forall_mem_cons]
      exact ⟨hasForm_ratio (by decide), hasForm_ratio (by decide),
        hasForm_ratio (by decide), by simp⟩
  case errorHandling =>
      simp only [Catalog.errorHandling, List.forall_mem_cons]
      exact ⟨hasForm_ratio (by decide), hasForm_ratio (by decide),
        hasForm_ratio (by decide), by simp⟩
  case configuration =>
      simp only [Catalog.configuration, List.forall_mem_cons]
      exact ⟨hasForm_penalty (by decide) (by decide) (by decide +kernel),
        hasForm_penalty (by decide) (by decide) (by decide +kernel),
        hasForm_ratio (by decide), by simp⟩
  case testing =>
      simp only [Catalog.testing, List.forall_mem_cons]
      exact ⟨hasForm_of .testsPresent (by decide), hasForm_of .testRatio (by decide),
        hasForm_ratio (by decide), hasForm_ratio (by decide), by simp⟩
  case logging =>
      simp only [Catalog.logging, List.forall_mem_cons]
      exact ⟨hasForm_of .logging (by decide), hasForm_ratio (by decide),
        hasForm_ratio (by decide), by simp⟩
  case performance =>
      simp only [Catalog.performance, List.forall_mem_cons]
      exact ⟨hasForm_ratio (by decide), hasForm_ratio (by decide),
        hasForm_ratio (by decide), by simp⟩
  case versionControl =>
      simp only [Catalog.versionControl, List.forall_mem_cons]
      exact ⟨hasForm_presence (by decide), hasForm_ratio (by decide),
        hasForm_ratio (by decide), by simp⟩

/-! ## What counts -/

/-- A result counts if its score is finite. -/
def RuleResult.finite? (res : RuleResult) : Except Fault RuleResult :=
  if res.score.isFinite then .ok res
  else .error ⟨"ValueError", "score " ++ res.score.text ++ " is not a finite number"⟩

/-- **No finding of a built-in rule lies outside the code base**, so nothing but the score of a
result can be refused. -/
theorem judge_of_form (hform : rule.HasForm ρ judge kinds) (facts : List Fact) (files : List String)
    (root : String) :
    rule.judge (.build facts files root) = judge
      (.build facts files root) >>= RuleResult.finite? := by
  obtain ⟨suggestion, habout⟩ := hform.form.exists_suggestion
  have hevaluate := congrArg (fun r : Rule => r.evaluate (.build facts files root)) hform.rule_eq
  simp only [Rule.of] at hevaluate
  rw [Rule.judge, hevaluate]
  cases hres : judge (.build facts files root) with
  | error f => rfl
  | ok res =>
      have hinside :
          (res.findings.find? fun x => !(FactModel.build facts files root).contains x.location) =
            none := by
        rw [List.find?_eq_none]
        intro x hx
        simp [(habout facts files root res hres x hx).contains_build]
      change _ = RuleResult.finite? res
      simp only [RuleResult.check, resultFault, hinside, RuleResult.finite?]
      cases res.score.isFinite <;> rfl

/-- A built-in rule gives a result or raises something with a message. -/
theorem Rule.HasForm.result_or_raised (hform : rule.HasForm ρ judge kinds) (m : FactModel) :
    (∃ res, rule.evaluate m = .result res) ∨ ∃ f, rule.evaluate m = .raised f := by
  have hevaluate := congrArg (fun r : Rule => r.evaluate m) hform.rule_eq
  simp only [Rule.of] at hevaluate
  cases hjudge : judge m with
  | ok res =>
      rw [hjudge] at hevaluate
      exact Or.inl ⟨res, hevaluate⟩
  | error f =>
      rw [hjudge] at hevaluate
      exact Or.inr ⟨f, hevaluate⟩

theorem Rule.HasForm.result_of_returns (hform : rule.HasForm ρ judge kinds) {m : FactModel}
    {res : RuleResult} (h : rule.Returns m res) : rule.evaluate m = .result res := by
  rcases h with hres | ⟨f, hf⟩
  · exact hres
  · rcases hform.result_or_raised m with ⟨_, hother⟩ | ⟨_, hother⟩ <;> cases hf.symm.trans hother

theorem Rule.HasForm.isContained (hform : rule.HasForm ρ judge kinds) (m : FactModel) :
    rule.IsContained m := by
  rcases hform.result_or_raised m with ⟨res, hres⟩ | ⟨f, hf⟩
  · exact isContained_of_result hres
  · exact isContained_of_raised hf

/-- **Nothing that a built-in rule does leaves the evaluation.** -/
theorem catalog_isContained {limits : Limits} (h : rule ∈ Catalog.rules ρ limits) (m : FactModel) :
    rule.IsContained m := by
  obtain ⟨judge, kinds, hform⟩ := catalog_form ρ limits rule h
  exact hform.isContained m

/-- What a built-in rule contributes lies where a fact was made or is about the code base. -/
theorem run_located {limits : Limits} (h : rule ∈ Catalog.rules ρ limits) (facts : List Fact)
    (files : List String) (root : String) :
    ∀ x ∈ (rule.run (.build facts files root)).findings,
      x.location = .codebase ∨ ∃ f ∈ facts, f.location = x.location := by
  obtain ⟨judge, kinds, hform⟩ := catalog_form ρ limits rule h
  obtain ⟨suggestion, habout⟩ := hform.form.exists_suggestion
  intro x hx
  unfold Rule.run at hx
  split at hx
  · rename_i res hjudge
    rw [judge_of_form hform] at hjudge
    obtain ⟨given, hgiven, hfinite⟩ := bind_eq_ok_iff.mp hjudge
    obtain ⟨-, rfl⟩ := ite_ok_eq_ok_iff.mp hfinite
    split at hx
    · obtain ⟨location, message, rfl, hwhere⟩ := habout facts files root _ hgiven x hx
      exact hwhere
    · cases hx
  · cases List.mem_singleton.mp hx
    exact Or.inl rfl

end Scorecard
