import Scorecard.Proofs.Outcome

set_option autoImplicit false

/-! # Categories do not read each other's facts

What a category scores with the built-in rules depends on the facts of its own kinds only
(`category_noninterference`). A rule could look elsewhere in three ways: through the facts it asks
for, through the counters of the code base, and through the check that its findings lie in the code
base. The first two are settled by the form of its judgement, and the third has no effect on
built-in rules.
-/

namespace Scorecard

variable {facts facts' : List Fact} (files files' : List String) (root root' : String)

/-- A judgement gives the same on facts that agree on the kinds it looks at. -/
theorem JudgementForm.congr {ρ : Rounding} {id : String}
    {judge : FactModel → Except Fault RuleResult} {kinds : List String}
    (hform : JudgementForm ρ id judge kinds)
    (h : ∀ kind ∈ kinds, facts.filter (·.kind = kind) = facts'.filter (·.kind = kind)) :
    judge (.build facts files root) = judge (.build facts' files' root') := by
  cases hform with
  | ratio kind predicate selector advice =>
      have hkind := h kind (by simp)
      simp only [judgeRatio, FactModel.ofKind_build, hkind]
  | penalty kind appliesTo amount advice =>
      have hkind := h kind (by simp)
      have happliesTo := h appliesTo (by simp)
      simp only [judgePenalty, FactModel.ofKind_build, hkind, happliesTo]
  | presence kind advice =>
      have hkind := h kind (by simp)
      simp only [judgePresence, FactModel.ofKind_build, hkind]
  | testsPresent =>
      have htests := h Kind.testFile (by simp)
      simp only [judgeTestsPresent, FactModel.ofKind_build, FactModel.testFiles_build, htests]
  | testRatio =>
      have htests := h Kind.testFile (by simp)
      have hmodules := h Kind.moduleLength (by simp)
      simp only [judgeTestRatio, Counters.sourceFiles, FactModel.testFiles_build,
        FactModel.totalFiles_build, htests, hmodules]
  | logging =>
      have hlogged := h Kind.logCall (by simp)
      have hprinted := h Kind.printCall (by simp)
      simp only [judgeLogging, FactModel.ofKind_build, hlogged, hprinted]

/-- Facts that agree on some kinds agree on each of them. -/
theorem filter_kind_eq {kinds : List String}
    (h : facts.filter (·.kind ∈ kinds) = facts'.filter (·.kind ∈ kinds)) {kind : String}
    (hkind : kind ∈ kinds) : facts.filter (·.kind = kind) = facts'.filter (·.kind = kind) := by
  have hsplit :
      ∀ l : List Fact, (l.filter (·.kind ∈ kinds)).filter (·.kind = kind) =
        l.filter (·.kind = kind) := by
    intro l
    rw [List.filter_filter]
    refine List.filter_congr fun f _ => ?_
    by_cases hf : f.kind = kind
    · simp [hf, hkind]
    · simp [hf]
  rw [← hsplit facts, h, hsplit facts']

/-- A built-in rule runs the same on facts that agree on the kinds of its category. -/
theorem run_congr {limits : Limits} {rule : Rule} (hrule : rule ∈ Catalog.rules .nearest limits)
    (h : facts.filter (·.kind ∈ rule.category.kinds) =
      facts'.filter (·.kind ∈ rule.category.kinds)) :
    rule.run (.build facts files root) = rule.run (.build facts' files' root') := by
  obtain ⟨judge, kinds, hform⟩ := catalog_form .nearest limits rule hrule
  have hsame : judge (.build facts files root) = judge (.build facts' files' root') :=
    hform.form.congr files files' root root' fun kind hkind =>
      filter_kind_eq h (hform.kinds_mem kind hkind)
  have hjudged :
      rule.judge (.build facts files root) = rule.judge (.build facts' files' root') := by
    rw [judge_of_form hform, judge_of_form hform, hsame]
  rw [Rule.run, Rule.run, hjudged]

/-- **Noninterference.** On two code bases with the same facts of the kinds that a category is
about, the category has the same score, with the same outcomes and the same findings, whatever the
other facts, the files and the roots are. -/
theorem category_noninterference (c : Category) (limits : Limits) (active : Option (List String))
    (facts facts' : List Fact) (files files' : List String) (root root' : String)
    (h : facts.filter (·.kind ∈ c.kinds) = facts'.filter (·.kind ∈ c.kinds)) :
    let r := Registry.builtIn .nearest limits
    ∃ s, evaluate .nearest (.build facts files root) r active c = .ok s ∧
      evaluate .nearest (.build facts' files' root') r active c = .ok s ∧
      s.Reports c ((r.activeRules active c).map (·.run (.build facts files root))) := by
  intro r
  obtain ⟨s, hs, hreports⟩ :=
    Registry.exists_builtIn_score limits (.build facts files root) active c
  have hruns : (r.activeRules active c).map (·.run (.build facts files root)) =
      (r.activeRules active c).map (·.run (.build facts' files' root')) := by
    refine List.map_congr_left fun rule hrule => ?_
    obtain ⟨hin, rfl⟩ := Registry.mem_of_mem_activeRules hrule
    exact run_congr files files' root root' hin h
  refine ⟨s, hs, ?_, hreports⟩
  rw [Registry.evaluate_builtIn] at hs ⊢
  rw [← hruns]
  exact hs

/-- A test file and a module, beside facts about names in one code base, and about a log call and a
secret in the other. -/
theorem category_noninterference_testing :
    let tested : List Fact :=
      [⟨Kind.testFile, .ofFile "tests/test_a.py", .bool true, ""⟩,
        ⟨Kind.moduleLength, .ofFile "a.py", .int 900, ""⟩]
    let facts := ⟨Kind.functionName, .ofFile "a.py", .text "Run", ""⟩ :: tested
    let facts' :=
      tested ++ [⟨Kind.logCall, .ofFile "b.py", .bool true, ""⟩,
      ⟨Kind.hardcodedSecret, .codebase, .bool true, "key"⟩]
    let r := Registry.builtIn .nearest {}
    facts.filter (·.kind ∈ Category.testing.kinds) =
      facts'.filter (·.kind ∈ Category.testing.kinds) ∧
      ∃ s, evaluate .nearest (.build facts ["c.py"] "/one") r none .testing = .ok s ∧
        evaluate .nearest (.build facts' [] "/two") r none .testing = .ok s := by
  intro tested facts facts' r
  have hsame :
      facts.filter (·.kind ∈ Category.testing.kinds) =
        facts'.filter (·.kind ∈ Category.testing.kinds) := by
    decide +kernel
  obtain ⟨s, hs, hs', -⟩ :=
    category_noninterference .testing {} none facts facts' ["c.py"] [] "/one" "/two" hsame
  exact ⟨hsame, s, hs, hs'⟩

end Scorecard
