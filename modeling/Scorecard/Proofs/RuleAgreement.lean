import Scorecard.Proofs.PerfectScore
import Scorecard.Proofs.RuleScores
import Scorecard.Proofs.RuleTotality

set_option autoImplicit false

/-! # Findings agree with scores

A result of a built-in rule does not contradict itself (`RuleResult.Agrees`): where the rule does
not apply it has nothing to say, and where it applies it finds something exactly if its score is
below one. A rule on shares finds one thing for each fact that it selects and that does not comply,
and its score counts the others (`RuleResult.IsShare`). A rule that takes penalties never scores
higher if one more fact is flagged (`judgePenalty_antitone`). All this is in exact arithmetic
(`builtIn_findings_agree`).
-/

namespace Scorecard

variable {ρ : Rounding} {kind : String} {rule : Rule} {m : FactModel} {res : RuleResult}

/-! ## Results that agree with themselves -/

/-- A result of the rule `id` on facts of a kind whose parts say the same. -/
structure RuleResult.Agrees (res : RuleResult) (id : String) (m : FactModel) (kind : String) :
    Prop where
  of_not_applicable : res.applicable = false → res.score = .finite 1 ∧ res.findings = []
  within : res.applicable = true → res.score.Within 0 1
  found_iff : res.applicable = true → (res.findings ≠ [] ↔ res.score.lt (.finite 1) = true)
  named : ∀ x ∈ res.findings, x.ruleId = id ∧ x.kind = id
  suggests : ∀ x ∈ res.findings, x.suggestion ≠ ""
  /-- A finding lies in the code base, where a fact of the kind was made, or it is about the code
  base as a whole. -/
  located : ∀ x ∈ res.findings, m.contains x.location = true ∧
    (x.location = .codebase ∨ ∃ f ∈ m.ofKind kind, f.location = x.location)

/-- What a built-in rule finds is about facts of its kind, and it has something to suggest. -/
theorem Rule.Reads.isAbout {type : ValueType} (h : rule.Reads ρ kind type)
    (hres : rule.evaluate m = .result res) :
    ∃ suggestion, suggestion ≠ "" ∧
      ∀ x ∈ res.findings, x.IsAbout (m.ofKind kind) rule.id suggestion := by
  cases h with
  | ratio listed judges writes suggests =>
      exact ⟨_, suggests, judgeRatio_isAbout (evaluate_of_eq_result_iff.mp hres)⟩
  | penalty listed range writes suggests =>
      exact ⟨_, suggests, judgePenalty_isAbout (evaluate_of_eq_result_iff.mp hres)⟩
  | presence listed writes suggests =>
      exact ⟨_, suggests, judgePresence_isAbout (evaluate_of_eq_result_iff.mp hres)⟩
  | testsPresent listed =>
      exact ⟨_, by decide, judgeTestsPresent_isAbout (evaluate_of_eq_result_iff.mp hres)⟩
  | testRatio listed =>
      exact ⟨_, by decide, judgeTestRatio_isAbout (evaluate_of_eq_result_iff.mp hres)⟩
  | logging listed => exact ⟨_, by decide, judgeLogging_isAbout (evaluate_of_eq_result_iff.mp hres)⟩

/-- **Every result of a built-in rule agrees with itself.** -/
theorem Rule.Reads.agrees {type : ValueType} (h : rule.Reads .exact kind type)
    {judge : FactModel → Except Fault RuleResult} {kinds : List String}
    (hform : rule.HasForm .exact judge kinds) {facts : List Fact} {files : List String}
    {root : String} (hres : rule.evaluate (.build facts files root) = .result res) :
    res.Agrees rule.id (.build facts files root) kind := by
  have hjudge := hform.evaluate_eq_result_iff.mp hres
  have hfair := hform.form.isFair hjudge
  obtain ⟨suggestion, hsuggests, habout⟩ := h.isAbout hres
  -- that the score fits the findings is fairness, where and what they are is the form of the rule
  refine ⟨?_, ?_, ?_, ?_, ?_, ?_⟩
  · intro happ
    obtain rfl := hform.form.eq_notApplicable hjudge happ
    exact ⟨rfl, rfl⟩
  · intro happ
    exact ⟨hfair.isFinite happ, hfair.nonneg happ, hfair.le_one happ⟩
  · intro happ
    rw [Number.lt_iff_value_lt (hfair.isFinite happ) rfl, Ne, ← hfair.one_iff happ]
    exact ⟨lt_of_le_of_ne (hfair.le_one happ), fun hlt hone => hlt.ne hone⟩
  · intro x hx
    obtain ⟨location, message, rfl, -⟩ := habout x hx
    exact ⟨rfl, rfl⟩
  · intro x hx
    obtain ⟨location, message, rfl, -⟩ := habout x hx
    exact hsuggests
  · intro x hx
    have hmem : ∀ f ∈ (FactModel.build facts files root).ofKind kind, f ∈ facts := by
      intro f hf
      rw [FactModel.ofKind_build] at hf
      exact (List.mem_filter.mp hf).1
    refine ⟨((habout x hx).mono hmem).contains_build, ?_⟩
    obtain ⟨location, message, rfl, hwhere⟩ := habout x hx
    exact hwhere

/-! ## Shares -/

/-- A result about the share of the selected facts that comply: it applies if some fact is selected,
it has one finding for each selected fact that does not comply, in their order, and the score counts
the others. -/
structure RuleResult.IsShare (res : RuleResult) (id : String) (advice : Advice)
    (predicate : FactPredicate) (selected : List Fact) : Prop where
  applicable_iff : res.applicable = true ↔ selected ≠ []
  decides : ∀ f ∈ selected, predicate.Decides f
  findings :
      List.Forall₂ (fun f x => violation id advice f = .ok x)
        (selected.filter (predicate · = .ok false)) res.findings
  counts : res.score.value * selected.length = selected.length - res.findings.length

theorem isShare_notApplicable (id : String) (advice : Advice) (predicate : FactPredicate) :
    RuleResult.notApplicable.IsShare id advice predicate [] :=
  ⟨by simp [RuleResult.notApplicable], List.forall_mem_nil _,
    .nil, by simp [RuleResult.notApplicable]⟩

theorem judgeRatio_isShare {id kind : String} {predicate selector : FactPredicate} {advice : Advice}
    (h : judgeRatio .exact id kind predicate selector advice m = .ok res) :
    res.IsShare id advice predicate ((m.ofKind kind).filter (selector · = .ok true)) := by
  obtain ⟨selected, hselected, h⟩ := bind_eq_ok_iff.mp h
  obtain ⟨-, rfl⟩ := selectFacts_eq_ok_iff.mp hselected
  set selected := (m.ofKind kind).filter (selector · = .ok true)
  by_cases hempty : selected = []
  · -- nothing is selected, so there is nothing to find and nothing to count
    rw [if_pos (List.isEmpty_iff.mpr hempty)] at h
    cases h
    rw [hempty]
    exact isShare_notApplicable id advice predicate
  · rw [if_neg fun h => hempty (List.isEmpty_iff.mp h)] at h
    obtain ⟨findings, hfindings, h⟩ := bind_eq_ok_iff.mp h
    cases h
    obtain ⟨hdecides, hfound⟩ := violations_eq_ok_iff.mp hfindings
    refine ⟨by simpa using hempty, hdecides, hfound, ?_⟩
    have hlength : (selected.length : ℚ) ≠ 0 := by
      rw [Nat.cast_ne_zero, Ne, List.length_eq_zero_iff]
      exact hempty
    rw [Number.ratio_exact]
    calc (((selected.length : ℤ) - findings.length : ℤ) : ℚ) / selected.length * selected.length
        = (((selected.length : ℤ) - findings.length : ℤ) : ℚ) := div_mul_cancel₀ _ hlength
      _ = selected.length - findings.length := by push_cast; rfl

/-! ## Penalties -/

/-- **More penalties never raise the score.** -/
theorem judgePenalty_antitone {id kind appliesTo : String} {amount : Number}
    (hfinite : amount.isFinite = true) (hnonneg : 0 ≤ amount.value) {advice : Advice}
    {m m' : FactModel} {res res' : RuleResult}
    (hmore : ((m.ofKind kind).filter (·.isTrue)).length ≤
      ((m'.ofKind kind).filter (·.isTrue)).length)
    (h : judgePenalty .exact id kind appliesTo amount advice m = .ok res)
    (h' : judgePenalty .exact id kind appliesTo amount advice m' = .ok res') :
    res'.score.le res.score = true := by
  rw [judgePenalty_score hfinite h, judgePenalty_score hfinite h', Number.le_iff_value_le rfl rfl]
  show max 0 _ ≤ max 0 _
  have hmore' :
      (((m.ofKind kind).filter (·.isTrue)).length : ℚ) ≤
        ((m'.ofKind kind).filter (·.isTrue)).length := by
    exact_mod_cast hmore
  gcongr

theorem exists_judgePenalty {id kind appliesTo : String} {amount : Number} {advice : Advice}
    (hmessage : IsMessage advice.message) (m : FactModel) :
    ∃ res, judgePenalty ρ id kind appliesTo amount advice m = .ok res := by
  unfold judgePenalty
  split
  · exact ⟨_, rfl⟩
  · obtain ⟨findings, hfindings⟩ :=
      exists_mapM_violation hmessage id ((m.ofKind kind).filter (·.isTrue))
    exact ⟨_, bind_eq_ok_iff.mpr ⟨findings, hfindings, rfl⟩⟩

/-! ## The built-in rules -/

namespace Catalog

theorem not_share : ∀ row ∈ penalties ++ others, row ∉ shares := by decide +kernel

theorem not_penalty : ∀ row ∈ shares ++ others, row ∉ penalties := by decide +kernel

end Catalog

section Forms

variable {type : ValueType} (h : rule.Reads .exact kind type)
include h

/-- A rule that is listed among those on shares is one. -/
theorem Rule.Reads.isShare (hlisted : (rule.id, kind) ∈ Catalog.shares)
    (hres : rule.evaluate m = .result res) :
    ∃ c weight description predicate message suggestion selector,
      rule = Catalog.ratio .exact rule.id c weight description kind predicate message suggestion
        selector ∧
        res.IsShare rule.id ⟨message, suggestion⟩ predicate
          ((m.ofKind kind).filter (selector · = .ok true)) := by
  cases h with
  | ratio listed judges writes suggests =>
      exact ⟨_, _, _, _, _, _, _, rfl, judgeRatio_isShare (evaluate_of_eq_result_iff.mp hres)⟩
  | penalty listed range writes suggests =>
      exact absurd hlisted (Catalog.not_share _ (List.mem_append_left _ listed))
  | presence listed writes suggests =>
      exact absurd hlisted (Catalog.not_share _ (List.mem_append_right _ listed))
  | testsPresent listed =>
      exact absurd hlisted (Catalog.not_share _ (List.mem_append_right _ listed))
  | testRatio listed => exact absurd hlisted (Catalog.not_share _ (List.mem_append_right _ listed))
  | logging listed => exact absurd hlisted (Catalog.not_share _ (List.mem_append_right _ listed))

/-- A rule that is listed among those that take penalties scores no higher with one more fact,
flagged or not. -/
theorem Rule.Reads.antitone (hlisted : (rule.id, kind) ∈ Catalog.penalties)
    {before later : List Fact} {f : Fact} {files : List String} {root : String}
    (hres : rule.evaluate (.build (before ++ later) files root) = .result res) :
    ∃ res', rule.evaluate (.build (before ++ f :: later) files root) = .result res' ∧
      res'.score.le res.score = true := by
  cases h with
  | ratio listed judges writes suggests =>
      exact absurd hlisted (Catalog.not_penalty _ (List.mem_append_left _ listed))
  | @penalty id c weight description kind message suggestion amount listed range writes suggests =>
      have hwrites : IsMessage (Advice.mk message suggestion).message := writes
      obtain ⟨res', hres'⟩ := exists_judgePenalty hwrites (.build (before ++ f :: later) files root)
      refine ⟨res', evaluate_of_eq_result_iff.mpr hres', ?_⟩
      refine judgePenalty_antitone range.1 range.2.1 ?_ (evaluate_of_eq_result_iff.mp hres) hres'
      rw [FactModel.ofKind_build, FactModel.ofKind_build]
      have hsublist : (before ++ later).Sublist (before ++ f :: later) :=
        (List.sublist_cons_self f later).append_left before
      exact ((hsublist.filter _).filter _).length_le
  | presence listed writes suggests =>
      exact absurd hlisted (Catalog.not_penalty _ (List.mem_append_right _ listed))
  | testsPresent listed =>
      exact absurd hlisted (Catalog.not_penalty _ (List.mem_append_right _ listed))
  | testRatio listed =>
      exact absurd hlisted (Catalog.not_penalty _ (List.mem_append_right _ listed))
  | logging listed => exact absurd hlisted (Catalog.not_penalty _ (List.mem_append_right _ listed))

end Forms

/-- **Findings and scores of the built-in rules agree.** On any code base and under any limits, a
built-in rule that gives a result either does not apply, with a score of one and nothing found, or
has a score from zero to one that is below one exactly if something was found. All findings name the
rule, suggest something and lie where a fact of its kind was made, or are about the code base as a
whole. A rule on shares finds one thing for each selected fact that does not comply, in the order of
the facts, and its score counts the others. A rule that takes penalties scores no higher with one
more fact. -/
theorem builtIn_findings_agree (limits : Limits) (facts : List Fact) (files : List String)
    (root id : String) (rule : Rule) (res : RuleResult)
    (hrule : (Registry.builtIn .exact limits).get? id = some rule)
    (hres : rule.evaluate (.build facts files root) = .result res) :
    ∃ kind, (id, kind) ∈ Catalog.kinds ∧ res.Agrees id (.build facts files root) kind ∧
      ((id, kind) ∈ Catalog.shares → ∃ c weight description predicate message suggestion selector,
        rule = Catalog.ratio .exact id c weight description kind predicate message suggestion
          selector ∧
          res.IsShare id ⟨message, suggestion⟩ predicate
            ((facts.filter (·.kind = kind)).filter (selector · = .ok true))) ∧
      ((id, kind) ∈ Catalog.penalties → ∀ before later f, facts = before ++ later →
        ∃ res', rule.evaluate (.build (before ++ f :: later) files root) = .result res' ∧
          res'.score.le res.score = true) := by
  obtain ⟨hmem, rfl⟩ := (Registry.builtIn_exact_holds limits).get?_eq_some_iff.mp hrule
  obtain ⟨judge, kinds, hform⟩ := catalog_form .exact limits rule hmem
  obtain ⟨kind, type, -, hreads⟩ := catalog_reads .exact limits rule hmem
  refine ⟨kind, hreads.mem_kinds, hreads.agrees hform hres, ?_, ?_⟩
  · intro hlisted
    rw [← FactModel.ofKind_build facts files root kind]
    exact hreads.isShare hlisted hres
  · rintro hlisted before later f rfl
    exact hreads.antitone hlisted hres

/-- One credential in the code leaves half of the score, with a finding, and a second one leaves no
more. -/
theorem builtIn_findings_agree_secrets :
    let secret : Fact :=
      { kind := Kind.hardcodedSecret, location := ⟨"a.py", .int 3, .int 3⟩
        value := .bool true, subject := "token" }
    let rule := Catalog.penalty .exact "configuration.hardcoded_secrets" .configuration 40
      "Credentials come from configuration, not string literals." Kind.hardcodedSecret 50
      "'\x7bsubject\x7d' is assigned a hardcoded credential."
        "Load secrets from environment variables or a config file."
    let res : RuleResult :=
      { score := .finite (1 / 2)
        findings :=
          [findingFor "configuration.hardcoded_secrets"
          ⟨"a.py", .int 3, .int 3⟩ "'token' is assigned a hardcoded credential."
          "Load secrets from environment variables or a config file."] }
    (Registry.builtIn .exact {}).get? "configuration.hardcoded_secrets" = some rule ∧
      rule.evaluate (.build [secret] ["a.py"] ".") = .result res ∧
      (res.findings ≠ [] ↔ res.score.lt (.finite 1) = true) ∧
      ∃ res', rule.evaluate (.build [secret, secret] ["a.py"] ".") = .result res' ∧
        res'.score.le res.score = true := by
  intro secret rule res
  have hrule : (Registry.builtIn .exact {}).get? "configuration.hardcoded_secrets" = some rule := by
    refine (Registry.builtIn_exact_holds {}).get?_eq_some_iff.mpr ⟨?_, rfl⟩
    have hmem : rule ∈ Catalog.configuration .exact {} := List.mem_cons_self
    simp only [Catalog.rules, List.mem_append]
    tauto
  have hres : rule.evaluate (.build [secret] ["a.py"] ".") = .result res :=
    evaluate_of_eq_result_iff.mpr (by decide +kernel)
  obtain ⟨kind, hkind, hagrees, -, hpenalty⟩ :=
    builtIn_findings_agree {} [secret] ["a.py"] "." "configuration.hardcoded_secrets" rule res
      hrule hres
  -- the kind is unique, so the one that the theorem speaks of is this one
  have hsecret : ∀ row ∈ Catalog.kinds, row.1 = "configuration.hardcoded_secrets" →
      row.2 = Kind.hardcodedSecret := by
    decide +kernel
  obtain rfl : kind = Kind.hardcodedSecret := hsecret _ hkind rfl
  exact ⟨hrule, hres, hagrees.found_iff rfl, hpenalty (by simp [Catalog.penalties]) [secret]
    [] secret rfl⟩

end Scorecard
