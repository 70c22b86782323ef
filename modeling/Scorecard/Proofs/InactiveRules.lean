import Scorecard.Proofs.LocatedFindings

set_option autoImplicit false

/-! # Rules that leave no trace

A rule that is not active is as good as not registered: the rules that are active can be registered
by themselves, and the category scores the same (`Registry.evaluate_subset`). A rule that is active
but does not apply has an outcome, and that is all that is lost without it (`scoreOfRuns_without`).
Both together are `inactive_rules_leave_no_trace`.
-/

namespace Scorecard

namespace Registry

/-! ## Registering fewer rules -/

theorem fits_append (ρ : Rounding) (ws : List Number) (w total : Number) :
    fits ρ total (ws ++ [w]) = (fits ρ total ws &&
      !Number.lt (Number.add ρ (.finite 1) weightTolerance)
        (Number.add ρ (ws.foldl (Number.add ρ) total) w)) := by
  induction ws generalizing total with
  | nil => simp [fits]
  | cons v rest ih => rw [List.cons_append, fits, fits, ih, List.foldl_cons, Bool.and_assoc]

/-- The weights of the rules in a registry fit, since each of them did when it was registered. -/
theorem fits_afterAll (ρ : Rounding) (calls : List Call) {r : Registry}
    (h : ∀ c, fits ρ (.finite 0) ((r.rulesFor c).map (·.weight)) = true) (c : Category) :
    fits ρ (.finite 0) (((r.afterAll ρ calls).rulesFor c).map (·.weight)) = true := by
  induction calls generalizing r with
  | nil => exact h c
  | cons call rest ih =>
      refine ih fun c => ?_
      rcases perform_cases ρ call r with ⟨-, hsame, -⟩ | ⟨rule, -, haccepts, hadd, -⟩ | ⟨-, -,
        hfreeze, -⟩
      · rw [hsame]
        exact h c
      · rw [hadd, rulesFor_added]
        by_cases hc : c = rule.category
        · -- the sum that was compared with the bound is the one that `fits` asks for
          subst hc
          have hbelow := haccepts.fits
          rw [if_pos rfl, List.map_append, List.map_singleton, fits_append, h, Bool.true_and,
            Bool.not_eq_true']
          exact hbelow
        · rw [if_neg hc]
          exact h c
      · rw [hfreeze]
        exact h c

/-- Fewer weights on top of a lower sum fit as well. -/
theorem fits_of_sublist {ρ : Rounding} (hρ : ρ.IsMonotone) {vs ws : List Number} (h : vs.Sublist ws)
    (hws : ∀ w ∈ ws, w.IsAmount ρ) {low total : Number} (hle : low.RisesTo ρ total)
    (hfits : fits ρ total ws = true) : fits ρ low vs = true := by
  induction h generalizing low total with
  | slnil => rfl
  | @cons vs ws w _ ih =>
      rw [fits, Bool.and_eq_true] at hfits
      have hw := hws w List.mem_cons_self
      -- without the weight, the gap between the two sums grows
      have hmore : low.RisesTo ρ (Number.add ρ total w) :=
        ⟨hle.left, Number.isAmount_add hρ hle.right hw,
          Number.le_trans hle.le (Number.le_add_right hρ hle.right hw)⟩
      exact ih (fun v hv => hws v (List.mem_cons_of_mem _ hv)) hmore hfits.2
  | @cons_cons vs ws w _ ih =>
      rw [fits, Bool.and_eq_true, Bool.not_eq_true'] at hfits
      have hw := hws w List.mem_cons_self
      have hsum : (Number.add ρ low w).RisesTo ρ (Number.add ρ total w) :=
        hle.add hρ ⟨hw, hw, Number.le_self hw.1.ne_nan⟩
      rw [fits, Bool.and_eq_true, Bool.not_eq_true']
      refine ⟨?_, ih (fun v hv => hws v (List.mem_cons_of_mem _ hv)) hsum hfits.2⟩
      -- if the lower sum were too large, so would be the higher one
      by_contra hover
      have hover' := Number.lt_of_lt_of_le (Bool.of_not_eq_false hover) hsum.le
      rw [hfits.1] at hover'
      cases hover'

section Subsets

variable {ρ : Rounding} (hρ : ρ.IsMonotone) {calls : List Call}
  (hkept : ∀ rule, Call.register rule ∈ calls → rule.weight.KeptBy ρ)
include hρ hkept

/-- Some of the rules of a category can be registered without the others. -/
theorem exists_registerAll_filter (c : Category) (p : Rule → Bool) :
    ∃ r, registerAll ρ (((empty.afterAll ρ calls).rulesFor c).filter p) empty = .ok () r := by
  have hholds := holds_afterAll ρ calls
  have hweight : ∀ rule ∈ (empty.afterAll ρ calls).rulesFor c,
      Call.register rule ∈ calls ∧ Number.lt (.finite 0) rule.weight = true ∧
        rule.weight.le (.finite 1) = true :=
    fun rule hrule => (mem_rulesFor_afterAll hrule).resolve_left List.not_mem_nil
  have hids : (((empty.afterAll ρ calls).rulesFor c).map (·.id)).Nodup := by
    rw [hholds.rulesFor_eq]
    exact hholds.ids_nodup.sublist (List.filter_sublist.map _)
  refine registerAll_of_fits rfl (fun _ _ => rfl) (hids.sublist (List.filter_sublist.map _))
    (fun rule hrule => (hweight rule (List.mem_filter.mp hrule).1).2.1)
    (fun rule hrule => (hweight rule (List.mem_filter.mp hrule).1).2.2) fun c' => ?_
  -- the category had room for all of its rules, so it has room for some of them
  refine fits_of_sublist hρ ((List.filter_sublist.trans List.filter_sublist).map _) ?_ ?_
    (fits_afterAll ρ calls (fun _ => rfl) c)
  · intro w hw
    obtain ⟨rule, hrule, rfl⟩ := List.mem_map.mp hw
    obtain ⟨hcall, hpositive, hatMostOne⟩ := hweight rule hrule
    exact (isWeight_of_range hpositive hatMostOne (hkept rule hcall)).isAmount
  · exact ⟨Number.isAmount_zero hρ false, Number.isAmount_zero hρ false,
      Number.le_self (by rintro ⟨⟩)⟩

/-- **A rule that is not active is as good as not registered.** -/
theorem evaluate_subset (m : FactModel) (ids : List String) (c : Category) :
    ∃ r, registerAll ρ (((empty.afterAll ρ calls).rulesFor c).filter (·.id ∈ ids)) empty =
        .ok () r ∧
      evaluate ρ m (empty.afterAll ρ calls) (some ids) c = evaluate ρ m r none c := by
  obtain ⟨r, hr⟩ := exists_registerAll_filter hρ hkept c (·.id ∈ ids)
  refine ⟨r, hr, ?_⟩
  have hcategory : ∀ rule ∈ (empty.afterAll ρ calls).rulesFor c, rule.category = c := by
    intro rule hrule
    rw [(holds_afterAll ρ calls).rulesFor_eq] at hrule
    exact of_decide_eq_true (List.mem_filter.mp hrule).2
  have hactive : (empty.afterAll ρ calls).activeRules (some ids) c =
      ((empty.afterAll ρ calls).rulesFor c).filter (·.id ∈ ids) :=
    List.filter_congr fun rule _ => by simp [isActive]
  have halone :
      r.activeRules none c = ((empty.afterAll ρ calls).rulesFor c).filter (·.id ∈ ids) := by
    have hall : ∀ rules : List Rule, rules.filter (isActive none) = rules :=
      fun rules => List.filter_eq_self.mpr fun _ _ => rfl
    rw [activeRules, (holds_of_registerAll hr).rulesFor_eq, hall, List.filter_eq_self]
    intro rule hrule
    exact decide_eq_true (hcategory rule (List.mem_filter.mp hrule).1)
  rw [evaluate, evaluate, hactive, halone]

end Subsets

/-- To name all rules as active is to say nothing about them. -/
theorem evaluate_all_ids (ρ : Rounding) (m : FactModel) (calls : List Call) (c : Category) :
    evaluate ρ m (empty.afterAll ρ calls) (some ((empty.afterAll ρ calls).rules.map (·.id))) c =
      evaluate ρ m (empty.afterAll ρ calls) none c := by
  have hrules : ∀ rule ∈ (empty.afterAll ρ calls).rulesFor c,
      rule ∈ (empty.afterAll ρ calls).rules := by
    intro rule hrule
    rw [(holds_afterAll ρ calls).rulesFor_eq] at hrule
    rw [rules_afterAll]
    exact List.mem_append_right _ (List.mem_filter.mp hrule).1
  have hactive :
      (empty.afterAll ρ calls).activeRules (some ((empty.afterAll ρ calls).rules.map (·.id))) c =
      (empty.afterAll ρ calls).activeRules none c := by
    refine List.filter_congr fun rule hrule => ?_
    rw [isActive, isActive, List.contains_iff_mem]
    exact List.mem_map.mpr ⟨rule, hrules rule hrule, rfl⟩
  rw [evaluate, evaluate, hactive]

end Registry

/-! ## Rules that do not apply -/

theorem Registry.activeRules_filter_ne (r : Registry) (ids : List String) (c : Category)
    (id : String) :
    r.activeRules (some (ids.filter (· ≠ id))) c = (r.activeRules (some ids) c).filter
      (·.id ≠ id) := by
  rw [activeRules, activeRules, List.filter_filter]
  refine List.filter_congr fun rule _ => ?_
  simp [isActive, Bool.and_comm]

/-- Without the id of a rule, the rules before and after it are left. -/
theorem Registry.exists_activeRules_without {ρ : Rounding} {calls : List Call} {ids : List String}
    {c : Category} {rule : Rule} (hrule : rule ∈ (empty.afterAll ρ calls).rulesFor c)
    (hid : rule.id ∈ ids) :
    ∃ before later, (empty.afterAll ρ calls).activeRules (some ids) c = before ++ rule :: later ∧
      (empty.afterAll ρ calls).activeRules (some (ids.filter (· ≠ rule.id))) c = before ++ later ∧
      ∀ other ∈ before ++ later, other.id ≠ rule.id := by
  have hids : (((empty.afterAll ρ calls).activeRules (some ids) c).map (·.id)).Nodup := by
    rw [activeRules, (holds_afterAll ρ calls).rulesFor_eq]
    exact (holds_afterAll ρ calls).ids_nodup.sublist
      ((List.filter_sublist.trans List.filter_sublist).map _)
  have hactive : rule ∈ (empty.afterAll ρ calls).activeRules (some ids) c :=
    List.mem_filter.mpr ⟨hrule, by simpa [isActive] using hid⟩
  obtain ⟨before, later, hsplit, hother⟩ := exists_split_of_mem hids hactive
  refine ⟨before, later, hsplit, ?_, hother⟩
  rw [activeRules_filter_ne, hsplit, List.filter_append, List.filter_cons_of_neg (by simp),
    ← List.filter_append, List.filter_eq_self]
  intro other hmem
  simpa using hother other hmem

theorem run_findings_of_not_applicable {rule : Rule} {m : FactModel}
    (h : (rule.run m).outcome.applicable = false) : (rule.run m).findings = [] := by
  rw [run_findings, ← run_applicable, h]
  rfl

/-- What a rule does that does not apply is contained: neither was it raised nor is it weighed. -/
theorem isContained_of_not_applicable {rule : Rule} {m : FactModel}
    (h : (rule.run m).outcome.applicable = false) : rule.IsContained m := by
  refine ⟨fun f hf => ?_, fun res f hf => ?_⟩
  · simp [Rule.run, Rule.judge, hf] at h
  · rw [← judge_eq_error_iff]
    rw [run_applicable, Rule.answer] at h
    cases hjudge : rule.judge m with
    | error e => exact Or.inr ⟨e, rfl⟩
    | ok res' =>
        rw [hjudge] at h
        rw [Rule.judge, hf] at hjudge
        exact Or.inl (eq_of_check hjudge ▸ h)

/-- What leaves the evaluation of a category does so without a rule that has no part in it. -/
theorem evaluate_without_of_not_isContained {ρ : Rounding} {m : FactModel} {r : Registry}
    {active active' : Option (List String)} {c : Category} {rule : Rule} {before later : List Rule}
    (hrule : rule.IsContained m) (hsplit : r.activeRules active c = before ++ rule :: later)
    (hwithout : r.activeRules active' c = before ++ later)
    (h : ¬∀ other ∈ r.activeRules active c, other.IsContained m) :
    ∃ f, evaluate ρ m r active c = .error (.raised f) ∧ evaluate ρ m r active' c =
      .error (.raised f) := by
  have hsame : ∀ g : Rule → Option Fault, g rule = none →
      (r.activeRules active c).findSome? g = (r.activeRules active' c).findSome? g := by
    intro g hg
    rw [hsplit, hwithout]
    simp [List.findSome?_append, hg]
  obtain ⟨hescape, hmisfit⟩ := isContained_iff.mp hrule
  rw [evaluate, evaluate, hsame _ hescape, hsame _ hmisfit]
  cases hfound : (r.activeRules active' c).findSome? (·.escape? m) <|>
      (r.activeRules active' c).findSome? (·.misfit? m) with
  | some f => exact ⟨f, rfl, rfl⟩
  | none =>
      obtain ⟨hescapes, hmisfits⟩ :=
        Option.or_eq_none_iff.mp (Option.orElse_eq_or.symm.trans hfound)
      rw [← hsame _ hescape] at hescapes
      rw [← hsame _ hmisfit] at hmisfits
      exact absurd (fun other hother => isContained_iff.mpr
        ⟨List.findSome?_eq_none_iff.mp hescapes other hother,
          List.findSome?_eq_none_iff.mp hmisfits other hother⟩) h

/-- A run that does not apply and finds nothing contributes its outcome only. -/
theorem scoreOfRuns_without {ρ : Rounding} {c : Category} {before later : List RuleRun}
    {run : RuleRun} {s : CategoryScore} (happ : run.outcome.applicable = false)
    (hquiet : run.findings = []) (h : scoreOfRuns ρ c (before ++ run :: later) = .ok s) :
    scoreOfRuns ρ c (before ++ later) =
      .ok { s with outcomes := before.map (·.outcome) ++ later.map (·.outcome) } := by
  have hfindings :
      (before ++ run :: later).flatMap (·.findings) = (before ++ later).flatMap (·.findings) := by
    simp [hquiet]
  -- the mean is taken over outcomes that apply, which are the same with and without the run
  have happlied : ((before ++ run :: later).map (·.outcome)).filter (·.applicable) =
      ((before ++ later).map (·.outcome)).filter (·.applicable) := by
    simp [happ]
  rw [← List.map_append]
  dsimp only [scoreOfRuns] at h ⊢
  rw [hfindings, happlied] at h
  by_cases hempty : (((before ++ later).map (·.outcome)).filter (·.applicable)).isEmpty = true
  · rw [if_pos hempty] at h ⊢
    obtain ⟨hrange, rfl⟩ := check_eq_ok_iff.mp h
    exact check_eq_ok_iff.mpr ⟨hrange, rfl⟩
  · rw [if_neg hempty] at h ⊢
    cases hmean : weightedMean ρ (((before ++ later).map (·.outcome)).filter (·.applicable)) with
    | error e =>
        rw [hmean] at h
        cases h
    | ok mean =>
        rw [hmean] at h
        obtain ⟨hrange, rfl⟩ := check_eq_ok_iff.mp h
        exact check_eq_ok_iff.mpr ⟨hrange, rfl⟩

/-- **Rules that are not active or do not apply leave no trace.** The score of a category with some
active rules is its score in a registry that has no other rules of the category, and these rules can
be registered by themselves. Without an active rule that does not apply, the category scores the
same, finds the same and is as vacuous as before, and its outcomes are the same but for that of the
rule. That is also so if no other rule was active: then the category was vacuous already. If what
another rule does is not contained, the same fault ends the evaluation with and without the rule.
Ids of no rule of the category make no difference. -/
theorem inactive_rules_leave_no_trace {ρ : Rounding} (hρ : ρ = .exact ∨ ρ = .nearest)
    (calls : List Registry.Call) (hkept : ∀ rule, Registry.Call.register rule ∈ calls →
      rule.weight.KeptBy ρ) (m : FactModel) (c : Category) :
    let r := Registry.empty.afterAll ρ calls
    evaluate ρ m r (some (r.rules.map (·.id))) c = evaluate ρ m r none c ∧
      ∀ ids : List String,
        (∃ r', Registry.registerAll ρ ((r.rulesFor c).filter (·.id ∈ ids)) Registry.empty =
          .ok () r' ∧ evaluate ρ m r (some ids) c = evaluate ρ m r' none c) ∧
        (∀ id, (∀ rule ∈ r.rulesFor c, rule.id ≠ id) →
          evaluate ρ m r (some (ids.filter (· ≠ id))) c = evaluate ρ m r (some ids) c) ∧
        ∀ rule ∈ r.rulesFor c, rule.id ∈ ids → (rule.run m).outcome.applicable = false →
          ((∀ other ∈ r.activeRules (some ids) c, other.IsContained m) →
            ∃ s before later, evaluate ρ m r (some ids) c = .ok s ∧
              s.outcomes = before ++ (rule.run m).outcome :: later ∧
                (∀ o ∈ before ++ later, o.ruleId ≠ rule.id) ∧
              evaluate ρ m r (some (ids.filter (· ≠ rule.id))) c =
                .ok { s with outcomes := before ++ later } ∧
              (before ++ later = [] → s.vacuous = true ∧ s.rawScore = .finite 10 ∧
                s.findings = [vacuousFinding c])) ∧
          ((¬∀ other ∈ r.activeRules (some ids) c, other.IsContained m) →
            ∃ f, evaluate ρ m r (some ids) c = .error (.raised f) ∧
              evaluate ρ m r (some (ids.filter (· ≠ rule.id))) c = .error (.raised f)) := by
  intro r
  have hmono : ρ.IsMonotone := by
    rcases hρ with rfl | rfl
    · exact Rounding.isMonotone_exact
    · exact Rounding.isMonotone_nearest
  refine ⟨Registry.evaluate_all_ids ρ m calls c, fun ids =>
    ⟨Registry.evaluate_subset hmono hkept m ids c, ?_, ?_⟩⟩
  · intro id hother
    rw [evaluate, Registry.activeRules_filter_ne, List.filter_eq_self.mpr, evaluate]
    intro rule hrule
    simpa using hother rule (List.mem_filter.mp hrule).1
  intro rule hrule hid happ
  -- ids are unique, so the active rules fall apart at this rule
  obtain ⟨before, later, hsplit, hwithout, hother⟩ := Registry.exists_activeRules_without hrule hid
  refine ⟨fun hcontained => ?_, evaluate_without_of_not_isContained
    (isContained_of_not_applicable happ) hsplit hwithout⟩
  have hcontained' : ∀ other ∈ r.activeRules (some (ids.filter (· ≠ rule.id))) c,
      other.IsContained m := by
    intro other hmem
    rw [Registry.activeRules_filter_ne] at hmem
    exact hcontained other (List.mem_filter.mp hmem).1
  obtain ⟨s, hs, hreports⟩ :=
    scoreOfRuns_reports hmono c ((r.activeRules (some ids) c).map (·.run m)) (by
    intro run hrun
    obtain ⟨other, hother, rfl⟩ := List.mem_map.mp hrun
    rw [run_weight]
    exact Registry.isWeight_of_mem_activeRules hkept hother)
  have hevaluate : evaluate ρ m r (some ids) c = .ok s := by
    rw [Registry.evaluate_of_isContained hcontained, hs]
  refine ⟨s, (before.map (·.run m)).map (·.outcome), (later.map (·.run m)).map (·.outcome),
    hevaluate, ?_, ?_, ?_, ?_⟩
  · rw [hreports.outcomes_eq, hsplit, List.map_append, List.map_cons, List.map_append,
      List.map_cons]
  · intro o ho
    rw [← List.map_append, ← List.map_append, List.map_map] at ho
    obtain ⟨other, hmem, rfl⟩ := List.mem_map.mp ho
    rw [Function.comp_apply, run_ruleId]
    exact hother other hmem
  · rw [hsplit, List.map_append, List.map_cons] at hs
    rw [Registry.evaluate_of_isContained hcontained', hwithout, List.map_append]
    exact scoreOfRuns_without happ (run_findings_of_not_applicable happ) hs
  · intro hnone
    rw [← List.map_append, ← List.map_append, List.map_eq_nil_iff, List.map_eq_nil_iff,
      List.append_eq_nil_iff] at hnone
    have hvacuous : s.vacuous = true := by
      rw [hreports.vacuous_iff, hsplit, hnone.1, hnone.2]
      simpa using happ
    obtain ⟨hcategory, haccounts⟩ := evaluate_accountsFor hevaluate
    rw [← hcategory]
    exact ⟨hvacuous, haccounts.of_vacuous hvacuous⟩

/-- A rule that does not apply, beside one that does and alone in its category. -/
theorem inactive_rules_leave_no_trace_quiet :
    let loud : Rule :=
      { id := "naming.loud", category := .naming, weight := .finite (1 / 2), description := ""
        evaluate := fun _ => .result { score := .finite 0 } }
    let quiet : Rule :=
      { loud with id := "naming.quiet", evaluate := fun _ => .result .notApplicable }
    let alone : Rule := { quiet with id := "testing.alone", category := .testing }
    let calls : List Registry.Call := [.register loud, .register quiet, .register alone]
    let r := Registry.empty.afterAll .nearest calls
    let m := FactModel.build [] [] "."
    (∀ rule, Registry.Call.register rule ∈ calls → rule.weight.KeptBy .nearest) ∧
      (∃ s before later, evaluate .nearest m r (some ["naming.loud", "naming.quiet"]) .naming =
        .ok s ∧ s.outcomes = before ++ (quiet.run m).outcome :: later ∧
        evaluate .nearest m r (some ["naming.loud"]) .naming =
          .ok { s with outcomes := before ++ later }) ∧
      ∃ s before later, evaluate .nearest m r (some ["testing.alone"]) .testing = .ok s ∧
        s.outcomes = before ++ (alone.run m).outcome :: later ∧
        evaluate .nearest m r (some []) .testing = .ok { s with outcomes := before ++ later } := by
  intro loud quiet alone calls r m
  have hhalf : (Number.finite (1 / 2)).KeptBy .nearest := Number.keptBy_nearest (by decide +kernel)
  have hkept : ∀ rule, Registry.Call.register rule ∈ calls → rule.weight.KeptBy .nearest := by
    intro rule hrule
    have hcases : rule = loud ∨ rule = quiet ∨ rule = alone := by simpa [calls] using hrule
    rcases hcases with rfl | rfl | rfl <;> exact hhalf
  have hloud : Registry.register .nearest loud .empty = .ok () (Registry.empty.added loud) :=
    Registry.register_of_accepts ⟨rfl, rfl, by decide +kernel, by decide +kernel, by decide +kernel⟩
  have hquiet :
      Registry.register .nearest quiet (Registry.empty.added loud) =
        .ok () ((Registry.empty.added loud).added quiet) :=
    Registry.register_of_accepts
      ⟨rfl, by decide +kernel, by decide +kernel, by decide +kernel, by decide +kernel⟩
  have halone : Registry.register .nearest alone ((Registry.empty.added loud).added quiet) =
      .ok () (((Registry.empty.added loud).added quiet).added alone) :=
    Registry.register_of_accepts
      ⟨rfl, by decide +kernel, by decide +kernel, by decide +kernel, by decide +kernel⟩
  -- the registry is computed call by call, as registering does not reduce by evaluation
  have hr : r = ((Registry.empty.added loud).added quiet).added alone := by
    simp [r, calls, Registry.afterAll, Registry.after, Registry.Call.perform, RegistryM.leaves,
      hloud, hquiet, halone]
  have hnaming : r.rulesFor .naming = [loud, quiet] := by rw [hr]; rfl
  have htesting : r.rulesFor .testing = [alone] := by rw [hr]; rfl
  have hcontained : ∀ active d, ∀ rule ∈ r.activeRules active d, rule.IsContained m := by
    intro active d rule hrule
    have hin : rule ∈ r.rulesFor d := (List.mem_filter.mp hrule).1
    rw [(Registry.holds_afterAll .nearest calls).rulesFor_eq] at hin
    have hcall := Registry.mem_of_mem_accepted (List.mem_filter.mp hin).1
    have hcases : rule = loud ∨ rule = quiet ∨ rule = alone := by simpa [calls] using hcall
    rcases hcases with rfl | rfl | rfl <;> exact isContained_of_result rfl
  refine ⟨hkept, ?_, ?_⟩
  · obtain ⟨s, before, later, hs, houtcomes, -, hwithout, -⟩ :=
      (((inactive_rules_leave_no_trace (Or.inr rfl) calls hkept m .naming).2
        ["naming.loud", "naming.quiet"]).2.2 quiet
        (by rw [hnaming]; simp) (by decide) rfl).1 (hcontained _ _)
    exact ⟨s, before, later, hs, houtcomes, hwithout⟩
  · obtain ⟨s, before, later, hs, houtcomes, -, hwithout, -⟩ :=
      (((inactive_rules_leave_no_trace (Or.inr rfl) calls hkept m .testing).2
        ["testing.alone"]).2.2 alone
        (by rw [htesting]; simp) (by decide) rfl).1 (hcontained _ _)
    exact ⟨s, before, later, hs, houtcomes, hwithout⟩

end Scorecard
