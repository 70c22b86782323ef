import Mathlib.Data.List.Perm.Basic
import Scorecard.Proofs.FactCounters
import Scorecard.Proofs.Sketch

set_option autoImplicit false

/-! # The order of facts

In which order the facts of a code base are given has no influence on its scores
(`fact_order_irrelevant`): the report has the same sketch, and a rule that does not fail finds the
same, in another order. Two things can differ. A rule that stops at its first error may stop at
another one, and a rule that asks for the presence of a fact speaks of the first one that it sees.
If a place cannot be written, the order may also decide whether it is recommended, and so whether
there is a report.
-/

namespace Scorecard

/-! ## Computations that agree -/

/-- Both computations fail, or both succeed with related results. -/
inductive Alike {ε α β : Type} (R : α → β → Prop) : Except ε α → Except ε β → Prop where
  | failed (e e' : ε) : Alike R (.error e) (.error e')
  | agreed {a : α} {b : β} (h : R a b) : Alike R (.ok a) (.ok b)

namespace Alike

variable {ε α β γ δ : Type} {R : α → β → Prop} {S : γ → δ → Prop}

theorem refl {T : α → α → Prop} (hT : ∀ a, T a a) (x : Except ε α) : Alike T x x := by
  cases x with
  | error e => exact failed e e
  | ok a => exact agreed (hT a)

theorem trans {T : α → α → Prop} (hT : ∀ a b c, T a b → T b c → T a c) {x y z : Except ε α}
    (hxy : Alike T x y) (hyz : Alike T y z) : Alike T x z := by
  cases hxy with
  | failed e e' =>
      cases hyz with
      | failed _ e'' => exact failed e e''
  | agreed hab =>
      cases hyz with
      | agreed hbc => exact agreed (hT _ _ _ hab hbc)

/-- Computations that go on alike from related results are alike. -/
theorem bind {x : Except ε α} {y : Except ε β} {f : α → Except ε γ} {g : β → Except ε δ}
    (h : Alike R x y) (hfg : ∀ a b, R a b → Alike S (f a) (g b)) : Alike S (x >>= f) (y >>= g) := by
  cases h with
  | failed e e' => exact failed e e'
  | agreed hab => exact hfg _ _ hab

/-- Related results may be known to be related in another way, also from where they come. -/
theorem imp {R' : α → β → Prop} {x : Except ε α} {y : Except ε β} (h : Alike R x y)
    (hR : ∀ a b, x = .ok a → y = .ok b → R a b → R' a b) : Alike R' x y := by
  cases h with
  | failed e e' => exact failed e e'
  | agreed hab => exact agreed (hR _ _ rfl rfl hab)

theorem mapError {ε' : Type} (f : ε → ε') {x : Except ε α} {y : Except ε β} (h : Alike R x y) :
    Alike R (x.mapError f) (y.mapError f) := by
  cases h with
  | failed e e' => exact failed (f e) (f e')
  | agreed hab => exact agreed hab

end Alike

/-! ## Templates -/

namespace Text

variable {fields fields' : List TemplateField}

theorem find?_name_isSome (h : fields.map (·.name) = fields'.map (·.name)) (key : String) :
    (fields.find? (·.name = key)).isSome = (fields'.find? (·.name = key)).isSome := by
  have hmem : ∀ l : List TemplateField, (l.find? (·.name = key)).isSome = true ↔
      key ∈ l.map (·.name) := by
    intro l
    simp [List.find?_isSome]
  rw [Bool.eq_iff_iff, hmem, hmem, h]

theorem fieldValue_alike (h : fields.map (·.name) = fields'.map (·.name)) (name : List Char)
    (conversion : Option Char) :
    Alike (fun _ _ => True) (fieldValue fields name conversion)
      (fieldValue fields' name conversion) := by
  unfold fieldValue
  cases name.mapM digitValue? with
  | some digits => exact .failed _ _
  | none =>
      -- both lists have a field of this name, or none has
      have hfound := find?_name_isSome h (String.ofList name)
      cases hfield : fields.find? (·.name = String.ofList name) with
      | none =>
          rw [hfield] at hfound
          have hfield' : fields'.find? (·.name = String.ofList name) = none := by
            simpa using hfound.symm
          simp only [hfield, hfield']
          exact .failed _ _
      | some field =>
          rw [hfield] at hfound
          obtain ⟨field', hfield'⟩ := Option.isSome_iff_exists.mp hfound.symm
          simp only [hfield, hfield']
          split
          · exact .agreed trivial
          · exact .agreed trivial
          · exact .agreed trivial
          · exact .agreed trivial
          · exact .failed _ _

theorem readField_alike (h : fields.map (·.name) = fields'.map (·.name)) (cs : List Char) :
    Alike (fun p q => p.2 = q.2) (readField fields cs) (readField fields' cs) := by
  refine (Alike.refl (T := Eq) (fun _ => rfl) (fieldName [] cs)).bind ?_
  rintro ⟨name, stop, rest⟩ - rfl
  refine (Alike.refl (T := Eq) (fun _ => rfl) (fieldConversion stop rest)).bind ?_
  rintro ⟨conversion, rest⟩ - rfl
  exact (fieldValue_alike h name conversion).bind fun _ _ _ => .agreed rfl

/-- Whether a template can be filled depends on the names of the fields only. -/
theorem fillWithin_alike (h : fields.map (·.name) = fields'.map (·.name)) (fuel : Nat)
    (cs : List Char) :
    Alike (fun _ _ => True) (fillWithin fields fuel cs) (fillWithin fields' fuel cs) := by
  induction fuel generalizing cs with
  | zero => cases cs <;> exact .agreed trivial
  | succ fuel ih =>
      -- what goes in front of the rest is a text, and texts are not compared here
      have hgo : ∀ (rest : List Char) (f g : List Char → List Char),
          Alike (fun _ _ => True) (do return f (← fillWithin fields fuel rest))
            (do return g (← fillWithin fields' fuel rest)) :=
        fun rest f g => (ih rest).bind fun _ _ _ => .agreed trivial
      cases cs with
      | nil => exact .agreed trivial
      | cons c cs =>
          unfold fillWithin
          split
          · split
            · exact hgo _ _ _
            · exact .failed _ _
          · split
            · split
              · exact .failed _ _
              · exact hgo _ _ _
              · refine (readField_alike h _).bind ?_
                rintro ⟨value, rest⟩ ⟨value', -⟩ rfl
                exact hgo _ _ _
            · exact hgo _ _ _

theorem fill_alike (h : fields.map (·.name) = fields'.map (·.name)) (template : String) :
    Alike (fun _ _ => True) (fill fields template) (fill fields' template) :=
  (fillWithin_alike h _ _).bind fun _ _ _ => .agreed trivial

end Text

/-- For a message that names a fact, it makes no difference which fact it is whether it can be
written. -/
theorem violation_alike (id : String) (advice : Advice) (f f' : Fact) :
    Alike (fun x y => x.sketch = y.sketch) (violation id advice f) (violation id advice f') := by
  have hnames : f.templateFields.map (·.name) = f'.templateFields.map (·.name) := rfl
  exact ((Text.fill_alike hnames advice.message).mapError templateFault).bind fun _ _ _ =>
    .agreed rfl

/-! ## Passes over facts -/

/-- A pass over the same facts in another order fails if the first one does, and gives the same in
another order. -/
theorem collect_perm {α : Type} (step : Fact → Except Fault (List α)) {facts facts' : List Fact}
    (h : facts.Perm facts') : Alike List.Perm (collect step facts) (collect step facts') := by
  induction h with
  | nil => exact .agreed .nil
  | cons f _ ih =>
      refine (Alike.refl (T := Eq) (fun _ => rfl) (step f)).bind ?_
      rintro part - rfl
      exact ih.bind fun more more' hmore => .agreed (hmore.append_left part)
  | swap f g rest =>
      simp only [collect]
      cases hf : step f with
      | error e =>
          -- the pass stops at `f`, unless it has stopped at `g` before
          cases step g <;> exact .failed _ _
      | ok part =>
          cases hg : step g with
          | error e => exact .failed _ _
          | ok part' =>
              cases collect step rest with
              | error e => exact .failed _ _
              | ok more => exact .agreed (List.perm_append_comm_assoc part' part more)
  | trans _ _ ih ih' => exact ih.trans (fun _ _ _ => .trans) ih'

/-! ## Judgements -/

/-- Results that differ in the order of their findings only. -/
structure RuleResult.SameUpToOrder (res res' : RuleResult) : Prop where
  score_eq : res.score = res'.score
  applicable_eq : res.applicable = res'.applicable
  findings_perm : res.findings.Perm res'.findings

theorem RuleResult.SameUpToOrder.refl (res : RuleResult) : res.SameUpToOrder res :=
  ⟨rfl, rfl, .refl _⟩

section Forms

variable {facts facts' : List Fact} (h : facts.Perm facts') (files : List String) (root : String)

include h

theorem judgeRatio_perm (ρ : Rounding) (id kind : String) (predicate selector : FactPredicate)
    (advice : Advice) :
    Alike RuleResult.SameUpToOrder
      (judgeRatio ρ id kind predicate selector advice (.build facts files root))
      (judgeRatio ρ id kind predicate selector advice (.build facts' files root)) := by
  simp only [judgeRatio, FactModel.ofKind_build, selectFacts_eq_collect]
  refine (collect_perm _ (h.filter _)).bind fun selected selected' hselected => ?_
  have hlength := hselected.length_eq
  rw [hselected.isEmpty_eq]
  split
  · exact .agreed (.refl _)
  · simp only [violations_eq_collect]
    refine (collect_perm _ hselected).bind fun findings findings' hfindings =>
      .agreed ⟨?_, rfl, hfindings⟩
    rw [hlength, hfindings.length_eq]

theorem judgePenalty_perm (ρ : Rounding) (id kind appliesTo : String) (amount : Number)
    (advice : Advice) :
    Alike RuleResult.SameUpToOrder
      (judgePenalty ρ id kind appliesTo amount advice (.build facts files root))
      (judgePenalty ρ id kind appliesTo amount advice (.build facts' files root)) := by
  have hempty : ∀ k, (facts.filter (·.kind = k)).isEmpty = (facts'.filter (·.kind = k)).isEmpty :=
    fun k => (h.filter _).isEmpty_eq
  have hflagged :
      ((facts.filter (·.kind = kind)).filter (·.isTrue)).Perm
        ((facts'.filter (·.kind = kind)).filter (·.isTrue)) :=
    (h.filter _).filter _
  simp only [judgePenalty, FactModel.ofKind_build, mapM_violation_eq_collect, hempty]
  split
  · exact .agreed (.refl _)
  · refine (collect_perm _ hflagged).bind fun findings findings' hfindings =>
      .agreed ⟨?_, rfl, hfindings⟩
    rw [hflagged.length_eq]

theorem judgeTestsPresent_perm (id : String) :
    judgeTestsPresent id (.build facts files root) = judgeTestsPresent id
      (.build facts' files root) := by
  have hobserved :
      (facts.filter (·.kind = Kind.testFile)).Perm (facts'.filter (·.kind = Kind.testFile)) :=
        h.filter _
  simp only [judgeTestsPresent, FactModel.ofKind_build, counters_perm h files root,
    hobserved.isEmpty_eq, hobserved.length_eq]

theorem judgeTestRatio_perm (ρ : Rounding) (id : String) :
    judgeTestRatio ρ id (.build facts files root) = judgeTestRatio ρ id
      (.build facts' files root) := by
  simp only [judgeTestRatio, counters_perm h files root]

theorem judgeLogging_perm (ρ : Rounding) (id : String) :
    Alike RuleResult.SameUpToOrder (judgeLogging ρ id (.build facts files root))
      (judgeLogging ρ id (.build facts' files root)) := by
  have hlogged :
      (facts.filter (·.kind = Kind.logCall)).Perm (facts'.filter (·.kind = Kind.logCall)) :=
        h.filter _
  have hprints : ((facts.filter (·.kind = Kind.printCall)).filter (·.isTrue)).Perm
      ((facts'.filter (·.kind = Kind.printCall)).filter (·.isTrue)) := (h.filter _).filter _
  simp only [judgeLogging, FactModel.ofKind_build, hlogged.length_eq, hprints.length_eq]
  split
  · exact .agreed (.refl _)
  · exact .agreed ⟨rfl, rfl, hprints.map _⟩

/-- The finding about an absent fact is about the first of the facts of a kind, so it may be about
another one. -/
theorem judgePresence_perm (id kind : String) (advice : Advice) :
    Alike (fun res res' => res.sketch = res'.sketch)
      (judgePresence id kind advice (.build facts files root))
      (judgePresence id kind advice (.build facts' files root)) := by
  have hkind : (facts.filter (·.kind = kind)).Perm (facts'.filter (·.kind = kind)) := h.filter _
  simp only [judgePresence, FactModel.ofKind_build]
  cases hfirst : facts.filter (·.kind = kind) with
  | nil =>
      have hnil : facts'.filter (·.kind = kind) = [] := (hfirst ▸ hkind).symm.eq_nil
      rw [hnil]
      exact .agreed rfl
  | cons first rest =>
      cases hfirst' : facts'.filter (·.kind = kind) with
      | nil =>
          rw [hfirst, hfirst'] at hkind
          exact absurd hkind.eq_nil (List.cons_ne_nil _ _)
      | cons first' rest' =>
          rw [hfirst, hfirst'] at hkind
          dsimp only
          -- whether one of the facts is present does not depend on their order, only which one is
          -- first does
          rw [hkind.any_eq]
          split
          · exact .agreed rfl
          · refine (violation_alike id advice first first').bind fun x y hxy => .agreed ?_
            simp [RuleResult.sketch, hxy]

/-- A judgement on the same facts in another order is the same up to the order of the findings,
unless it is about presence. -/
theorem JudgementForm.perm_or_presence {ρ : Rounding} {id : String}
    {judge : FactModel → Except Fault RuleResult} {kinds : List String}
    (hform : JudgementForm ρ id judge kinds) :
    (∃ kind advice, judge = judgePresence id kind advice) ∨
      Alike RuleResult.SameUpToOrder (judge (.build facts files root))
        (judge (.build facts' files root)) := by
  cases hform with
  | ratio kind predicate selector advice =>
      exact Or.inr (judgeRatio_perm h files root ρ id kind predicate selector advice)
  | penalty kind appliesTo amount advice =>
      exact Or.inr (judgePenalty_perm h files root ρ id kind appliesTo amount advice)
  | presence kind advice => exact Or.inl ⟨kind, advice, rfl⟩
  | testsPresent =>
      rw [judgeTestsPresent_perm h files root id]
      exact Or.inr (.refl .refl _)
  | testRatio =>
      rw [judgeTestRatio_perm h files root ρ id]
      exact Or.inr (.refl .refl _)
  | logging => exact Or.inr (judgeLogging_perm h files root ρ id)

end Forms

/-- The findings of a rule all have the same sketch, so only their number shows. -/
theorem map_sketch_eq_replicate {facts : List Fact} {id suggestion : String}
    {findings : List Finding} (h : ∀ x ∈ findings, x.IsAbout facts id suggestion) :
    findings.map Finding.sketch = List.replicate findings.length
      (findingFor id .codebase "" suggestion) := by
  rw [List.map_eq_replicate_iff]
  intro x hx
  obtain ⟨location, message, rfl, -⟩ := h x hx
  rfl

/-- Every judgement on the same facts in another order has the same sketch. -/
theorem JudgementForm.sketch_perm {ρ : Rounding} {id : String}
    {judge : FactModel → Except Fault RuleResult} {kinds : List String}
    (hform : JudgementForm ρ id judge kinds) {facts facts' : List Fact} (h : facts.Perm facts')
    (files : List String) (root : String) :
    Alike (fun res res' => res.sketch = res'.sketch) (judge (.build facts files root))
      (judge (.build facts' files root)) := by
  obtain ⟨suggestion, habout⟩ := hform.exists_suggestion
  rcases hform.perm_or_presence h files root with ⟨kind, advice, rfl⟩ | hsame
  · exact judgePresence_perm h files root id kind advice
  · refine hsame.imp fun res res' hres hres' hsame => ?_
    have hfindings : res.findings.map Finding.sketch = res'.findings.map Finding.sketch := by
      rw [map_sketch_eq_replicate (habout facts files root res hres),
        map_sketch_eq_replicate (habout facts' files root res' hres'),
          hsame.findings_perm.length_eq]
    exact RuleResult.sketch_eq_iff.mpr ⟨hsame.score_eq, hfindings, hsame.applicable_eq⟩

/-! ## Rules -/

/-- A rule that asks for the presence of a fact. -/
def Rule.IsPresence (rule : Rule) : Prop :=
  ∃ kind advice, rule = .of rule.id rule.category rule.weight rule.description
    (judgePresence rule.id kind advice)

/-- Results with the same score count alike. -/
theorem finite?_alike {R : RuleResult → RuleResult → Prop} {res res' : RuleResult}
    (hscore : res.score = res'.score) (h : R res res') : Alike R res.finite? res'.finite? := by
  unfold RuleResult.finite?
  rw [hscore]
  split
  · exact .agreed h
  · exact .failed _ _

/-- A run has the sketch that the sketch of its judgement gives. -/
theorem run_sketch {rule : Rule} {m m' : FactModel}
    (h : Alike (fun res res' => res.sketch = res'.sketch) (rule.judge m) (rule.judge m')) :
    (rule.run m).sketch = (rule.run m').sketch := by
  unfold Rule.run
  generalize rule.judge m = x at h
  generalize rule.judge m' = y at h
  cases h with
  | failed f f' => rfl
  | @agreed res res' hsketch =>
      obtain ⟨hscore, hfindings, happlicable⟩ := RuleResult.sketch_eq_iff.mp hsketch
      simp only [hscore, happlicable]
      split
      · simp only [RuleRun.sketch, hfindings]
      · rfl

section Rules

variable {facts facts' : List Fact} (h : facts.Perm facts') (files : List String) (root : String)
variable {ρ : Rounding} {rule : Rule} {judge : FactModel → Except Fault RuleResult}
  {kinds : List String}
variable (hform : rule.HasForm ρ judge kinds)

include h hform

theorem run_sketch_perm :
    (rule.run (.build facts files root)).sketch = (rule.run (.build facts' files root)).sketch := by
  refine run_sketch ?_
  rw [judge_of_form hform, judge_of_form hform]
  exact (hform.form.sketch_perm h files root).bind fun res res' hsketch =>
    finite?_alike (RuleResult.sketch_eq_iff.mp hsketch).1 hsketch

theorem run_findings_perm (hfails : ¬rule.Fails (.build facts files root))
    (hpresence : ¬rule.IsPresence) :
    (rule.run (.build facts files root)).findings.Perm
      (rule.run (.build facts' files root)).findings := by
  have halike :
      Alike RuleResult.SameUpToOrder (rule.judge (.build facts files root))
        (rule.judge (.build facts' files root)) := by
    rcases hform.form.perm_or_presence h files root with ⟨kind, advice, hjudge⟩ | hsame
    · exact absurd ⟨kind, advice, hjudge ▸ hform.rule_eq⟩ hpresence
    · rw [judge_of_form hform, judge_of_form hform]
      exact hsame.bind fun res res' hsame => finite?_alike hsame.score_eq hsame
  rw [← judge_eq_error_iff] at hfails
  unfold Rule.run
  generalize rule.judge (.build facts files root) = x at halike hfails
  generalize rule.judge (.build facts' files root) = y at halike
  cases halike with
  | failed f f' => exact absurd ⟨f, rfl⟩ hfails
  | agreed hsame =>
      simp only [hsame.applicable_eq]
      split
      · exact hsame.findings_perm
      · exact .refl _

end Rules

/-- A built-in rule signs what it finds. -/
theorem ruleId_of_mem_run {ρ : Rounding} {rule : Rule} {judge : FactModel → Except Fault RuleResult}
    {kinds : List String} (hform : rule.HasForm ρ judge kinds) {facts : List Fact}
    {files : List String} {root : String} {x : Finding}
    (hx : x ∈ (rule.run (.build facts files root)).findings) : x.ruleId = rule.id := by
  obtain ⟨suggestion, habout⟩ := hform.form.exists_suggestion
  cases hjudge : rule.judge (.build facts files root) with
  | error f =>
      simp only [Rule.run, hjudge, List.mem_singleton] at hx
      rw [hx]
      rfl
  | ok res =>
      simp only [Rule.run, hjudge] at hx
      rw [judge_of_form hform] at hjudge
      obtain ⟨res', hres', hfinite⟩ := bind_eq_ok_iff.mp hjudge
      unfold RuleResult.finite? at hfinite
      split at hfinite
      · cases hfinite
        split at hx
        · obtain ⟨location, message, rfl, -⟩ := habout facts files root res hres' x hx
          rfl
        · cases hx
      · cases hfinite

/-! ## Reports -/

/-- What is found in a category is the same up to order, if it is the same for each rule. -/
theorem reports_filter_perm {d : Category} {rules : List Rule} {m m' : FactModel}
    {s s' : CategoryScore} (hs : s.Reports d (rules.map (·.run m)))
    (hs' : s'.Reports d (rules.map (·.run m'))) (hvacuous : s.vacuous = s'.vacuous)
    {q : Finding → Bool}
    (h : ∀ rule ∈ rules, ((rule.run m).findings.filter q).Perm ((rule.run m').findings.filter q)) :
    (s.findings.filter q).Perm (s'.findings.filter q) := by
  have hnote : s.note = s'.note := by
    rw [CategoryScore.note, CategoryScore.note, hvacuous, hs.category_eq, hs'.category_eq]
  rw [hs.findings_eq, hs'.findings_eq, List.filter_append, List.filter_append, hnote,
    List.flatMap_map, List.flatMap_map, List.filter_flatMap, List.filter_flatMap]
  exact (List.Perm.flatMap_left rules h).append_right _

/-- Only the rule with an id signs with it. -/
theorem eq_of_id_eq {limits : Limits} {rule other : Rule}
    (hrule : rule ∈ Catalog.rules .nearest limits) (hother : other ∈ Catalog.rules .nearest limits)
    (h : other.id = rule.id) : other = rule :=
  List.inj_on_of_nodup_map (Registry.catalog_ids_nodup limits) hother hrule h

/-- The findings of some scores that a rule signs. -/
def signedBy (id : String) (scores : List CategoryScore) : List Finding :=
  (scores.flatMap (·.findings)).filter (·.ruleId = id)

section

variable {facts facts' : List Fact} (h : facts.Perm facts') {files : List String} {root : String}
  {c : Config}
  {scores scores' : List CategoryScore}
  (hscores : c.HasScores (.builtIn .nearest c.limits) (.build facts files root) scores)
  (hscores' : c.HasScores (.builtIn .nearest c.limits) (.build facts' files root) scores')

include h hscores hscores'

/-- The scores for two orders of the same facts are made by the same rules, with runs that have the
same sketches. -/
theorem hasScores_perm : ∃ (active : List String) (scoreOf scoreOf' : Category → CategoryScore),
    scores = Category.all.map scoreOf ∧ scores' = Category.all.map scoreOf' ∧
      ∀ d, (scoreOf d).sketch = (scoreOf' d).sketch ∧
        (scoreOf d).Reports d
          (((Registry.builtIn .nearest c.limits).activeRules (some active) d).map
            (·.run (.build facts files root))) ∧
        (scoreOf' d).Reports d
          (((Registry.builtIn .nearest c.limits).activeRules (some active) d).map
            (·.run (.build facts' files root))) := by
  obtain ⟨active, hselect, hmapM, -⟩ := hscores
  obtain ⟨active', hselect', hmapM', -⟩ := hscores'
  obtain rfl : active = active' := Except.ok.inj (hselect.symm.trans hselect')
  choose scoreOf hscore hreports using Registry.exists_builtIn_score c.limits
    (.build facts files root) (some active)
  choose scoreOf' hscore' hreports' using Registry.exists_builtIn_score c.limits
    (.build facts' files root) (some active)
  refine ⟨active, scoreOf, scoreOf', Except.ok.inj (hmapM.symm.trans (mapM_evaluate_eq hscore)),
    Except.ok.inj (hmapM'.symm.trans (mapM_evaluate_eq hscore')),
      fun d => ⟨?_, hreports d, hreports' d⟩⟩
  have hruns := hscore d
  have hruns' := hscore' d
  rw [Registry.evaluate_builtIn] at hruns hruns'
  refine scoreOfRuns_sketch ?_ hruns hruns'
  rw [List.map_map, List.map_map]
  refine List.map_congr_left fun rule hrule => ?_
  obtain ⟨judge, kinds, hform⟩ :=
    catalog_form .nearest c.limits rule (Registry.mem_of_mem_activeRules hrule).1
  exact run_sketch_perm h files root hform

theorem map_sketch_perm : scores.map CategoryScore.sketch = scores'.map CategoryScore.sketch := by
  obtain ⟨active, scoreOf, scoreOf', rfl, rfl, hsame⟩ := hasScores_perm h hscores hscores'
  rw [List.map_map, List.map_map]
  exact List.map_congr_left fun d _ => (hsame d).1

/-- A rule that does not fail and does not ask for presence finds the same. -/
theorem signedBy_perm {rule : Rule} (hrule : rule ∈ Catalog.rules .nearest c.limits)
    (hfails : ¬rule.Fails (.build facts files root)) (hpresence : ¬rule.IsPresence) :
    (signedBy rule.id scores).Perm (signedBy rule.id scores') := by
  obtain ⟨active, scoreOf, scoreOf', rfl, rfl, hsame⟩ := hasScores_perm h hscores hscores'
  rw [signedBy, signedBy, List.flatMap_map, List.flatMap_map, List.filter_flatMap,
    List.filter_flatMap]
  refine List.Perm.flatMap_left _ fun d _ => ?_
  obtain ⟨hsketch, hreports, hreports'⟩ := hsame d
  have hvacuous := congrArg CategoryScore.vacuous hsketch
  refine reports_filter_perm hreports hreports' hvacuous fun other hother => ?_
  obtain ⟨judge, kinds, hform⟩ :=
    catalog_form .nearest c.limits other (Registry.mem_of_mem_activeRules hother).1
  by_cases hid : other.id = rule.id
  · obtain rfl := eq_of_id_eq hrule (Registry.mem_of_mem_activeRules hother).1 hid
    exact (run_findings_perm h files root hform hfails hpresence).filter _
  · -- the findings of another rule have another signature
    have hnone : ∀ l : List Fact,
        (other.run (.build l files root)).findings.filter (fun x => decide (x.ruleId = rule.id)) =
          [] := by
      intro l
      rw [List.filter_eq_nil_iff]
      intro x hx
      simp [ruleId_of_mem_run hform hx, hid]
    rw [hnone, hnone]

end

/-- Reports on scores with the same sketches have the same sketch. -/
theorem run_report_sketch {c : Config} {m m' : FactModel} {wait : Wait} {report report' : Report}
    (hrun : run .nearest m c wait = .ok report) (hrun' : run .nearest m' c wait = .ok report')
    (hscores : report.scores.map CategoryScore.sketch = report'.scores.map CategoryScore.sketch) :
    report.sketch = report'.sketch := by
  cases hdigits : c.limits.arePrintable with
  | false => cases (run_of_not_printable hdigits m wait).symm.trans hrun
  | true =>
      rw [run_of_printable hdigits] at hrun hrun'
      obtain ⟨weights, resolved, hweights, hresolved, hreport⟩ := runWith_reportOf hrun
      obtain ⟨weights', resolved', hweights', hresolved', hreport'⟩ := runWith_reportOf hrun'
      obtain rfl : weights = weights' := Except.ok.inj (hweights.symm.trans hweights')
      obtain rfl : resolved = resolved' := Except.ok.inj (hresolved.symm.trans hresolved')
      exact reportOf_sketch hscores hreport hreport'

/-- **The order of facts has no influence on scores.** With the built-in rules and a configuration
that is read and names known rules only, two orders of the same facts give scores with the same
sketches: the same raw scores with the same outcomes, and findings that differ in their texts and
places only. A rule that does not fail and does not ask for presence finds the same. If a limit
cannot be written or the waiting fails, both runs end with the same error. Otherwise each of them
ends with a report on its scores, unless a place that is recommended in it cannot be written, and
two reports have the same sketch: the same overall score, the same strengths and weaknesses, and the
same recommendations up to their texts. If the places of all facts can be written, there are reports
for both orders. -/
theorem fact_order_irrelevant (facts facts' : List Fact) (h : facts.Perm facts')
    (files : List String) (root : String) (source : String) (fields : Fields) (c : Config)
    (hread : Config.ofFields .nearest source fields = .ok c)
    (hknown : ∀ id ∈ c.enabled.getD [] ++ c.disabled,
      (Registry.builtIn .nearest c.limits).get? id ≠ none)
    (wait : Wait) :
    let m := FactModel.build facts files root
    let m' := FactModel.build facts' files root
    (∀ e, c.limits.arePrintable = false ∧ e = .unprintable ∨
        c.limits.arePrintable = true ∧ wait.error? c.budget = some e →
          run .nearest m c wait = .error e ∧ run .nearest m' c wait = .error e) ∧
      ∃ scores scores', c.HasScores (.builtIn .nearest c.limits) m scores ∧
        c.HasScores (.builtIn .nearest c.limits) m' scores' ∧
        scores.map CategoryScore.sketch = scores'.map CategoryScore.sketch ∧
        (∀ rule ∈ Catalog.rules .nearest c.limits, ¬rule.Fails m → ¬rule.IsPresence →
          (signedBy rule.id scores).Perm (signedBy rule.id scores')) ∧
        (c.limits.arePrintable = true → wait.error? c.budget = none →
          ReportsOn (run .nearest m c wait) c.bounds.most scores ∧
            ReportsOn (run .nearest m' c wait) c.bounds.most scores') ∧
        (∀ report report', run .nearest m c wait = .ok report →
          run .nearest m' c wait = .ok report' →
          report.scores = scores ∧ report'.scores = scores' ∧ report.sketch = report'.sketch) ∧
        ((∀ f ∈ facts, f.location.IsWritable) →
          AreWritable c.bounds.most scores ∧ AreWritable c.bounds.most scores') := by
  intro m m'
  obtain ⟨scores, hscores, hends⟩ := run_of_sound m (Config.ofFields_sound hread) hknown
  obtain ⟨scores', hscores', hends'⟩ := run_of_sound m' (Config.ofFields_sound hread) hknown
  obtain ⟨hlate, hreports, heq⟩ := hends wait
  obtain ⟨hlate', hreports', heq'⟩ := hends' wait
  have hsketch := map_sketch_perm h hscores hscores'
  refine ⟨?_, scores, scores', hscores, hscores', hsketch,
    fun rule => signedBy_perm h hscores hscores', ?_, ?_, ?_⟩
  · rintro e (⟨hdigits, rfl⟩ | ⟨hdigits, hwait⟩)
    · exact ⟨run_of_not_printable hdigits m wait, run_of_not_printable hdigits m' wait⟩
    · exact ⟨hlate hdigits e hwait, hlate' hdigits e hwait⟩
  · intro hdigits hwait
    exact ⟨hreports hdigits hwait, hreports' hdigits hwait⟩
  · intro report report' hreport hreport'
    refine ⟨heq report hreport, heq' report' hreport', run_report_sketch hreport hreport' ?_⟩
    rw [heq report hreport, heq' report' hreport', hsketch]
  · intro hfacts
    have hfacts' : ∀ f ∈ facts', f.location.IsWritable := fun f hf => hfacts f (h.mem_iff.mpr hf)
    exact ⟨areWritable_builtIn ⟨facts, files, root, rfl, hfacts⟩ hscores.choose_spec.2.1 _,
      areWritable_builtIn ⟨facts', files, root, rfl, hfacts'⟩ hscores'.choose_spec.2.1 _⟩

/-- Two names and a length that is not a number, which makes a rule fail, in either order. -/
theorem fact_order_irrelevant_reversed :
    let facts : List Fact :=
      [⟨Kind.functionName, .ofFile "b.py", .text "Run", ""⟩,
        ⟨Kind.functionName, .ofFile "a.py", .text "go_on", ""⟩,
       ⟨Kind.functionLength, .ofLines "a.py" 3 9, .text "long", "go_on"⟩]
    let fields : Fields := [("rules", .table [("disable", .list [.text "naming.class_names"])])]
    let c : Config := { disabled := ["naming.class_names"], source := some "scorecard.toml" }
    facts.Perm facts.reverse ∧ Config.ofFields .nearest "scorecard.toml" fields = .ok c ∧
      (∀ id ∈ c.enabled.getD [] ++ c.disabled,
        (Registry.builtIn .nearest c.limits).get? id ≠ none) ∧
      ∃ report report', run .nearest (.build facts [] "/r") c .complete = .ok report ∧
        run .nearest (.build facts.reverse [] "/r") c .complete = .ok report' ∧
          report.sketch = report'.sketch := by
  intro facts fields c
  have hperm : facts.Perm facts.reverse := facts.reverse_perm.symm
  have hread : Config.ofFields .nearest "scorecard.toml" fields = .ok c := by decide +kernel
  have hknown : ∀ id ∈ c.enabled.getD [] ++ c.disabled,
      (Registry.builtIn .nearest c.limits).get? id ≠ none :=
    Registry.get?_ne_none_of_contains (by decide +kernel)
  have hfacts : ∀ f ∈ facts, f.location.IsWritable := by
    simp only [facts, List.forall_mem_cons, List.not_mem_nil, false_imp_iff, implies_true, and_true]
    exact ⟨⟨"b.py", by decide +kernel⟩, ⟨"a.py", by decide +kernel⟩,
      ⟨"a.py:3-9", by decide +kernel⟩⟩
  obtain ⟨-, scores, scores', -, -, -, -, hends, hsketch, hwritable⟩ :=
    fact_order_irrelevant facts facts.reverse hperm [] "/r" "scorecard.toml" fields c hread hknown
      .complete
  obtain ⟨hreports, hreports'⟩ := hends (by decide +kernel) rfl
  obtain ⟨report, hreport, -⟩ := hreports.report (hwritable hfacts).1
  obtain ⟨report', hreport', -⟩ := hreports'.report (hwritable hfacts).2
  exact ⟨hperm, hread, hknown, report, report', hreport, hreport',
    (hsketch report report' hreport hreport').2.2⟩

/-- A limit that is accepted but cannot be written leaves no score to compare, whatever the facts
are. And where two facts violate a rule and only one of them is at a place that can be written,
there are recommendations for one order of the facts and none for the other. -/
theorem order_decides_recommendations :
    let far : Fact :=
      ⟨Kind.functionName, ⟨"a.py", .int (10 ^ 4300), .int (10 ^ 4300)⟩, .text "Run", ""⟩
    let near : Fact := ⟨Kind.functionName, .ofFile "b.py", .text "Go", ""⟩
    let judged := fun facts : List Fact =>
      judgeRatio .nearest "naming.function_names" Kind.functionName .snakeCase Catalog.everything
        ⟨"", "Rename functions and methods to snake_case."⟩ (.build facts [] "/r")
    let recommended := fun facts => (judged facts).toOption.map fun res =>
      (recommendations 5
        [{ category := .naming, rawScore := .finite 6, findings := res.findings }]).toOption.isSome
    (∃ c, Config.ofFields .nearest "scorecard.toml"
      [("limits", .table [("max_line_length", .int (10 ^ 4300))])] = .ok c ∧
        c.enabled.getD [] ++ c.disabled = [] ∧
        ∀ facts files root wait, run .nearest (.build facts files root) c wait =
          .error .unprintable) ∧
      recommended [far, near] = some false ∧ recommended [near, far] = some true := by
  intro far near judged recommended
  have hread :
      Config.ofFields .nearest "scorecard.toml"
        [("limits", .table [("max_line_length", .int (10 ^ 4300))])] =
      .ok { limits := { lineLength := 10 ^ 4300 }, source := some "scorecard.toml" } := by
        decide +kernel
  refine ⟨⟨_, hread, rfl, fun facts files root wait =>
    run_of_not_printable (by decide +kernel) _ wait⟩, ?_, ?_⟩
  · decide +kernel
  · decide +kernel

end Scorecard
