import Scorecard.Proofs.FactOrder

set_option autoImplicit false

/-! # Built-in rules that do not fail

A built-in rule can fail for one reason only: it reads a number or a label where a fact has none.
Its message can always be written, and its score is finite whatever is counted. Each rule is about
one kind of facts, and each kind holds values of one type (`catalog_reads`), so a rule gives a
result exactly if all facts of its kind can be read as values of this type (`Rule.Reads.gives_iff`).
Reports on models whose facts can all be read speak of no failure (`runWith_builtIn_isSound`).
-/

namespace Scorecard

variable {ρ : Rounding} {advice : Advice}

/-! ## Finite scores -/

/-- A share of a whole is finite. -/
theorem Number.ratio_isFinite (hρ : ρ.IsMonotone) {n : Int} {d : Nat} (hn : 0 ≤ n) (h : n ≤ d) :
    (Number.ratio ρ n d).isFinite = true := by
  have hd : (0 : ℚ) ≤ d := Nat.cast_nonneg d
  have hn' : (0 : ℚ) ≤ n := by exact_mod_cast hn
  have hle : (n : ℚ) ≤ d := by exact_mod_cast h
  have hshare : (n : ℚ) / d ≤ (1 : ℕ) := by
    rw [Nat.cast_one]
    exact div_le_one_of_le₀ hle hd
  rw [Number.ratio_eq hρ]
  exact (Number.round_within hρ (by norm_num) (div_nonneg hn' hd) hshare).1

theorem Number.AtLeast.isFinite_of_lt {low : ℚ} {a b : Number} (h : a.AtLeast low)
    (hb : b.isFinite = true) (hlt : a.lt b = true) : a.isFinite = true := by
  rcases h with rfl | ⟨hfinite, -⟩
  · rw [Number.lt, Number.place_of_isFinite hb] at hlt
    cases hlt
  · exact hfinite

/-- A product of numbers that are not negative is not negative. -/
theorem Number.mul_atLeast_zero {a b : Number} (ha : a.isFinite = true) (hb : b.isFinite = true)
    (ha0 : 0 ≤ a.value) (hb0 : 0 ≤ b.value) : (Number.mul .nearest a b).AtLeast 0 := by
  rw [Number.mul_of_isFinite _ ha hb]
  split
  · cases a.isNegative != b.isNegative <;> exact Or.inr ⟨rfl, le_refl _⟩
  · exact Number.nearest_atLeast Rounding.onGrid_zero (le_refl _) (mul_nonneg ha0 hb0)

theorem Number.AtLeast.not_lt_neg {a : Number} (h : a.AtLeast 0) :
    Number.lt (.finite 0) a.neg = false := by
  rcases h with rfl | ⟨hfinite, hvalue⟩
  · rfl
  rcases Number.finite_or_negZero hfinite with ⟨x, rfl⟩ | rfl
  · have hx : (0 : ℚ) ≤ x := hvalue
    by_cases hzero : x = 0 <;> simp [Number.neg, Number.lt, Number.place, hzero, hx]
  · simp [Number.neg, Number.lt, Number.place]

/-- What is left of one is finite if it is positive. -/
theorem Number.one_sub_isFinite {y : Number} (hy : y.AtLeast 0)
    (hpos : Number.lt (.finite 0) (Number.sub .nearest (.finite 1) y) = true) :
    (Number.sub .nearest (.finite 1) y).isFinite = true := by
  rcases hy with rfl | ⟨hfinite, hvalue⟩
  · cases hpos
  rcases Number.finite_or_negZero hfinite with ⟨x, rfl⟩ | rfl
  · have hx : (0 : ℚ) ≤ x := hvalue
    by_cases hzero : x = 0
    · rw [hzero]
      rfl
    have hdef : Number.sub .nearest (.finite 1) (.finite x) = if 1 + -x = 0 then .finite 0
        else Rounding.nearest (1 + -x) := by
      rw [Number.sub, Number.neg, if_neg hzero]
      rfl
    rw [hdef] at hpos ⊢
    split
    · rfl
    rename_i hne
    rw [if_neg hne] at hpos
    rcases le_or_gt 0 (1 + -x) with hle | hneg
    · exact (Number.nearest_within (k := 1) (by norm_num) hle (by push_cast; linarith)).1
    · -- below zero it would not be positive
      have hflip : 1 + -x = -(x - 1) := by ring
      have hlarge : (Rounding.nearest (x - 1)).AtLeast 0 :=
        Number.nearest_atLeast Rounding.onGrid_zero (le_refl _) (by linarith)
      rw [hflip, Number.nearest_neg (by linarith), hlarge.not_lt_neg] at hpos
      cases hpos
  · decide +kernel

/-- The quotient of two counts, over one half, is not negative. -/
theorem Number.div_ratio_atLeast_zero (n d : Nat) :
    (Number.div .nearest (.ratio .nearest n d) wantedTestRatio).AtLeast 0 := by
  have hratio : (Number.ratio .nearest n d).AtLeast 0 := by
    unfold Number.ratio
    split
    · exact Or.inr ⟨rfl, le_refl _⟩
    · rw [Rat.mkRat_eq_div]
      exact Number.nearest_atLeast Rounding.onGrid_zero (le_refl _) (by positivity)
  rcases hratio with hinf | ⟨hfinite, hvalue⟩
  · rw [hinf]
    exact Or.inl rfl
  · have hwanted : (0 : ℚ) < wantedTestRatio.value := by decide +kernel
    rw [Number.div_of_isFinite _ hfinite rfl hwanted.ne']
    split
    · cases (Number.ratio .nearest n d).isNegative != wantedTestRatio.isNegative <;> exact Or.inr
        ⟨rfl, le_refl _⟩
    · exact Number.nearest_atLeast Rounding.onGrid_zero (le_refl _) (div_nonneg hvalue hwanted.le)

/-! ## Messages -/

/-- A message that can be written for every fact. -/
def IsMessage (message : String) : Prop :=
  ∀ f : Fact, ∃ text, Text.fill f.templateFields message = .ok text

/-- If a message can be written for one fact, it can be written for all. -/
theorem isMessage_of_one (f : Fact) {message : String}
    (h : (Text.fill f.templateFields message).isOk = true) : IsMessage message := by
  intro f'
  have hfields : f.templateFields.map (·.name) = f'.templateFields.map (·.name) := rfl
  have halike := Text.fill_alike hfields message
  cases htext : Text.fill f'.templateFields message with
  | ok text => exact ⟨text, rfl⟩
  | error e =>
      rw [htext] at halike
      cases hone : Text.fill f.templateFields message with
      | ok text =>
          rw [hone] at halike
          cases halike
      | error e' =>
          rw [hone] at h
          cases h

theorem exists_violation (h : IsMessage advice.message) (id : String) (f : Fact) :
    ∃ x, violation id advice f = .ok x := by
  obtain ⟨text, htext⟩ := h f
  exact ⟨_, bind_eq_ok_iff.mpr ⟨text, mapError_eq_ok_iff.mpr htext, rfl⟩⟩

/-- If messages can be written, nothing else stands in the way of findings. -/
theorem exists_violations (hmessage : IsMessage advice.message) (id : String)
    {predicate : FactPredicate} {facts : List Fact} (h : ∀ f ∈ facts, predicate.Decides f) :
    ∃ findings, violations id advice predicate facts = .ok findings := by
  choose finding hfinding using exists_violation hmessage id
  refine ⟨(facts.filter (predicate · = .ok false)).map finding, violations_eq_ok_iff.mpr ⟨h, ?_⟩⟩
  exact List.forall₂_map_right_iff.mpr (List.forall₂_same.mpr fun f _ => hfinding f)

/-! ## Judgements -/

/-- A judgement has a result with a finite score. -/
def HasResult (judged : Except Fault RuleResult) : Prop :=
  ∃ res, judged = .ok res ∧ res.score.isFinite = true

/-- A rule on shares can judge a fact: it can decide whether to look at the fact and, if it does,
whether the fact complies. -/
def CanJudge (predicate selector : FactPredicate) (f : Fact) : Prop :=
  ∃ chosen, selector f = .ok chosen ∧ (chosen = true → predicate.Decides f)

/-- A share can be judged exactly if each fact can. -/
theorem hasResult_ratio_iff (hρ : ρ.IsMonotone) {id kind : String}
    {predicate selector : FactPredicate} {m : FactModel} (hmessage : IsMessage advice.message) :
    HasResult (judgeRatio ρ id kind predicate selector advice m) ↔
      ∀ f ∈ m.ofKind kind, CanJudge predicate selector f := by
  set selected := (m.ofKind kind).filter (selector · = .ok true) with hselected
  constructor
  · -- a fact that is selected was judged, as the result is there
    rintro ⟨res, hres, -⟩ f hf
    obtain ⟨_, hselect, hres⟩ := bind_eq_ok_iff.mp hres
    obtain ⟨hdecides, rfl⟩ := selectFacts_eq_ok_iff.mp hselect
    obtain ⟨chosen, hchosen⟩ := hdecides f hf
    refine ⟨chosen, hchosen, ?_⟩
    rintro rfl
    have hmem : f ∈ selected := List.mem_filter.mpr ⟨hf, by simpa using hchosen⟩
    rw [if_neg fun hempty => List.ne_nil_of_mem hmem (List.isEmpty_iff.mp hempty)] at hres
    obtain ⟨findings, hfindings, -⟩ := bind_eq_ok_iff.mp hres
    exact (violations_eq_ok_iff.mp hfindings).1 f hmem
  · intro h
    have hselect : selectFacts selector (m.ofKind kind) = .ok selected :=
      selectFacts_eq_ok_iff.mpr ⟨fun f hf => (h f hf).imp fun _ hchosen => hchosen.1, hselected⟩
    by_cases hempty : selected.isEmpty = true
    · exact ⟨.notApplicable, bind_eq_ok_iff.mpr ⟨selected, hselect, if_pos hempty⟩, rfl⟩
    · obtain ⟨findings, hfindings⟩ :
          ∃ findings, violations id advice predicate selected = .ok findings := by
        refine exists_violations hmessage id fun f hf => ?_
        obtain ⟨hmem, hchosen⟩ := List.mem_filter.mp hf
        obtain ⟨chosen, hchosen', hpredicate⟩ := h f hmem
        rw [hchosen'] at hchosen
        exact hpredicate (by simpa using hchosen)
      -- there are no more findings than facts, so the share is a number from zero to one
      have hlength := length_violations_le hfindings
      refine ⟨{ score := .ratio ρ (selected.length - findings.length) selected.length, findings },
        bind_eq_ok_iff.mpr ⟨selected, hselect, ?_⟩, Number.ratio_isFinite hρ (by omega) (by omega)⟩
      rw [if_neg hempty]
      exact bind_eq_ok_iff.mpr ⟨findings, hfindings, rfl⟩

theorem hasResult_presence {id kind : String} {m : FactModel}
    (hmessage : IsMessage advice.message) : HasResult (judgePresence id kind advice m) := by
  unfold judgePresence
  split
  · exact ⟨_, rfl, rfl⟩
  · split
    · exact ⟨_, rfl, rfl⟩
    · obtain ⟨x, hx⟩ := exists_violation hmessage id ‹Fact›
      exact ⟨_, bind_eq_ok_iff.mpr ⟨x, hx, rfl⟩, rfl⟩

theorem exists_mapM_violation (hmessage : IsMessage advice.message) (id : String)
    (facts : List Fact) : ∃ findings, facts.mapM (violation id advice) = .ok findings := by
  choose finding hfinding using exists_violation hmessage id
  refine ⟨facts.map finding, mapM_eq_ok_iff.mpr ?_⟩
  exact List.forall₂_map_right_iff.mpr (List.forall₂_same.mpr fun f _ => hfinding f)

/-- What is left after some penalties is finite, however many they are. -/
theorem hasResult_penalty {id kind appliesTo : String} {amount : Number} {m : FactModel}
    (hamount : amount.Within 0 1) (hmessage : IsMessage advice.message) :
    HasResult (judgePenalty .nearest id kind appliesTo amount advice m) := by
  unfold judgePenalty
  split
  · exact ⟨_, rfl, rfl⟩
  · obtain ⟨findings, hfindings⟩ :=
      exists_mapM_violation hmessage id ((m.ofKind kind).filter (·.isTrue))
    refine ⟨_, bind_eq_ok_iff.mpr ⟨findings, hfindings, rfl⟩, ?_⟩
    dsimp only
    split
    · rename_i hpos
      exact Number.one_sub_isFinite (Number.mul_atLeast_zero hamount.1 rfl hamount.2.1
        (Nat.cast_nonneg _)) hpos
    · rfl

theorem hasResult_testsPresent (id : String) (m : FactModel) :
    HasResult (judgeTestsPresent id m) := by
  unfold judgeTestsPresent HasResult
  dsimp only
  split
  · exact ⟨_, rfl, rfl⟩
  · split <;> exact ⟨_, rfl, rfl⟩

theorem hasResult_testRatio (id : String) (m : FactModel) :
    HasResult (judgeTestRatio .nearest id m) := by
  by_cases hsources : m.counters.sourceFiles ≤ 0
  · exact ⟨_, judgeTestRatio_of_nonpos hsources, rfl⟩
  · refine ⟨_, judgeTestRatio_of_pos (Int.not_le.mp hsources), ?_⟩
    unfold testRatioResult
    dsimp only
    split
    · rename_i hlt
      exact (Number.div_ratio_atLeast_zero _ _).isFinite_of_lt rfl hlt
    · rfl

theorem hasResult_logging (id : String) (m : FactModel) :
    HasResult (judgeLogging .nearest id m) := by
  unfold judgeLogging HasResult
  dsimp only
  split
  · exact ⟨_, rfl, rfl⟩
  · exact ⟨_, rfl, Number.ratio_isFinite Rounding.isMonotone_nearest (Nat.cast_nonneg _) (by omega)⟩

/-! ## What rules read -/

/-- What the facts of a kind hold. -/
inductive ValueType where
  | truth
  | count
  | label
deriving DecidableEq, Repr

namespace Kind

/-- The vocabulary, with the type of each kind. -/
def types : List (String × ValueType) :=
  [(moduleLength, .count), (lineLength, .count), (importGroupOrder, .truth),
    (wildcardImport, .truth), (testFile, .truth),
   (functionName, .label), (argumentName, .label), (className, .label), (functionLength, .count),
     (functionArgs, .count),
   (functionComplexity, .count), (loopDepth, .count), (docstringPresent, .truth),
     (classDocstringPresent, .truth),
   (classMethodCount, .count), (classBases, .count), (bareExcept, .truth), (broadExcept, .truth),
     (swallowedException, .truth),
   (globalStatement, .truth), (hardcodedSecret, .truth), (testName, .label),
     (testAssertions, .count), (logCall, .label),
   (eagerLogFormat, .truth), (loggerDefinition, .label), (printCall, .truth),
     (rangeLenLoop, .truth), (loopStringConcat, .truth),
   (gitignorePresent, .truth), (commitMessage, .label), (trackedArtifact, .truth)]

/-- A kind has one type. -/
theorem type_unique : ∀ entry ∈ types, ∀ other ∈ types, entry.1 = other.1 → entry.2 = other.2 := by
  decide +kernel

end Kind

/-- A fact can be read as a value of a type. Everything is true or not. -/
def Fact.ReadsAs (ρ : Rounding) (f : Fact) : ValueType → Prop
  | .truth => True
  | .count => ∃ x, f.number ρ = .ok x
  | .label => ∃ s, f.label = .ok s

/-- Every fact can be read as a value of the type of its kind. -/
def FactModel.IsReadable (m : FactModel) : Prop :=
  ∀ entry ∈ Kind.types, ∀ f ∈ m.ofKind entry.1, f.ReadsAs .nearest entry.2

section Conditions

variable {f : Fact}

/-- Without a selection a fact can be judged if the condition can be decided for it. -/
theorem canJudge_everything {predicate : FactPredicate} :
    CanJudge predicate Catalog.everything f ↔ predicate.Decides f := by
  constructor
  · rintro ⟨chosen, hchosen, h⟩
    cases hchosen
    exact h rfl
  · intro h
    exact ⟨true, rfl, fun _ => h⟩

/-- A condition on what is read can be decided exactly if there is something to read. -/
theorem exists_read_iff {ε α : Type} {x : Except ε α} {fault : ε → Fault} {p : α → Bool} :
    (∃ holds, (do return p (← x.mapError fault) : Except Fault Bool) = .ok holds) ↔
      ∃ a, x = .ok a := by
  constructor
  · rintro ⟨holds, h⟩
    obtain ⟨a, ha, -⟩ := bind_eq_ok_iff.mp h
    exact ⟨a, mapError_eq_ok_iff.mp ha⟩
  · rintro ⟨a, ha⟩
    exact ⟨p a, bind_eq_ok_iff.mpr ⟨a, mapError_eq_ok_iff.mpr ha, rfl⟩⟩

theorem canJudge_within (limit : Int) :
    CanJudge (Catalog.within ρ limit) Catalog.everything f ↔ f.ReadsAs ρ .count :=
  canJudge_everything.trans exists_read_iff

theorem canJudge_atLeast (limit : Number) :
    CanJudge (FactPredicate.atLeast ρ limit) Catalog.everything f ↔ f.ReadsAs ρ .count :=
  canJudge_everything.trans exists_read_iff

theorem canJudge_ofLabel (p : String → Bool) :
    CanJudge (FactPredicate.ofLabel p) Catalog.everything f ↔ f.ReadsAs ρ .label :=
  canJudge_everything.trans exists_read_iff

/-- Conditions that read no value can be decided for all facts. -/
theorem canJudge_truth {p q : Fact → Bool} :
    CanJudge (fun f => .ok (p f)) (fun f => .ok (q f)) f ↔ f.ReadsAs ρ .truth :=
  iff_of_true ⟨q f, rfl, fun _ => ⟨p f, rfl⟩⟩ trivial

end Conditions

/-! ## The catalog -/

/-- A rule has a result with a finite score. -/
def Rule.Gives (m : FactModel) (rule : Rule) : Prop :=
  ∃ res, rule.evaluate m = .result res ∧ res.score.isFinite = true

theorem gives_of_iff {id : String} {c : Category} {weight : Number} {description : String}
    {judge : FactModel → Except Fault RuleResult} {m : FactModel} :
    (Rule.of id c weight description judge).Gives m ↔ HasResult (judge m) :=
  exists_congr fun _ => and_congr_left fun _ => evaluate_of_eq_result_iff

/-- A message that can be written for a fact about nothing can be written for all facts. -/
theorem isMessage {message : String}
    (h : (Text.fill (Fact.templateFields ⟨"", .codebase, .bool true, ""⟩) message).isOk = true) :
    IsMessage message :=
  isMessage_of_one _ h

namespace Catalog

/-- The rules on shares, with the kind of facts that each of them is about. -/
def shares : List (String × String) :=
  [("layout.line_length", Kind.lineLength), ("layout.import_grouping", Kind.importGroupOrder),
   ("layout.wildcard_imports", Kind.wildcardImport), ("naming.function_names", Kind.functionName),
   ("naming.class_names", Kind.className), ("naming.argument_names", Kind.argumentName),
   ("naming.descriptive_arguments", Kind.argumentName),
     ("function_design.length", Kind.functionLength),
   ("function_design.docstrings", Kind.docstringPresent),
     ("function_design.arguments", Kind.functionArgs),
   ("function_design.complexity", Kind.functionComplexity),
     ("class_design.docstrings", Kind.classDocstringPresent),
   ("class_design.method_count", Kind.classMethodCount),
     ("class_design.base_count", Kind.classBases),
   ("error_handling.bare_except", Kind.bareExcept),
     ("error_handling.broad_except", Kind.broadExcept),
   ("error_handling.swallowed", Kind.swallowedException),
     ("configuration.module_size", Kind.moduleLength),
   ("testing.test_names", Kind.testName), ("testing.assertions", Kind.testAssertions),
   ("logging.module_loggers", Kind.loggerDefinition),
     ("logging.lazy_formatting", Kind.eagerLogFormat),
   ("performance.range_len", Kind.rangeLenLoop), ("performance.loop_nesting", Kind.loopDepth),
   ("performance.string_concat", Kind.loopStringConcat),
     ("version_control.commit_messages", Kind.commitMessage),
   ("version_control.tracked_artifacts", Kind.trackedArtifact)]

/-- The rules that take a penalty for each fact of a kind. -/
def penalties : List (String × String) :=
  [("configuration.hardcoded_secrets", Kind.hardcodedSecret),
    ("configuration.global_state", Kind.globalStatement)]

/-- The rules of other forms. -/
def others : List (String × String) :=
  [("testing.tests_present", Kind.testFile), ("testing.test_ratio", Kind.testFile),
   ("logging.logger_over_print", Kind.printCall),
     ("version_control.gitignore", Kind.gitignorePresent)]

/-- The kind of facts that each built-in rule is about. -/
def kinds : List (String × String) := shares ++ penalties ++ others

end Catalog

/-- A built-in rule that is about facts of a kind and reads them as values of a type. Whatever it
finds, it has a message for it and something to suggest. -/
inductive Rule.Reads (ρ : Rounding) : String → ValueType → Rule → Prop where
  | ratio {id : String} {c : Category} {weight : Nat} {description kind message suggestion : String}
      {type : ValueType}
      {predicate selector : FactPredicate} (listed : (id, kind) ∈ Catalog.shares)
      (judges : ∀ f, CanJudge predicate selector f ↔ f.ReadsAs ρ type) (writes : IsMessage message)
        (suggests : suggestion ≠ "") :
      Reads ρ kind type (Catalog.ratio ρ id c weight description kind predicate message suggestion
        selector)
  | penalty {id : String} {c : Category} {weight : Nat}
      {description kind message suggestion : String} {amount : Nat}
      (listed : (id, kind) ∈ Catalog.penalties) (range : (Catalog.hundredths amount).Within 0 1)
        (writes : IsMessage message)
      (suggests : suggestion ≠ "") :
      Reads ρ kind .truth (Catalog.penalty ρ id c weight description kind amount message suggestion)
  | presence {id : String} {c : Category} {weight : Nat}
      {description kind message suggestion : String}
      (listed : (id, kind) ∈ Catalog.others) (writes : IsMessage message)
        (suggests : suggestion ≠ "") :
      Reads ρ kind .truth (Catalog.presence id c weight description kind message suggestion)
  | testsPresent {id : String} {c : Category} {weight : Number} {description : String}
      (listed : (id, Kind.testFile) ∈ Catalog.others) :
      Reads ρ Kind.testFile .truth (.of id c weight description (judgeTestsPresent id))
  | testRatio {id : String} {c : Category} {weight : Number} {description : String}
      (listed : (id, Kind.testFile) ∈ Catalog.others) :
      Reads ρ Kind.testFile .truth (.of id c weight description (judgeTestRatio ρ id))
  | logging {id : String} {c : Category} {weight : Number} {description : String}
      (listed : (id, Kind.printCall) ∈ Catalog.others) :
      Reads ρ Kind.printCall .truth (.of id c weight description (judgeLogging ρ id))

theorem Rule.Reads.mem_kinds {kind : String} {type : ValueType} {rule : Rule}
    (h : rule.Reads ρ kind type) : (rule.id, kind) ∈ Catalog.kinds := by
  rw [Catalog.kinds, List.mem_append, List.mem_append]
  cases h with
  | ratio listed judges writes suggests => exact Or.inl (Or.inl listed)
  | penalty listed range writes suggests => exact Or.inl (Or.inr listed)
  | presence listed writes suggests => exact Or.inr listed
  | testsPresent listed => exact Or.inr listed
  | testRatio listed => exact Or.inr listed
  | logging listed => exact Or.inr listed

/-- **When a rule gives a result**: if all facts that it is about can be read. -/
theorem Rule.Reads.gives_iff {kind : String} {type : ValueType} {rule : Rule}
    (h : rule.Reads .nearest kind type) (m : FactModel) :
    rule.Gives m ↔ ∀ f ∈ m.ofKind kind, f.ReadsAs .nearest type := by
  cases h with
  | ratio listed judges writes suggests =>
      refine gives_of_iff.trans ((hasResult_ratio_iff Rounding.isMonotone_nearest ?_).trans
        (forall₂_congr fun f _ => judges f))
      exact writes
  | penalty listed range writes suggests =>
      exact iff_of_true (gives_of_iff.mpr (hasResult_penalty range writes)) fun f _ => trivial
  | presence listed writes suggests =>
      exact iff_of_true (gives_of_iff.mpr (hasResult_presence writes)) fun f _ => trivial
  | testsPresent listed =>
      exact iff_of_true (gives_of_iff.mpr (hasResult_testsPresent _ m)) fun f _ => trivial
  | testRatio listed =>
      exact iff_of_true (gives_of_iff.mpr (hasResult_testRatio _ m)) fun f _ => trivial
  | logging listed =>
      exact iff_of_true (gives_of_iff.mpr (hasResult_logging _ m)) fun f _ => trivial

/-- **What the rules of the catalog read**, whatever the limits are. -/
theorem catalog_reads (ρ : Rounding) (limits : Limits) :
    ∀ rule ∈ Catalog.rules ρ limits, ∃ kind type, (kind, type) ∈ Kind.types ∧
      rule.Reads ρ kind type := by
  have hcount : ∀ limit (f : Fact), CanJudge (Catalog.within ρ limit) Catalog.everything f ↔
      f.ReadsAs ρ .count :=
    fun limit _ => canJudge_within limit
  have hlabel : ∀ {p : String → Bool} (f : Fact), CanJudge (.ofLabel p) Catalog.everything f ↔
      f.ReadsAs ρ .label :=
    fun _ => canJudge_ofLabel _
  have htruth :
      ∀ {p q : Fact → Bool} (f : Fact), CanJudge (fun f => .ok (p f)) (fun f => .ok (q f)) f ↔
        f.ReadsAs ρ .truth :=
    fun _ => canJudge_truth
  -- three conditions read a value, each for all facts of its type
  simp only [Catalog.rules, List.forall_mem_append]
  refine ⟨⟨⟨⟨⟨⟨⟨⟨⟨?layout, ?naming⟩, ?functionDesign⟩, ?classDesign⟩, ?errorHandling⟩,
    ?configuration⟩, ?testing⟩, ?logging⟩, ?performance⟩, ?versionControl⟩
  case layout =>
      simp only [Catalog.layout, List.forall_mem_cons]
      exact ⟨⟨_, _, by simp [Kind.types], .ratio (by simp [Catalog.shares]) (hcount _)
        (isMessage (by decide +kernel)) (by simp)⟩,
        ⟨_, _, by simp [Kind.types], .ratio (by simp [Catalog.shares]) htruth
          (isMessage (by decide +kernel)) (by simp)⟩,
        ⟨_, _, by simp [Kind.types], .ratio (by simp [Catalog.shares]) htruth
          (isMessage (by decide +kernel)) (by simp)⟩, by simp⟩
  case naming =>
      simp only [Catalog.naming, List.forall_mem_cons]
      exact ⟨⟨_, _, by simp [Kind.types], .ratio (by simp [Catalog.shares]) hlabel
        (isMessage (by decide +kernel)) (by simp)⟩,
        ⟨_, _, by simp [Kind.types], .ratio (by simp [Catalog.shares]) hlabel
          (isMessage (by decide +kernel)) (by simp)⟩,
        ⟨_, _, by simp [Kind.types], .ratio (by simp [Catalog.shares]) hlabel
          (isMessage (by decide +kernel)) (by simp)⟩,
        ⟨_, _, by simp [Kind.types], .ratio (by simp [Catalog.shares]) hlabel
          (isMessage (by decide +kernel)) (by simp)⟩, by simp⟩
  case functionDesign =>
      simp only [Catalog.functionDesign, List.forall_mem_cons]
      exact ⟨⟨_, _, by simp [Kind.types], .ratio (by simp [Catalog.shares]) (hcount _)
        (isMessage (by decide +kernel)) (by simp)⟩,
        ⟨_, _, by simp [Kind.types], .ratio (by simp [Catalog.shares]) htruth
          (isMessage (by decide +kernel)) (by simp)⟩,
        ⟨_, _, by simp [Kind.types], .ratio (by simp [Catalog.shares]) (hcount _)
          (isMessage (by decide +kernel)) (by simp)⟩,
        ⟨_, _, by simp [Kind.types], .ratio (by simp [Catalog.shares]) (hcount _)
          (isMessage (by decide +kernel)) (by simp)⟩,
        by simp⟩
  case classDesign =>
      simp only [Catalog.classDesign, List.forall_mem_cons]
      exact ⟨⟨_, _, by simp [Kind.types], .ratio (by simp [Catalog.shares]) htruth
        (isMessage (by decide +kernel)) (by simp)⟩,
        ⟨_, _, by simp [Kind.types], .ratio (by simp [Catalog.shares]) (hcount _)
          (isMessage (by decide +kernel)) (by simp)⟩,
        ⟨_, _, by simp [Kind.types], .ratio (by simp [Catalog.shares]) (hcount _)
          (isMessage (by decide +kernel)) (by simp)⟩,
        by simp⟩
  case errorHandling =>
      simp only [Catalog.errorHandling, List.forall_mem_cons]
      exact ⟨⟨_, _, by simp [Kind.types], .ratio (by simp [Catalog.shares]) htruth
        (isMessage (by decide +kernel)) (by simp)⟩,
        ⟨_, _, by simp [Kind.types], .ratio (by simp [Catalog.shares]) htruth
          (isMessage (by decide +kernel)) (by simp)⟩,
        ⟨_, _, by simp [Kind.types], .ratio (by simp [Catalog.shares]) htruth
          (isMessage (by decide +kernel)) (by simp)⟩, by simp⟩
  case configuration =>
      have hrange : (Catalog.hundredths 50).Within 0 1 ∧ (Catalog.hundredths 20).Within 0 1 := by
        unfold Number.Within
        decide +kernel
      simp only [Catalog.configuration, List.forall_mem_cons]
      exact ⟨⟨_, _, by simp [Kind.types], .penalty (by simp [Catalog.penalties]) hrange.1
        (isMessage (by decide +kernel)) (by simp)⟩,
        ⟨_, _, by simp [Kind.types], .penalty (by simp [Catalog.penalties]) hrange.2
          (isMessage (by decide +kernel)) (by simp)⟩,
        ⟨_, _, by simp [Kind.types], .ratio (by simp [Catalog.shares]) (hcount _)
          (isMessage (by decide +kernel)) (by simp)⟩,
        by simp⟩
  case testing =>
      simp only [Catalog.testing, List.forall_mem_cons]
      exact ⟨⟨_, _, by simp [Kind.types], .testsPresent (by simp [Catalog.others])⟩,
        ⟨_, _, by simp [Kind.types], .testRatio (by simp [Catalog.others])⟩,
        ⟨_, _, by simp [Kind.types], .ratio (by simp [Catalog.shares]) hlabel
          (isMessage (by decide +kernel)) (by simp)⟩,
        ⟨_, _, by simp [Kind.types], .ratio (by simp [Catalog.shares]) (fun _ => canJudge_atLeast _)
          (isMessage (by decide +kernel))
          (by simp)⟩, by simp⟩
  case logging =>
      simp only [Catalog.logging, List.forall_mem_cons]
      exact ⟨⟨_, _, by simp [Kind.types], .logging (by simp [Catalog.others])⟩,
        ⟨_, _, by simp [Kind.types], .ratio (by simp [Catalog.shares]) hlabel
          (isMessage (by decide +kernel)) (by simp)⟩,
        ⟨_, _, by simp [Kind.types], .ratio (by simp [Catalog.shares]) htruth
          (isMessage (by decide +kernel)) (by simp)⟩, by simp⟩
  case performance =>
      simp only [Catalog.performance, List.forall_mem_cons]
      exact ⟨⟨_, _, by simp [Kind.types], .ratio (by simp [Catalog.shares]) htruth
        (isMessage (by decide +kernel)) (by simp)⟩,
        ⟨_, _, by simp [Kind.types], .ratio (by simp [Catalog.shares]) (hcount _)
          (isMessage (by decide +kernel)) (by simp)⟩,
        ⟨_, _, by simp [Kind.types], .ratio (by simp [Catalog.shares]) htruth
          (isMessage (by decide +kernel)) (by simp)⟩, by simp⟩
  case versionControl =>
      simp only [Catalog.versionControl, List.forall_mem_cons]
      exact ⟨⟨_, _, by simp [Kind.types], .presence (by simp [Catalog.others])
        (isMessage (by decide +kernel)) (by simp)⟩,
        ⟨_, _, by simp [Kind.types], .ratio (by simp [Catalog.shares]) hlabel
          (isMessage (by decide +kernel)) (by simp)⟩,
        ⟨_, _, by simp [Kind.types], .ratio (by simp [Catalog.shares]) htruth
          (isMessage (by decide +kernel)) (by simp)⟩, by simp⟩

/-- A run that did not fail, all of whose findings are of the kind of the rule. -/
def RuleRun.Succeeds (id : String) (run : RuleRun) : Prop :=
  run.outcome.failed = false ∧ ∀ x ∈ run.findings, x.kind = id

/-- A result with a finite score counts. -/
theorem judge_of_result {rule : Rule} {judge : FactModel → Except Fault RuleResult}
    {kinds : List String} (hform : rule.HasForm ρ judge kinds) {facts : List Fact}
    {files : List String} {root : String} {res : RuleResult}
    (h : rule.evaluate (.build facts files root) = .result res)
    (hfinite : res.score.isFinite = true) : rule.judge (.build facts files root) = .ok res := by
  rw [judge_of_form hform, hform.evaluate_eq_result_iff.mp h]
  exact if_pos hfinite

/-- A rule that gives a result does not fail. -/
theorem succeeds_of_gives {rule : Rule} {judge : FactModel → Except Fault RuleResult}
    {kinds : List String} (hform : rule.HasForm .nearest judge kinds) {facts : List Fact}
    {files : List String} {root : String} (h : rule.Gives (.build facts files root)) :
    (rule.run (.build facts files root)).Succeeds rule.id := by
  obtain ⟨res, hres, hfinite⟩ := h
  have hok := judge_of_result hform hres hfinite
  have hkind : ∀ x ∈ res.findings, x.kind = rule.id := by
    obtain ⟨suggestion, habout⟩ := hform.form.exists_suggestion
    intro x hx
    obtain ⟨location, message, rfl, -⟩ :=
      habout facts files root res (hform.evaluate_eq_result_iff.mp hres) x hx
    rfl
  unfold RuleRun.Succeeds Rule.run
  rw [hok]
  dsimp only
  split
  · exact ⟨rfl, hkind⟩
  · exact ⟨rfl, by simp⟩

/-- **No rule of the catalog fails** on a model whose facts can be read. -/
theorem catalog_succeeds (limits : Limits) {facts : List Fact} {files : List String} {root : String}
    (h : (FactModel.build facts files root).IsReadable) :
    ∀ rule ∈ Catalog.rules .nearest limits,
      (rule.run (.build facts files root)).Succeeds rule.id := by
  intro rule hrule
  obtain ⟨judge, kinds, hform⟩ := catalog_form .nearest limits rule hrule
  obtain ⟨kind, type, htype, hreads⟩ := catalog_reads .nearest limits rule hrule
  exact succeeds_of_gives hform ((hreads.gives_iff _).mpr (h _ htype))

/-! ## Reports -/

/-- A finding that says that a rule failed. -/
def Finding.IsFailure (x : Finding) : Prop := Text.startsWith x.kind "rule_error:" = true

instance (x : Finding) : Decidable x.IsFailure := inferInstanceAs (Decidable (_ = true))

/-- No rule failed, and no finding says that one did. -/
def Report.IsSound (report : Report) : Prop :=
  ∀ s ∈ report.scores, (∀ o ∈ s.outcomes, o.failed = false) ∧ ∀ x ∈ s.findings, ¬x.IsFailure

/-- The id of a rule of the catalog does not look like the kind of a failure. -/
theorem catalog_id_not_failure (limits : Limits) :
    ∀ rule ∈ Catalog.rules .nearest limits, Text.startsWith rule.id "rule_error:" = false :=
  Registry.forall_catalog (P := fun p => Text.startsWith p.id "rule_error:" = false)
    (by decide +kernel) limits

theorem isSound_of_scores {limits : Limits} {facts : List Fact} {files : List String}
    {root : String} {active : Option (List String)} {report : Report}
    (hreadable : (FactModel.build facts files root).IsReadable)
    (h : Category.all.mapM (evaluate .nearest (.build facts files root)
      (.builtIn .nearest limits) active) = .ok report.scores) :
    report.IsSound := by
  intro s hs
  obtain ⟨c, -, hevaluate⟩ :
      ∃ c ∈ Category.all, evaluate .nearest (.build facts files root)
        (.builtIn .nearest limits) active c = .ok s :=
    exists_of_mem_forall₂ (mapM_eq_ok_iff.mp h) hs
  obtain ⟨s', hs', hreports⟩ :=
    Registry.exists_builtIn_score limits (.build facts files root) active c
  obtain rfl : s' = s := Except.ok.inj (hs'.symm.trans hevaluate)
  have hrun : ∀ rule ∈ (Registry.builtIn .nearest limits).activeRules active c,
      (rule.run (.build facts files root)).Succeeds rule.id ∧
        Text.startsWith rule.id "rule_error:" = false := fun rule hrule =>
    have hcatalog := (Registry.mem_of_mem_activeRules hrule).1
    ⟨catalog_succeeds limits hreadable rule hcatalog, catalog_id_not_failure limits rule hcatalog⟩
  constructor
  · rw [hreports.outcomes_eq]
    intro o ho
    simp only [List.map_map, List.mem_map] at ho
    obtain ⟨rule, hrule, rfl⟩ := ho
    exact (hrun rule hrule).1.1
  · rw [hreports.findings_eq]
    intro x hx
    rcases List.mem_append.mp hx with hx | hx
    · simp only [List.mem_flatMap, List.mem_map] at hx
      obtain ⟨_, ⟨rule, hrule, rfl⟩, hx⟩ := hx
      rw [Finding.IsFailure, (hrun rule hrule).1.2 x hx, (hrun rule hrule).2]
      exact Bool.false_ne_true
    · -- the note on a category without facts
      unfold CategoryScore.note at hx
      split at hx
      · have hkind : x.kind = "vacuous" := congrArg Finding.kind (List.mem_singleton.mp hx)
        rw [Finding.IsFailure, hkind]
        decide
      · cases hx

/-- **No built-in rule fails** in a report on a model whose facts can be read. -/
theorem runWith_builtIn_isSound {facts : List Fact} {files : List String} {root : String}
    {limits : Limits} {c : Config} (hsound : c.Sound)
    (hknown : ∀ id ∈ c.enabled.getD [] ++ c.disabled,
      (Registry.builtIn .nearest limits).get? id ≠ none)
    (hreadable : (FactModel.build facts files root).IsReadable) {wait : Wait} {report : Report}
    (h : runWith .nearest (.build facts files root) c (.builtIn .nearest limits) wait =
      .ok report) : report.IsSound := by
  obtain ⟨scores, ⟨active, -, hscores, -⟩, hends⟩ :=
    runWith_builtIn_of_sound (.build facts files root) limits hsound hknown
  rw [← (hends wait).2 report h] at hscores
  exact isSound_of_scores hreadable hscores

end Scorecard
