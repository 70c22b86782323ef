import Mathlib.Data.Finset.Card
import Scorecard.Proofs.FactModel
import Scorecard.Proofs.RuleForm

set_option autoImplicit false

/-! # What a fact model counts

The counters of a model are taken from its index of kinds while it is built. Files are counted as a
set and definitions as a list (`counters_build`): a file with several facts, or with facts that
contradict each other, counts once, and so does the code base itself if a fact is about it. The test
files are among the files that are counted (`testFilesOf_subset`), so that the number of source
files is the number of the others, and the rule that divides by it asks for a positive one first.
-/

namespace Scorecard

/-! ## Sets of files -/

/-- The files of the facts with a property. -/
def filesWith (p : Fact → Prop) [DecidablePred p] (facts : List Fact) : Finset String :=
  ((facts.filter p).map (·.location.file)).toFinset

/-- The files that are counted: those with a length or with a word on whether they are test
files. -/
def moduleFiles (facts : List Fact) : Finset String :=
  filesWith (fun f => f.kind = Kind.moduleLength ∨ f.kind = Kind.testFile) facts

/-- The test files: those of which some fact says so, whatever others say. -/
def testFilesOf (facts : List Fact) : Finset String :=
  filesWith (fun f => f.kind = Kind.testFile ∧ f.value = .bool true) facts

section Files

variable {p q : Fact → Prop} [DecidablePred p] [DecidablePred q] {facts facts' : List Fact}

theorem mem_filesWith {file : String} :
    file ∈ filesWith p facts ↔ ∃ f ∈ facts, p f ∧ f.location.file = file := by
  simp [filesWith, and_assoc]

/-- Of a set of files, neither the order of the facts nor their number matters. -/
theorem filesWith_congr (h : ∀ f, f ∈ facts ↔ f ∈ facts') :
    filesWith p facts = filesWith p facts' := by
  ext file
  simp only [mem_filesWith, h]

theorem filesWith_subset (h : ∀ f, p f → q f) : filesWith p facts ⊆ filesWith q facts := by
  intro file hfile
  obtain ⟨f, hf, hp, hfile⟩ := mem_filesWith.mp hfile
  exact mem_filesWith.mpr ⟨f, hf, h f hp, hfile⟩

theorem testFilesOf_subset (facts : List Fact) : testFilesOf facts ⊆ moduleFiles facts :=
  filesWith_subset fun _ h => Or.inr h.1

end Files

/-- The number of distinct files among some facts is the size of the set of their files. -/
theorem countFiles_eq_card (facts : List Fact) :
    countFiles facts = (facts.map (·.location.file)).toFinset.card := by
  have hset :
      (facts.map (·.location.file)).toFinset =
        (facts.map (·.location.file)).eraseDups.toFinset := by
    ext file
    simp
  rw [hset, List.toFinset_card_of_nodup (nodup_eraseDups _), countFiles]

/-! ## Counters -/

theorem Fact.isTrue_iff {f : Fact} : f.isTrue = true ↔ f.value = .bool true := decide_eq_true_iff

/-- What there is to count in some facts, counted without an index. -/
def Counters.expected (facts : List Fact) : Counters where
  totalFiles := (moduleFiles facts).card
  testFiles := (testFilesOf facts).card
  totalFunctions :=
    if facts.countP (·.kind = Kind.functionLength) =
      0 then facts.countP (·.kind = Kind.docstringPresent)
    else facts.countP (·.kind = Kind.functionLength)
  documentedFunctions := facts.countP fun f => f.kind = Kind.docstringPresent ∧ f.value = .bool true
  totalClasses := facts.countP (·.kind = Kind.className)

section Build

variable (facts : List Fact) (files : List String) (root : String)

theorem totalFiles_eq_card :
    (FactModel.build facts files root).counters.totalFiles = (moduleFiles facts).card := by
  rw [FactModel.totalFiles_build, countFiles_eq_card]
  congr 1
  ext file
  -- a fact of either kind is found in one of the two entries of the index
  simp only [moduleFiles, mem_filesWith, List.mem_toFinset, List.mem_map, List.mem_append,
    List.mem_filter, decide_eq_true_eq]
  constructor
  · rintro ⟨f, ⟨hf, hkind⟩ | ⟨hf, hkind⟩, hfile⟩
    · exact ⟨f, hf, Or.inl hkind, hfile⟩
    · exact ⟨f, hf, Or.inr hkind, hfile⟩
  · rintro ⟨f, hf, hkind | hkind, hfile⟩
    · exact ⟨f, Or.inl ⟨hf, hkind⟩, hfile⟩
    · exact ⟨f, Or.inr ⟨hf, hkind⟩, hfile⟩

theorem testFiles_eq_card :
    (FactModel.build facts files root).counters.testFiles = (testFilesOf facts).card := by
  rw [FactModel.testFiles_build, countFiles_eq_card]
  congr 1
  ext file
  simp only [testFilesOf, mem_filesWith, List.mem_toFinset, List.mem_map, List.mem_filter,
    decide_eq_true_eq, Fact.isTrue_iff, and_assoc]

/-- **Counters count what they say.** -/
theorem counters_build : (FactModel.build facts files root).counters = .expected facts := by
  have hkind : ∀ kind, (facts.filter (·.kind = kind)).length = facts.countP (·.kind = kind) :=
    fun kind => List.countP_eq_length_filter.symm
  have hdocumented : ((facts.filter (·.kind = Kind.docstringPresent)).filter (·.isTrue)).length =
      facts.countP fun f => f.kind = Kind.docstringPresent ∧ f.value = .bool true := by
    rw [List.filter_filter, ← List.countP_eq_length_filter]
    refine List.countP_congr fun f _ => ?_
    simp [Fact.isTrue_iff, and_comm]
  have htotal := totalFiles_eq_card facts files root
  have htests := testFiles_eq_card facts files root
  simp only [FactModel.build, Counters.of, FactIndex.get_of] at htotal htests ⊢
  rw [htotal, htests, hdocumented]
  simp only [hkind]
  rfl

theorem testFiles_le_totalFiles :
    (FactModel.build facts files root).counters.testFiles ≤
      (FactModel.build facts files root).counters.totalFiles := by
  rw [testFiles_eq_card, totalFiles_eq_card]
  exact Finset.card_le_card (testFilesOf_subset facts)

/-- The source files are the files that are no test files. -/
theorem sourceFiles_eq_card :
    (FactModel.build facts files root).counters.sourceFiles =
      ((moduleFiles facts \ testFilesOf facts).card : Int) := by
  have hle := Finset.card_le_card (testFilesOf_subset facts)
  rw [Counters.sourceFiles, totalFiles_eq_card, testFiles_eq_card,
    Finset.card_sdiff_of_subset (testFilesOf_subset facts)]
  omega

/-- **Counting does not see the order of the facts.** -/
theorem counters_perm {facts facts' : List Fact} (h : facts.Perm facts') (files : List String)
    (root : String) :
    (FactModel.build facts' files root).counters = (FactModel.build facts files root).counters := by
  have hmem : ∀ f, f ∈ facts' ↔ f ∈ facts := fun f => h.mem_iff.symm
  have hexpected : Counters.expected facts' = .expected facts := by
    simp only [Counters.expected, moduleFiles, testFilesOf, filesWith_congr hmem, h.countP_eq]
  calc (FactModel.build facts' files root).counters
      = .expected facts' := counters_build facts' files root
    _ = .expected facts := hexpected
    _ = (FactModel.build facts files root).counters := (counters_build facts files root).symm

end Build

/-- The rule on the ratio of test modules always comes to a result. -/
theorem exists_judgeTestRatio (ρ : Rounding) (id : String) (m : FactModel) :
    ∃ res, judgeTestRatio ρ id m = .ok res ∧
      (res.applicable = true ↔ 0 < m.counters.sourceFiles) := by
  by_cases hsources : m.counters.sourceFiles ≤ 0
  · refine ⟨_, judgeTestRatio_of_nonpos hsources, ?_⟩
    simp [RuleResult.notApplicable, hsources]
  · have hpos : 0 < m.counters.sourceFiles := by omega
    exact ⟨_, judgeTestRatio_of_pos hpos, by simp [applicable_testRatioResult, hpos]⟩

/-! ## The model -/

/-- **A fact model is faithful to its facts.** The facts of a kind and of a file are those with this
kind or file, in order. The files are those of the facts and the given ones, without the code base,
and every fact lies in the code base. The files are counted as sets: the test files are some of all
files, and the source files the others, so that their number is not negative and the rule on the
ratio of test modules never divides by zero. No counter depends on the order of the facts. -/
theorem model_is_faithful (facts : List Fact) (files : List String) (root : String) :
    let m := FactModel.build facts files root
    (∀ kind, m.ofKind kind = facts.filter (·.kind = kind)) ∧
    (∀ file, m.inFile file = facts.filter (·.location.file = file)) ∧
    (m.files.Pairwise (· < ·) ∧
      ∀ file, file ∈ m.files ↔ (file ∈ files ∨ ∃ f ∈ facts, f.location.file = file) ∧
        file ≠ wholeCodebase) ∧
    (∀ f ∈ facts, m.contains f.location = true) ∧
    (m.counters = .expected facts ∧ m.counters.testFiles ≤ m.counters.totalFiles ∧
      m.counters.sourceFiles = ((moduleFiles facts \ testFilesOf facts).card : Int) ∧
        0 ≤ m.counters.sourceFiles) ∧
    (∀ ρ id, ∃ res, judgeTestRatio ρ id m = .ok res ∧
      (res.applicable = true ↔ 0 < m.counters.sourceFiles)) ∧
    ∀ facts', facts.Perm facts' → (FactModel.build facts' files root).counters = m.counters := by
  intro m
  have hsources := sourceFiles_eq_card facts files root
  refine ⟨FactModel.ofKind_build facts files root, FactModel.inFile_build facts files root,
    ⟨?_, FactModel.mem_files_build facts files root⟩,
      fun f hf => FactModel.contains_build_of_mem files root hf,
    ⟨counters_build facts files root, testFiles_le_totalFiles facts files root, hsources, ?_⟩,
    fun ρ id => exists_judgeTestRatio ρ id m, fun facts' hperm => counters_perm hperm files root⟩
  · exact Text.sortedSet_pairwise_lt _
  · rw [hsources]
    exact Int.natCast_nonneg _

/-- Two facts contradict each other on `a.py`, which counts as one test file. A number is no word on
`b.py`, and the code base counts as a file because a length is given for it, although it is none of
the files. -/
theorem model_is_faithful_contradicted :
    let facts : List Fact :=
      [⟨Kind.testFile, .ofFile "a.py", .bool true, ""⟩,
        ⟨Kind.testFile, .ofFile "a.py", .bool false, ""⟩,
       ⟨Kind.testFile, .ofFile "b.py", .int 1, ""⟩, ⟨Kind.moduleLength, .codebase, .int 3, ""⟩]
    let m := FactModel.build facts [".", "c.py"] "."
    m.counters = { totalFiles := 3, testFiles := 1 } ∧ m.counters.sourceFiles = 2 ∧
      (∀ file, file ∈ m.files ↔ file = "c.py" ∨ file = "a.py" ∨ file = "b.py") ∧
      (FactModel.build facts.reverse [".", "c.py"] ".").counters = m.counters := by
  intro facts m
  obtain ⟨-, -, ⟨-, hfiles⟩, -, ⟨hcounters, -, hsources, -⟩, -, hperm⟩ :=
    model_is_faithful facts [".", "c.py"] "."
  refine ⟨hcounters.trans (by decide +kernel), hsources.trans (by decide +kernel), fun file => ?_,
    hperm _ (List.reverse_perm facts).symm⟩
  rw [hfiles file]
  simp only [facts, wholeCodebase, Location.codebase, Location.ofFile, List.mem_cons,
    List.not_mem_nil, or_false, exists_eq_or_imp, exists_eq_left]
  constructor
  · rintro ⟨(rfl | rfl) | rfl | rfl | rfl | rfl, hne⟩ <;> simp_all
  · rintro (rfl | rfl | rfl) <;> decide

end Scorecard
