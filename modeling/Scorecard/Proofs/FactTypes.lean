import Scorecard.Proofs.Extraction
import Scorecard.Proofs.IntegerRange
import Scorecard.Proofs.RuleTotality

set_option autoImplicit false

/-! # The types of facts

Every kind of the vocabulary has a type: its facts hold truth values, counts or labels. All that is
extracted from a code base has the type of its kind, and its counts are bounded by the sizes of the
files (`typed_of_extract`), and so are its lines (`hasWritableLines_of_extract`). These are the
types for which the built-in rules are made, so that none of them fails on an extracted model
(`extracted_facts_suit_builtIn`).
-/

namespace Scorecard

open Source (Node Label)

/-! ## Types -/

/-- A value of a type. A count is below a limit. -/
def FactValue.HasType (limit : Nat) : ValueType → FactValue → Prop
  | .truth, .bool _ => True
  | .count, .int n => n.natAbs < limit
  | .label, .text _ => True
  | _, _ => False

/-- A fact of a kind in the vocabulary that holds a value of the type of this kind. -/
def Fact.Typed (limit : Nat) (f : Fact) : Prop :=
  ∃ type, (f.kind, type) ∈ Kind.types ∧ f.value.HasType limit type

/-- Facts that all have their types. -/
abbrev AllTyped (limit : Nat) (facts : List Fact) : Prop := ∀ f ∈ facts, f.Typed limit

section

variable {limit : Nat} {kind : String} {location : Location} {subject : String}

theorem typed_truth (b : Bool) (h : (kind, .truth) ∈ Kind.types) :
    Fact.Typed limit ⟨kind, location, .bool b, subject⟩ :=
  ⟨.truth, h, trivial⟩

theorem typed_label (s : String) (h : (kind, .label) ∈ Kind.types) :
    Fact.Typed limit ⟨kind, location, .text s, subject⟩ :=
  ⟨.label, h, trivial⟩

theorem typed_int {n : Int} (hn : n.natAbs < limit) (h : (kind, .count) ∈ Kind.types) :
    Fact.Typed limit ⟨kind, location, .int n, subject⟩ := ⟨.count, h, hn⟩

theorem typed_count {n : Nat} (hn : n < limit) (h : (kind, .count) ∈ Kind.types) :
    Fact.Typed limit ⟨kind, location, .int n, subject⟩ := typed_int (by rwa [Int.natAbs_natCast]) h

theorem FactValue.HasType.mono {limit' : Nat} {type : ValueType} {v : FactValue}
    (h : v.HasType limit type) (hle : limit ≤ limit') : v.HasType limit' type := by
  cases type <;> cases v <;> first | exact h | exact lt_of_lt_of_le h hle

theorem Fact.Typed.mono {f : Fact} {limit' : Nat} (h : f.Typed limit) (hle : limit ≤ limit') :
    f.Typed limit' :=
  let ⟨type, htype, hvalue⟩ := h
  ⟨type, htype, hvalue.mono hle⟩

/-- What has its type can be read, a count as long as it is in the range of numbers. -/
theorem Fact.Typed.readsAs {f : Fact} (h : f.Typed Rounding.tooLargeFrom) {type : ValueType}
    (htype : (f.kind, type) ∈ Kind.types) : f.ReadsAs .nearest type := by
  obtain ⟨type', htype', hvalue⟩ := h
  obtain rfl : type' = type := Kind.type_unique _ htype' _ htype rfl
  cases hfact : f.value <;> cases type' <;> rw [hfact] at hvalue
  case int.count n =>
      have hlt : n.natAbs < Rounding.tooLargeFrom := hvalue
      obtain ⟨x, hx⟩ :=
        Option.ne_none_iff_exists'.mp (mt (Number.ofInt?_eq_none_iff n).mp hlt.not_ge)
      exact ⟨x, by simp [Fact.number, hfact, hx]⟩
  case bool.truth b => trivial
  case text.label s => exact ⟨s, by rw [Fact.label, hfact]; rfl⟩
  all_goals cases hvalue

end

/-! ## Facts of a syntax tree -/

namespace Source.Node

variable {limit : Nat} {n : Node}

theorem typed_functionFacts (h : n.Slight limit) (s : Setting) (name : String) :
    AllTyped limit (n.functionFacts s name) := by
  have hsize := h.size
  have hargs := length_countedParameters s.inClass n
  have hcomplexity := complexity_le n
  have hloops := loopDepth_lt n
  have hasserts := assertions_le n
  -- every count is below the size of the function, which is what keeps it below the limit
  refine List.forall_mem_append.mpr ⟨List.forall_mem_append.mpr ⟨?_, ?_⟩, ?_⟩
  · simp only [List.forall_mem_cons]
    exact ⟨typed_label _ (by simp [Kind.types]),
      typed_int h.span (by simp [Kind.types]),
      typed_count (by omega) (by simp [Kind.types]),
      typed_truth _ (by simp [Kind.types]),
      typed_count (by omega) (by simp [Kind.types]),
      typed_count (by omega) (by simp [Kind.types]),
      List.forall_mem_nil _⟩
  · exact List.forall_mem_map.mpr fun p _ => typed_label _ (by simp [Kind.types])
  · split
    · simp only [List.forall_mem_cons]
      exact ⟨typed_label _ (by simp [Kind.types]),
        typed_count (by omega) (by simp [Kind.types]),
        List.forall_mem_nil _⟩
    · exact List.forall_mem_nil _

theorem typed_classFacts (h : n.Slight limit) (s : Setting) (name : String) :
    AllTyped limit (n.classFacts s name) := by
  have hsize := h.size
  have hbody := length_part_lt n .body
  have hmethods : ((n.part .body).filter (·.label.isFunction)).length ≤ (n.part .body).length :=
    List.length_filter_le _ _
  have hbases := length_part_lt n .base
  simp only [AllTyped, classFacts, List.forall_mem_cons]
  exact ⟨typed_label _ (by simp [Kind.types]),
    typed_truth _ (by simp [Kind.types]),
    typed_count (by omega) (by simp [Kind.types]),
    typed_count (by omega) (by simp [Kind.types]),
    List.forall_mem_nil _⟩

theorem typed_secretFacts (s : Setting) (n target : Node) :
    AllTyped limit (n.secretFacts s target) := by
  unfold secretFacts
  split
  · split
    · exact List.forall_mem_singleton.mpr (typed_truth _ (by simp [Kind.types]))
    · exact List.forall_mem_nil _
  · exact List.forall_mem_nil _

theorem typed_plainFacts (s : Setting) (n : Node) : AllTyped limit (n.plainFacts s) := by
  have hconcat : Fact.Typed limit (n.concatFact s) := typed_truth _ (by simp [Kind.types])
  have hrange : Fact.Typed limit (n.rangeLenFact s) := typed_truth _ (by simp [Kind.types])
  have hsecrets : AllTyped limit ((n.part .target).flatMap (n.secretFacts s)) := by
    intro f hf
    obtain ⟨target, -, hf⟩ := List.mem_flatMap.mp hf
    exact typed_secretFacts s n target f hf
  unfold plainFacts
  split
  · simp only [AllTyped, handlerFacts, List.forall_mem_cons]
    exact ⟨typed_truth _ (by simp [Kind.types]),
      typed_truth _ (by simp [Kind.types]),
      typed_truth _ (by simp [Kind.types]),
      List.forall_mem_nil _⟩
  · exact hsecrets
  · exact hsecrets
  · exact List.forall_mem_cons.mpr ⟨hrange, List.forall_mem_singleton.mpr hconcat⟩
  · exact List.forall_mem_singleton.mpr hconcat
  · exact List.forall_mem_nil _

theorem typed_callFacts {s : Setting} {found : List Fact} (h : n.callFacts s = .ok found) :
    AllTyped limit found := by
  rcases callFacts_cases h with rfl | rfl | ⟨asked, rfl⟩ | ⟨method, rfl⟩
  · exact List.forall_mem_nil _
  · exact List.forall_mem_singleton.mpr (typed_truth _ (by simp [Kind.types]))
  · exact List.forall_mem_singleton.mpr (typed_label _ (by simp [Kind.types]))
  · exact List.forall_mem_cons.mpr
      ⟨typed_label _ (by simp [Kind.types]), List.forall_mem_map.mpr fun m _ =>
        typed_truth _ (by simp [Kind.types])⟩

/-- Every node gives rise to facts that have their types. -/
theorem typed_ownFacts (hn : n.Slight limit) {s : Setting} {found : List Fact}
    (h : n.ownFacts s = .ok found) : AllTyped limit found := by
  unfold ownFacts at h
  split at h
  · cases h
    exact typed_functionFacts hn s _
  · cases h
    exact typed_classFacts hn s _
  · cases h
    exact List.forall_mem_map.mpr fun name _ => typed_truth _ (by simp [Kind.types])
  · exact typed_callFacts h
  · cases h
    exact typed_plainFacts s n

/-- So does every visit. -/
theorem typed_facts (hleaves : n.GlobalsAreLeaves) (hslight : ∀ m ∈ n.walk, m.Slight limit)
    {path : String} {isTest : Bool} {found : List Fact} (h : n.facts path isTest = .ok found) :
    AllTyped limit found := by
  obtain ⟨parts, hparts, rfl⟩ := (facts_eq_ok_iff path isTest hleaves).mp h
  intro f hf
  -- each fact is emitted at a place of the tree, and depends on the node that stands there
  obtain ⟨part, hpart, hf⟩ := List.mem_flatten.mp hf
  obtain ⟨place, hplace, hown⟩ := exists_of_mem_forall₂ hparts hpart
  have hwalk : place.2 ∈ n.walk := by
    rw [← map_places []]
    exact List.mem_map_of_mem hplace
  exact typed_ownFacts (hslight _ hwalk) hown f hf

end Source.Node

/-! ## Facts of a file -/

theorem typed_lineFacts (path : String) (bytes : List Nat) :
    AllTyped (24 * bytes.length + 4) (lineFacts path (sourceText bytes)) := by
  have htext := length_sourceText bytes
  have hlines := Text.length_lines (sourceText bytes)
  simp only [AllTyped, lineFacts, List.forall_mem_append, List.forall_mem_cons]
  refine ⟨⟨typed_count (by omega) (by simp [Kind.types]), typed_truth _ (by simp [Kind.types]),
    List.forall_mem_nil _⟩, ?_⟩
  split
  case h_1 number length h =>
      have hlength := longestLine_le h
      exact List.forall_mem_singleton.mpr (typed_count (by omega) (by simp [Kind.types]))
  case h_2 => exact List.forall_mem_nil _

theorem typed_importFacts (limit : Nat) (path : String) (localModules : List String) (tree : Node) :
    AllTyped limit (importOrderFacts path localModules tree ++ wildcardFacts path tree) := by
  refine List.forall_mem_append.mpr ⟨?_, ?_⟩
  · unfold importOrderFacts
    dsimp only
    split
    · exact List.forall_mem_singleton.mpr (typed_truth _ (by simp [Kind.types]))
    · exact List.forall_mem_nil _
  · intro f hf
    obtain ⟨n, -, hf⟩ := List.mem_filterMap.mp hf
    split at hf
    · cases hf
      exact typed_truth _ (by simp [Kind.types])
    · cases hf

theorem typed_moduleFacts [Text.CharacterNames] {path : String} {localModules : List String}
    {bytes : List Nat} {found : List Fact}
    (h : moduleFacts path localModules (Source.parse (sourceText bytes)) = .ok found) :
    AllTyped (24 * bytes.length + 4) found := by
  cases htree : Source.parse (sourceText bytes) with
  | none =>
      rw [htree] at h
      cases h
      exact List.forall_mem_nil _
  | some tree =>
      rw [htree] at h
      obtain ⟨visited, hvisited, h⟩ := bind_eq_ok_iff.mp h
      cases h
      have hleaves : tree.GlobalsAreLeaves :=
        fun m hm => ((Source.parse_bounds htree).1 m hm).globals
      exact List.forall_mem_append.mpr
        ⟨typed_importFacts _ path localModules tree,
          Node.typed_facts hleaves (parse_slight htree) hvisited⟩

/-! ## Facts of a code base -/

section

variable {t : FileTree} {root : List String} {modules : List String} {most limit : Nat}

theorem typed_extractFile [Text.CharacterNames] (hfiles : t.FilesBelow most) {names : List String}
    {e : Extraction} (h : extractFile t root modules names = .ok e) :
    AllTyped (24 * most) e.facts := by
  unfold extractFile at h
  split at h
  case h_1 bytes hentry =>
      dsimp only at h
      split at h
      · cases h
      · cases h
        rename_i facts hfacts
        obtain ⟨found, hfound, hfacts⟩ := bind_eq_ok_iff.mp hfacts
        cases hfacts
        have hsmall := hfiles.length_lt hentry
        -- the limit of one file grows with its bytes, the limit of all files is the one of the
        -- largest
        have hfacts :
            AllTyped (24 * bytes.length + 4)
              (lineFacts (relativePath names) (sourceText bytes) ++ found) :=
          List.forall_mem_append.mpr ⟨typed_lineFacts _ bytes, typed_moduleFacts hfound⟩
        exact fun f hf => (hfacts f hf).mono (by omega)
  case h_2 => cases h
  case h_3 => cases h

theorem typed_extractFiles [Text.CharacterNames] (hfiles : t.FilesBelow most)
    {places : List (List String)} {e : Extraction}
    (h : extractFiles t root modules places = .ok e) : AllTyped (24 * most) e.facts := by
  induction places generalizing e with
  | nil =>
      cases h
      exact List.forall_mem_nil _
  | cons names rest ih =>
      obtain ⟨first, hfirst, h⟩ := bind_eq_ok_iff.mp h
      obtain ⟨more, hmore, h⟩ := bind_eq_ok_iff.mp h
      cases h
      exact List.forall_mem_append.mpr ⟨typed_extractFile hfiles hfirst, ih hmore⟩

theorem typed_gitignoreExtraction (t : FileTree) (root : List String) :
    AllTyped limit (gitignoreExtraction t root).facts := by
  unfold gitignoreExtraction
  split <;> exact List.forall_mem_singleton.mpr (typed_truth _ (by simp [Kind.types]))

theorem typed_historyExtraction (commits : List Commit) (tracked : List String) :
    AllTyped limit (historyExtraction commits tracked).facts :=
  List.forall_mem_append.mpr
    ⟨List.forall_mem_map.mpr fun c _ => typed_label _ (by simp [Kind.types]),
      List.forall_mem_map.mpr fun path _ => typed_truth _ (by simp [Kind.types])⟩

/-- Whatever git replies. -/
theorem typed_extractHistory {git : Git} {withGit : Bool} {history : Extraction}
    (h : extractHistory git root withGit = .ok history) : AllTyped limit history.facts := by
  rcases extractHistory_cases h with ⟨hnone, -⟩ | ⟨log, listed, hhistory⟩
  · rw [hnone]
    exact List.forall_mem_nil _
  · rw [hhistory]
    exact typed_historyExtraction _ _

/-- **All that is extracted has its type.** -/
theorem typed_of_extract [Text.CharacterNames] {git : Git} {path : Path} {s : Selection}
    {m : FactModel} {warnings : List Warning} (hfiles : t.FilesBelow most)
    (h : extract t git path s = .ok (m, warnings)) : AllTyped (24 * most) m.facts := by
  simp only [extract] at h
  split at h
  · cases h
  · obtain ⟨sources, hsources, h⟩ := bind_eq_ok_iff.mp h
    obtain ⟨history, hhistory, h⟩ := bind_eq_ok_iff.mp h
    obtain ⟨facts, hfacts, h⟩ := bind_eq_ok_iff.mp h
    cases h
    -- the check lets facts through as they are
    obtain ⟨rfl, -⟩ := Fact.mapM_check_eq_ok (mapError_eq_ok_iff.mp hfacts)
    refine List.forall_mem_append.mpr ⟨List.forall_mem_append.mpr ⟨?_, ?_⟩, ?_⟩
    · exact typed_extractFiles hfiles hsources
    · exact typed_gitignoreExtraction t _
    · exact typed_extractHistory (mapError_eq_ok_iff.mp hhistory)

end

/-! ## Lines of extracted facts -/

theorem isPrintable_iff {n : Int} : isPrintable n = true ↔ n.natAbs < 10 ^ digitLimit :=
  decide_eq_true_iff.trans (Nat.length_toDigits_le_iff (by decide) (by decide))

/-- A line with no more than a thousand binary digits can be written. -/
theorem LineNumber.exists_text {n : LineNumber} (h : n.value.natAbs ≤ 2 ^ 1000) :
    ∃ text, n.text = .ok text := by
  cases n with
  | flag b => exact ⟨_, rfl⟩
  | int n =>
      have hpow : ∀ k, k ≠ 0 → k ≤ digitLimit → 2 ^ k < 10 ^ digitLimit := fun k hk hle =>
        (Nat.pow_lt_pow_left (by decide) hk).trans_le (Nat.pow_le_pow_right (by decide) hle)
      exact ⟨Int.repr n,
        if_pos (isPrintable_iff.mpr (lt_of_le_of_lt h (hpow 1000 (by decide) (by decide))))⟩

theorem Location.isWritable_of_start {l : Location} (h : l.start.value = 0) : l.IsWritable :=
  ⟨l.file, if_pos h⟩

theorem Location.isWritable_of_bounds {l : Location} (hstart : l.start.value.natAbs ≤ 2 ^ 1000)
    (hstop : l.stop.value.natAbs ≤ 2 ^ 1000) : l.IsWritable := by
  obtain ⟨first, hfirst⟩ := LineNumber.exists_text hstart
  obtain ⟨last, hlast⟩ := LineNumber.exists_text hstop
  unfold IsWritable text
  rw [hfirst, hlast]
  split
  · exact ⟨_, rfl⟩
  · simp only [bind, Except.bind]
    split <;> exact ⟨_, rfl⟩

/-- The lines of extracted facts are lines of their files, so they can be written. -/
theorem hasWritableLines_of_extract [Text.CharacterNames] {t : FileTree} {git : Git} {path : Path}
    {s : Selection} {m : FactModel} {warnings : List Warning} (hfiles : t.FilesBelow (2 ^ 1000))
    (h : extract t git path s = .ok (m, warnings)) :
    m.HasWritableLines := by
  have hfacts := facts_of_extract h
  obtain ⟨facts, files, root, rfl, -⟩ := exists_build_of_extract h
  refine ⟨facts, files, root, rfl, fun f hf => ?_⟩
  change facts = _ at hfacts
  rw [hfacts] at hf
  rcases List.mem_append.mp hf with hf | hf
  · obtain ⟨names, -, hf⟩ := List.mem_flatMap.mp hf
    have hplace := inFile_blockAt hfiles (t.resolve path) names f hf
    have hstart := hplace.start
    have hordered := hplace.ordered
    have hstop := hplace.stop
    exact Location.isWritable_of_bounds (by omega) (by omega)
  · -- the facts of the version control are about whole files
    apply Location.isWritable_of_start
    rcases mem_controlBlock hf with hf | ⟨c, rfl⟩ | ⟨file, -, rfl⟩
    · unfold gitignoreExtraction at hf
      split at hf <;> cases List.mem_singleton.mp hf <;> rfl
    · rfl
    · rfl

/-! ## Rules on extracted facts -/

theorem isReadable_of_typed {m : FactModel}
    (hbuilt : ∃ facts files root, m = .build facts files root)
    (h : AllTyped Rounding.tooLargeFrom m.facts) : m.IsReadable := by
  obtain ⟨facts, files, root, rfl⟩ := hbuilt
  rintro ⟨kind, type⟩ htype f hf
  rw [FactModel.ofKind_build, List.mem_filter, decide_eq_true_iff] at hf
  obtain ⟨hf, rfl⟩ := hf
  exact (h f hf).readsAs htype

/-- The counts in files of fewer than `2 ^ 1000` bytes are in the range of numbers. -/
theorem countLimit_le : 24 * 2 ^ 1000 ≤ Rounding.tooLargeFrom := by
  calc 24 * 2 ^ 1000 = 24 * 2 ^ 30 * 2 ^ 970 := by rw [mul_assoc, ← pow_add]
    _ ≤ (2 ^ 54 - 1) * 2 ^ 970 := Nat.mul_le_mul_right _ (by norm_num)
    _ = Rounding.tooLargeFrom := by rw [Nat.sub_mul, ← pow_add, one_mul, Rounding.tooLargeFrom]

/-- **The extractor and the built-in rules agree on types.** Whatever the files and the replies of
git are, each extracted fact is of a kind of the vocabulary and holds a value of the type of this
kind. With a configuration that is read and names known rules only, no built-in rule fails on these
facts: if the waiting does not fail, there is a report, in which no outcome is a failure and no
finding speaks of one. It is the report of the run, unless a limit cannot be written. However the
tasks of a run are waited for, a report that it gives is of this sort. Files have to be small enough
for their lines and characters to be counted in numbers. -/
theorem extracted_facts_suit_builtIn [Text.CharacterNames] (t : FileTree) (git : Git) (path : Path)
    (s : Selection) (m : FactModel) (warnings : List Warning)
    (hextract : extract t git path s = .ok (m, warnings)) (source : String) (fields : Fields)
    (c : Config) (hread : Config.ofFields .nearest source fields = .ok c)
    (hknown : ∀ id ∈ c.enabled.getD [] ++ c.disabled,
      (Registry.builtIn .nearest c.limits).get? id ≠ none) :
    (∃ limit, AllTyped limit m.facts) ∧
      (t.FilesBelow (2 ^ 1000) →
        (∀ wait : Wait, wait.error? c.budget = none →
          ∃ report, runWith .nearest m c (.builtIn .nearest c.limits) wait = .ok report ∧
            report.IsSound ∧
            run .nearest m c wait =
              if c.limits.arePrintable then .ok report else .error .unprintable) ∧
        ∀ wait report, run .nearest m c wait = .ok report → report.IsSound) := by
  obtain ⟨most, hmost⟩ := t.exists_filesBelow
  refine ⟨⟨_, typed_of_extract hmost hextract⟩, fun hfiles => ?_⟩
  have htyped : AllTyped Rounding.tooLargeFrom m.facts :=
    fun f hf => (typed_of_extract hfiles hextract f hf).mono countLimit_le
  have hlines := hasWritableLines_of_extract hfiles hextract
  have hsound := Config.ofFields_sound hread
  obtain ⟨facts, modelFiles, root, rfl, -⟩ := exists_build_of_extract hextract
  have hreadable := isReadable_of_typed ⟨facts, modelFiles, root, rfl⟩ htyped
  obtain ⟨scores, hscores, hends⟩ :=
    runWith_builtIn_of_sound (.build facts modelFiles root) c.limits hsound hknown
  refine ⟨fun wait hwait => ?_, fun wait report hreport => ?_⟩
  · obtain ⟨report, hrun, -⟩ :=
      ((hends wait).1 hwait).report (areWritable_builtIn hlines hscores.choose_spec.2.1 _)
    refine ⟨report, hrun, runWith_builtIn_isSound hsound hknown hreadable hrun, ?_⟩
    cases hprintable : c.limits.arePrintable with
    | false => exact run_of_not_printable hprintable _ wait
    | true => exact (run_of_printable hprintable _ wait).trans hrun
  · -- a run that gives a report has written its limits
    cases hprintable : c.limits.arePrintable with
    | false => cases (run_of_not_printable hprintable _ wait).symm.trans hreport
    | true =>
        rw [run_of_printable hprintable] at hreport
        exact runWith_builtIn_isSound hsound hknown hreadable hreport

/-- A repository with a module, a file that is no module, and a file that git does not look at. -/
def mixedRepository : FileTree where
  home := ["w"]
  entries :=
    [(["w", "a.py"], .file (Text.encode "def f(x):\n    for y in x:\n        log.info(y)\n")),
     (["w", "b.py"], .file (Text.encode "def\n")), (["w", ".gitignore"], .file [])]

/-- The replies of git in this repository. -/
def mixedReplies : Git
  | .workTree => .output "true\n"
  | .log _ => .output "abc\tAdd f\n"
  | .files => .output "a.py\x00"

theorem selectedFiles_mixedRepository :
    selectedFiles mixedRepository ["w"] {} = [["a.py"], ["b.py"]] := by
  have hsorted :
      [["a.py"], ["b.py"], [".gitignore"]].mergeSort Path.precedes =
        [[".gitignore"], ["a.py"], ["b.py"]] := by
    simp +decide [List.mergeSort, List.MergeSort.Internal.splitInTwo]
  change (([["a.py"], ["b.py"], [".gitignore"]].mergeSort Path.precedes).eraseDups).filter _ = _
  rw [hsorted]
  rfl

theorem extracted_facts_suit_builtIn_mixed :
    let fields : Fields := [("rules", .table [("disable", .list [.text "naming.class_names"])])]
    let c : Config := { disabled := ["naming.class_names"], source := some "scorecard.toml" }
    mixedRepository.FilesBelow (2 ^ 1000) ∧
      Config.ofFields .nearest "scorecard.toml" fields = .ok c ∧
      (∀ id ∈ c.enabled.getD [] ++ c.disabled,
        (Registry.builtIn .nearest c.limits).get? id ≠ none) ∧
      ∃ m, extract mixedRepository mixedReplies ⟨false, []⟩ {} = .ok (m, [.notParsed "b.py"]) ∧
        m.facts.length = 20 ∧
        (∃ limit, AllTyped limit m.facts) ∧
        ∃ report, run .nearest m c .complete = .ok report ∧ report.IsSound := by
  intro fields c
  have hfiles : mixedRepository.FilesBelow (2 ^ 1000) := by decide +kernel
  have hread : Config.ofFields .nearest "scorecard.toml" fields = .ok c := by decide +kernel
  have hknown : ∀ id ∈ c.enabled.getD [] ++ c.disabled,
      (Registry.builtIn .nearest c.limits).get? id ≠ none :=
    Registry.get?_ne_none_of_contains (by decide +kernel)
  -- the model is too large to be written out, so only its size and the warnings are evaluated
  have hfound :
      (extract mixedRepository mixedReplies ⟨false, []⟩ {}).toOption.map
        (fun p => (p.1.facts.length, p.2)) =
      some (20, [.notParsed "b.py"]) := by
    have hroot : mixedRepository.resolve ⟨false, []⟩ = ["w"] := rfl
    simp only [extract, hroot, selectedFiles_mixedRepository]
    decide +kernel
  obtain ⟨⟨m, warnings⟩, hok, hm⟩ := Option.map_eq_some_iff.mp hfound
  obtain ⟨hlength, rfl⟩ := Prod.mk.inj hm
  have hextract :
      extract mixedRepository mixedReplies ⟨false, []⟩ {} = .ok (m, [.notParsed "b.py"]) := by
    cases h : extract mixedRepository mixedReplies ⟨false, []⟩ {} with
    | error e =>
        rw [h] at hok
        cases hok
    | ok found =>
        rw [h] at hok
        cases hok
        rfl
  obtain ⟨htyped, hreports⟩ := extracted_facts_suit_builtIn _ _ _ _ m _ hextract _ _ c hread hknown
  obtain ⟨report, -, hsound, hrun⟩ := (hreports hfiles).1 .complete rfl
  have hprintable : c.limits.arePrintable = true := by decide +kernel
  exact ⟨hfiles, hread, hknown, m, hextract, hlength, htyped, report,
    hrun.trans (if_pos hprintable), hsound⟩

end Scorecard
