import Scorecard.Proofs.FactPlaces
import Scorecard.Proofs.FactsDocument
import Scorecard.Proofs.FileTree
import Scorecard.Proofs.GitReplies
import Scorecard.Proofs.MetricBounds

set_option autoImplicit false

/-! # Extraction by file

The facts of a code base are made file by file. A file gives the same block of facts whatever else
there is, as long as the modules of the code base have the same names; the facts are the blocks of
the selected places in the order of paths, followed by those of the version control. So to filter
files is to drop blocks, and to write over a file is to change one block.

A selected place need not be a file: a directory whose name ends like that of a source file stops
the extraction, and so do a file that asks for a logger by an expression that cannot be written and
a reply of git that is no text. Nothing else does (`exists_extract_iff`).
-/

namespace Scorecard

open Source (Node)

variable {t t' : FileTree} {git : Git} {path : Path} {s : Selection} {root names : List String}
  {modules modules' : List String}

/-! ## Selected places -/

/-- What a selected place has to be. -/
theorem selects_iff : s.selects names = true ↔
    Text.endsWith (names.getLast?.getD "") ".py" = true ∧
      (∀ parent ∈ names.dropLast, parent ∉ skippedDirectories) ∧
      (s.included = [] ∨ ∃ pattern ∈ s.included, Text.fits pattern (relativePath names) = true) ∧
      ∀ pattern ∈ s.excluded, Text.fits pattern (relativePath names) = false := by
  simp [Selection.selects, and_assoc]

/-- A path ends as its last name does. -/
theorem endsWith_relativePath {ending : String} (hne : names ≠ [])
    (h : Text.endsWith (names.getLast?.getD "") ending = true) :
    Text.endsWith (relativePath names) ending = true := by
  induction names with
  | nil => exact absurd rfl hne
  | cons name rest ih =>
      cases rest with
      | nil =>
          rw [relativePath, String.intercalate_singleton]
          exact h
      | cons next rest =>
          rw [List.getLast?_cons_cons] at h
          have hrest := ih (List.cons_ne_nil _ _) h
          rw [Text.endsWith, List.isSuffixOf_iff_suffix, relativePath,
            String.toList_intercalate] at hrest ⊢
          -- the first name and a slash stand before the rest
          rw [List.map_cons, List.map_cons, List.intercalate_cons_cons, ← List.map_cons]
          exact hrest.trans (List.suffix_append _ _)

/-- The path of a selected place is neither empty nor the code base. -/
theorem relativePath_ne (h : Text.endsWith (names.getLast?.getD "") ".py" = true) :
    relativePath names ≠ "" ∧ relativePath names ≠ wholeCodebase := by
  have hne : names ≠ [] := by
    rintro rfl
    revert h
    decide
  have hends := endsWith_relativePath hne h
  constructor
  · intro hpath
    rw [hpath] at hends
    revert hends
    decide
  · intro hpath
    rw [hpath] at hends
    revert hends
    decide

theorem mem_selectedFiles_iff :
    names ∈ selectedFiles t root s ↔ names ≠ [] ∧ (t.entryAt (root ++ names)).isSome ∧
      s.selects names = true := by
  rw [selectedFiles, List.mem_filter, FileTree.mem_below_iff, and_assoc]

/-- Filters only drop places. -/
theorem filter_selectedFiles (t : FileTree) (root : List String) (s : Selection) (withGit : Bool) :
    (selectedFiles t root { withGit }).filter s.selects = selectedFiles t root s := by
  rw [selectedFiles, selectedFiles, List.filter_filter]
  refine List.filter_congr fun names _ => ?_
  -- what passes the filters is selected without them
  have hall : s.selects names = true → Selection.selects { withGit } names = true := by
    intro h
    obtain ⟨hending, hparents, -⟩ := selects_iff.mp h
    exact selects_iff.mpr ⟨hending, hparents, Or.inl rfl, List.forall_mem_nil _⟩
  cases hselects : s.selects names with
  | false => rfl
  | true => rw [hall hselects]; rfl

/-! ## The version control -/

/-- What git says of a code base, if it can be read. -/
def historyOf (git : Git) (root : List String) (withGit : Bool) : Extraction :=
  (extractHistory git root withGit).toOption.getD {}

/-- The facts of the version control. -/
def controlBlock (t : FileTree) (git : Git) (root : List String) (withGit : Bool) : List Fact :=
  (gitignoreExtraction t root).facts ++ (historyOf git root withGit).facts

/-- What git says of a code base can be read. -/
def Git.IsLegible (git : Git) (root : List String) (withGit : Bool) : Prop :=
  ∃ history, extractHistory git root withGit = .ok history

theorem historyOf_eq {withGit : Bool} {history : Extraction}
    (h : extractHistory git root withGit = .ok history) : historyOf git root withGit = history := by
  rw [historyOf, h]
  rfl

/-- Git is legible if all its replies are texts. -/
theorem isLegible_of_not_garbles (h : ∀ u, ¬git.Garbles u) (root : List String) (withGit : Bool) :
    git.IsLegible root withGit := by
  by_cases hanswers : withGit = true ∧ ∃ log listed, git.Answers log listed
  · obtain ⟨rfl, log, listed, hanswers⟩ := hanswers
    exact ⟨_, extractHistory_of_answers hanswers root⟩
  · rcases extractHistory_of_not_answers hanswers root with ⟨ws, hnone⟩ | ⟨-, u, hgarbles, -⟩
    · exact ⟨_, hnone⟩
    · exact absurd hgarbles (h u)

/-- The history is complete, or there is none. -/
theorem historyOf_cases (git : Git) (root : List String) (withGit : Bool) :
    ((historyOf git root withGit).facts = [] ∧ (historyOf git root withGit).files = []) ∨
      ∃ log listed,
        historyOf git root withGit = historyExtraction (Git.commitsIn log)
          (Git.filesIn listed) := by
  cases h : extractHistory git root withGit with
  | error u =>
      rw [historyOf, h]
      exact Or.inl ⟨rfl, rfl⟩
  | ok history =>
      rw [historyOf_eq h]
      exact extractHistory_cases h

/-- What the version control gives rise to. -/
theorem mem_controlBlock {withGit : Bool} {f : Fact} (h : f ∈ controlBlock t git root withGit) :
    f ∈ (gitignoreExtraction t root).facts ∨ (∃ c, f = Commit.fact c) ∨ ∃ file, file ≠ "" ∧
      f = trackedFact file := by
  rcases List.mem_append.mp h with h | h
  · exact Or.inl h
  · right
    rcases historyOf_cases git root withGit with ⟨hnone, -⟩ | ⟨log, listed, hhistory⟩
    · rw [hnone] at h
      cases h
    · rw [hhistory, historyExtraction, List.mem_append, List.mem_map, List.mem_map] at h
      rcases h with ⟨c, -, rfl⟩ | ⟨file, hfile, rfl⟩
      · exact Or.inl ⟨c, rfl⟩
      · -- git separates paths, and what is between two separators is no path
        have hne := (List.mem_filter.mp ((Git.filesIn_perm listed).mem_iff.mp hfile)).2
        exact Or.inr ⟨file, of_decide_eq_true hne, rfl⟩

theorem kind_controlBlock {withGit : Bool} :
    ∀ f ∈ controlBlock t git root withGit, f.kind ∈ Kind.versionControl := by
  intro f hf
  rcases mem_controlBlock hf with h | ⟨c, rfl⟩ | ⟨file, -, rfl⟩
  · unfold gitignoreExtraction at h
    split at h
    · cases List.mem_singleton.mp h
      show Kind.gitignorePresent ∈ Kind.versionControl
      decide
    · cases List.mem_singleton.mp h
      show Kind.gitignorePresent ∈ Kind.versionControl
      decide
  · show Kind.commitMessage ∈ Kind.versionControl
    decide
  · show Kind.trackedArtifact ∈ Kind.versionControl
    decide

theorem valid_controlBlock (t : FileTree) (git : Git) (root : List String) (withGit : Bool) :
    ∀ f ∈ controlBlock t git root withGit, f.Valid := by
  have hwhole : ∀ {kind file : String} (value : FactValue) (subject : String), kind ≠ "" →
      file ≠ "" → Fact.Valid ⟨kind, .ofFile file, value, subject⟩ :=
    fun _ _ hkind hfile => ⟨⟨hfile, Int.le_refl _, Int.le_refl _⟩, hkind⟩
  intro f hf
  rcases mem_controlBlock hf with h | ⟨c, rfl⟩ | ⟨file, hfile, rfl⟩
  · unfold gitignoreExtraction at h
    split at h
    · cases List.mem_singleton.mp h
      exact hwhole _ _ (by decide) (by decide)
    · cases List.mem_singleton.mp h
      exact hwhole _ _ (by decide) (by decide)
  · exact hwhole _ _ (by decide) (by decide)
  · exact hwhole _ _ (by decide) hfile

/-! ## Trees of one shape -/

/-- The modules of a code base depend on its shape only. -/
theorem mem_localModules_of_sameShape (h : t.SameShape t') (root : List String) (m : String) :
    m ∈ localModules t root ↔ m ∈ localModules t' root := by
  have hin : ∀ place, m ∈ modulesIn t place ↔ m ∈ modulesIn t' place := by
    intro place
    simp only [modulesIn, List.mem_filterMap, FileTree.mem_children_iff, h.isSome_entryAt, (h _).2]
  rw [localModules, localModules, List.mem_append, List.mem_append, hin, hin]

theorem selectedFiles_of_sameShape (h : t.SameShape t') (root : List String) (s : Selection) :
    selectedFiles t' root s = selectedFiles t root s := by
  rw [selectedFiles, selectedFiles, h.below_eq]

theorem controlBlock_of_sameShape (h : t.SameShape t') (git : Git) (root : List String)
    (withGit : Bool) : controlBlock t' git root withGit = controlBlock t git root withGit := by
  rw [controlBlock, controlBlock, gitignoreExtraction, gitignoreExtraction, (h _).1]

/-! ## The block of a file -/

theorem importGroup_congr (h : ∀ m, m ∈ modules ↔ m ∈ modules') :
    importGroup modules = importGroup modules' := by
  have hcontains : ∀ m, modules.contains m = modules'.contains m := fun m => by
    rw [Bool.eq_iff_iff, List.contains_iff_mem, List.contains_iff_mem, h]
  funext module level
  simp only [importGroup, hcontains]

/-- Only which modules there are matters, not their order. -/
theorem fileFacts_congr (h : ∀ m, m ∈ modules ↔ m ∈ modules') (path text : String)
    (tree : Option Node) :
    fileFacts path modules text tree = fileFacts path modules' text tree := by
  have hgroups : importGroups modules = importGroups modules' := by
    funext n
    simp only [importGroups, importGroup_congr h]
  cases tree with
  | none => rfl
  | some tree => simp only [fileFacts, moduleFacts, importOrderFacts, hgroups]

theorem map_kind_lineFacts (path text : String) :
    (lineFacts path text).map (·.kind) =
      [Kind.moduleLength, Kind.testFile] ++ if Text.lines text = [] then []
        else [Kind.lineLength] := by
  rcases lineFacts_cases path text with ⟨hnil, h⟩ | ⟨number, length, hlongest, h⟩
  · rw [h, if_pos hnil]
    rfl
  · rw [h, if_neg hlongest.ne_nil]
    rfl

section Blocks

variable [Text.CharacterNames]

/-- The facts of a file with some bytes. -/
def fileBlock (path : String) (modules : List String) (bytes : List Nat) : List Fact :=
  (fileFacts path modules (sourceText bytes) (Source.parse (sourceText bytes))).toOption.getD []

/-- The facts of the file at a place below the root. -/
def blockAt (t : FileTree) (root names : List String) : List Fact :=
  match t.entryAt (root ++ names) with
  | some (.file bytes) => fileBlock (relativePath names) (localModules t root) bytes
  | _ => []

/-- A place below the root with a file whose facts can be made. -/
def IsReadable (t : FileTree) (root names : List String) : Prop :=
  ∃ bytes, t.entryAt (root ++ names) = some (.file bytes) ∧
    ¬AsksForUnwritableLogger (sourceText bytes)

theorem fileBlock_congr (h : ∀ m, m ∈ modules ↔ m ∈ modules') (path : String) (bytes : List Nat) :
    fileBlock path modules bytes = fileBlock path modules' bytes := by
  rw [fileBlock, fileBlock, fileFacts_congr h]

/-- A text that is no module has the facts about its lines only. -/
theorem fileBlock_of_parse_eq_none {bytes : List Nat} (h : Source.parse (sourceText bytes) = none)
    (path : String) (modules : List String) :
    fileBlock path modules bytes = lineFacts path (sourceText bytes) := by
  rw [fileBlock, h]
  exact List.append_nil _

/-! ## Files -/

/-- The facts of a file are its block, if they can be made. -/
theorem fileFacts_eq_blockAt {bytes : List Nat}
    (hfile : t.entryAt (root ++ names) = some (.file bytes))
    (hwritable : ¬AsksForUnwritableLogger (sourceText bytes)) :
    fileFacts (relativePath names) (localModules t root) (sourceText bytes)
      (Source.parse (sourceText bytes)) = .ok (blockAt t root names) := by
  obtain ⟨facts, hfacts⟩ :=
    (exists_fileFacts_iff (relativePath names) (localModules t root) (sourceText bytes)).mpr
    hwritable
  rw [blockAt, hfile]
  dsimp only
  rw [fileBlock, hfacts]
  rfl

theorem facts_of_extractFile (h : IsReadable t root names) :
    ∃ e, extractFile t root (localModules t root) names = .ok e ∧
      e.facts = blockAt t root names := by
  obtain ⟨bytes, hfile, hwritable⟩ := h
  rw [extractFile, hfile]
  dsimp only
  rw [fileFacts_eq_blockAt hfile hwritable]
  exact ⟨_, rfl, rfl⟩

theorem isReadable_of_extractFile {e : Extraction} (h : extractFile t root modules names = .ok e) :
    IsReadable t root names := by
  unfold extractFile at h
  split at h
  · rename_i bytes hfile
    dsimp only at h
    split at h
    · cases h
    · rename_i facts hfacts
      exact ⟨bytes, hfile, (exists_fileFacts_iff _ _ _).mp ⟨facts, hfacts⟩⟩
  · cases h
  · cases h

/-- Files one after the other give their blocks one after the other. -/
theorem facts_of_extractFiles {places : List (List String)}
    (h : ∀ names ∈ places, IsReadable t root names) :
    ∃ e, extractFiles t root (localModules t root) places = .ok e ∧ e.facts = places.flatMap
      (blockAt t root) := by
  induction places with
  | nil => exact ⟨_, rfl, rfl⟩
  | cons names rest ih =>
      obtain ⟨hnames, hrest⟩ := List.forall_mem_cons.mp h
      obtain ⟨first, hfirst, hfacts⟩ := facts_of_extractFile hnames
      obtain ⟨more, hmore, hmorefacts⟩ := ih hrest
      refine ⟨first.append more, ?_, ?_⟩
      · rw [extractFiles, hfirst, hmore]
        rfl
      · rw [Extraction.append, hfacts, hmorefacts, List.flatMap_cons]

theorem isReadable_of_extractFiles {places : List (List String)} {e : Extraction}
    (h : extractFiles t root modules places = .ok e) :
    ∀ names ∈ places, IsReadable t root names := by
  induction places generalizing e with
  | nil => exact List.forall_mem_nil _
  | cons names rest ih =>
      obtain ⟨first, hfirst, h⟩ := bind_eq_ok_iff.mp h
      obtain ⟨more, hmore, -⟩ := bind_eq_ok_iff.mp h
      exact List.forall_mem_cons.mpr ⟨isReadable_of_extractFile hfirst, ih hmore⟩

/-- Whether files can be read is seen by extracting from them alone, which does not sort. -/
theorem isReadable_of_isOk {places : List (List String)}
    (h : (extractFiles t root [] places).isOk = true) : ∀ names ∈ places, IsReadable t root names :=
  isReadable_of_extractFiles (exists_of_isOk h).choose_spec

/-- The facts of a block are about lines of its file, and none is about the version control. -/
theorem inFile_blockAt {most : Nat} (hfiles : t.FilesBelow most) (root names : List String) :
    AllInFile (Kind.ofText ++ Kind.ofSyntax) (relativePath names) most (blockAt t root names) := by
  unfold blockAt fileBlock
  split
  · rename_i bytes hfile
    cases hfacts :
        fileFacts (relativePath names) (localModules t root) (sourceText bytes)
          (Source.parse (sourceText bytes)) with
    | error fault => exact List.forall_mem_nil _
    | ok facts =>
        obtain ⟨found, hfound, rfl⟩ := fileFacts_eq_ok_iff.mp hfacts
        -- there are no more lines than characters, and no more characters than bytes
        have hbytes := hfiles.length_lt hfile
        have hlines : (Text.lines (sourceText bytes)).length ≤ bytes.length :=
          (Text.length_lines _).trans (length_sourceText bytes)
        have hnewlines := Text.length_lines_eq (not_mem_sourceText bytes)
        refine List.forall_mem_append.mpr ⟨fun f hf => ?_, fun f hf => ?_⟩
        · exact (inFile_lineFacts _ _ f hf).mono (List.subset_append_left _ _) (by omega)
        · exact (inFile_moduleFacts hfound f hf).mono (List.subset_append_right _ _) (by omega)
  · exact List.forall_mem_nil _

/-! ## The code base -/

/-- The facts of a code base are the blocks of the selected places, then those of the version
control. -/
theorem extract_of_isReadable (hroot : t.isDirectoryAt (t.resolve path) = true)
    (h : ∀ names ∈ selectedFiles t (t.resolve path) s, IsReadable t (t.resolve path) names)
    (hgit : git.IsLegible (t.resolve path) s.withGit) :
    ∃ m ws, extract t git path s = .ok (m, ws) ∧ m.facts =
      (selectedFiles t (t.resolve path) s).flatMap
        (blockAt t (t.resolve path)) ++ controlBlock t git (t.resolve path) s.withGit := by
  obtain ⟨e, hfiles, hfacts⟩ := facts_of_extractFiles h
  obtain ⟨history, hhistory⟩ := hgit
  let all := (e.append (gitignoreExtraction t (t.resolve path))).append history
  have hall : all.facts =
      (selectedFiles t (t.resolve path) s).flatMap (blockAt t (t.resolve path)) ++
        controlBlock t git (t.resolve path) s.withGit := by
    rw [controlBlock, historyOf_eq hhistory, ← hfacts, ← List.append_assoc]
    rfl
  have hvalid : ∀ f ∈ all.facts, f.Valid := by
    rw [hall]
    refine List.forall_mem_append.mpr ⟨fun f hf => ?_, valid_controlBlock t git _ _⟩
    obtain ⟨names, hnames, hf⟩ := List.mem_flatMap.mp hf
    obtain ⟨most, hfiles⟩ := t.exists_filesBelow
    have hblock := inFile_blockAt hfiles (t.resolve path) names
    exact (hblock f hf).valid (by decide)
      (relativePath_ne (selects_iff.mp (List.mem_filter.mp hnames).2).1).1
  -- every fact passes the check, so that the model is built of all of them
  have hchecked : (all.facts.mapM Fact.check).mapError ExtractError.fact = .ok all.facts :=
    mapError_eq_ok_iff.mpr (Fact.mapM_check hvalid)
  refine ⟨.build all.facts all.files (FileTree.textOf (t.resolve path)), all.warnings, ?_, hall⟩
  simp only [extract, hroot, hfiles, hhistory]
  exact bind_eq_ok_iff.mpr ⟨e, rfl, bind_eq_ok_iff.mpr ⟨history, rfl,
    bind_eq_ok_iff.mpr ⟨all.facts, hchecked, rfl⟩⟩⟩

theorem exists_extract_iff :
    (∃ m ws, extract t git path s = .ok (m, ws)) ↔ t.isDirectoryAt (t.resolve path) = true ∧
      (∀ names ∈ selectedFiles t (t.resolve path) s, IsReadable t (t.resolve path) names) ∧
      git.IsLegible (t.resolve path) s.withGit := by
  constructor
  · rintro ⟨m, ws, h⟩
    simp only [extract] at h
    split at h
    · cases h
    · rename_i hroot
      obtain ⟨sources, hsources, h⟩ := bind_eq_ok_iff.mp h
      obtain ⟨history, hhistory, -⟩ := bind_eq_ok_iff.mp h
      exact ⟨by simpa using hroot, isReadable_of_extractFiles hsources, history,
        mapError_eq_ok_iff.mp hhistory⟩
  · rintro ⟨hroot, hreadable, hgit⟩
    obtain ⟨m, ws, h, -⟩ := extract_of_isReadable hroot hreadable hgit
    exact ⟨m, ws, h⟩

theorem facts_of_extract {m : FactModel} {ws : List Warning}
    (h : extract t git path s = .ok (m, ws)) :
    m.facts = (selectedFiles t (t.resolve path) s).flatMap
      (blockAt t (t.resolve path)) ++ controlBlock t git (t.resolve path) s.withGit := by
  obtain ⟨hroot, hreadable, hgit⟩ := exists_extract_iff.mp ⟨m, ws, h⟩
  obtain ⟨m', ws', h', hfacts⟩ := extract_of_isReadable hroot hreadable hgit
  cases h.symm.trans h'
  exact hfacts

theorem ofKind_of_extract {m : FactModel} {ws : List Warning}
    (h : extract t git path s = .ok (m, ws)) (kind : String) :
    m.ofKind kind = m.facts.filter (·.kind = kind) := by
  obtain ⟨facts, files, root, rfl, -⟩ := exists_build_of_extract h
  exact FactModel.ofKind_build facts files root kind

/-! ## Filters -/

/-- What can be read without filters can be read with them, and the blocks of other places are
dropped. -/
theorem extract_filtered {m : FactModel} {ws : List Warning}
    (h : extract t git path { withGit := s.withGit } = .ok (m, ws)) :
    ∃ m' ws', extract t git path s = .ok (m', ws') ∧ m'.facts =
      ((selectedFiles t (t.resolve path) { withGit := s.withGit }).filter s.selects).flatMap
        (blockAt t (t.resolve path)) ++ controlBlock t git (t.resolve path) s.withGit := by
  obtain ⟨hroot, hreadable, hgit⟩ := exists_extract_iff.mp ⟨m, ws, h⟩
  have hfilter := filter_selectedFiles t (t.resolve path) s s.withGit
  rw [hfilter]
  refine extract_of_isReadable hroot (fun names hnames => hreadable names ?_) hgit
  rw [← hfilter] at hnames
  exact List.mem_of_mem_filter hnames

/-! ## Writing over a file -/

variable {bytes : List Nat}

/-- Another file keeps its block. -/
theorem blockAt_of_write (hfile : t.isFileAt (root ++ names) = true)
    (h : t.write (root ++ names) bytes = .ok t') {other : List String} (hother : other ≠ names) :
    blockAt t' root other = blockAt t root other := by
  -- the modules of the code base may be listed in another order, but they are the same
  have hshape := FileTree.sameShape_of_write hfile h
  have hne : root ++ other ≠ root ++ names := fun heq => hother (List.append_cancel_left heq)
  rw [blockAt, blockAt, FileTree.entryAt_of_write hfile h, if_neg hne]
  split
  · exact fileBlock_congr (fun m => (mem_localModules_of_sameShape hshape root m).symm) _ _
  · rfl

/-- The file has the block of what is written. -/
theorem blockAt_of_write_self (hfile : t.isFileAt (root ++ names) = true)
    (h : t.write (root ++ names) bytes = .ok t') :
    blockAt t' root names = fileBlock (relativePath names) (localModules t root) bytes := by
  have hshape := FileTree.sameShape_of_write hfile h
  rw [blockAt, FileTree.entryAt_of_write hfile h, if_pos rfl]
  exact fileBlock_congr (fun m => (mem_localModules_of_sameShape hshape root m).symm) _ _

theorem not_asksForUnwritableLogger {text : String} (h : Source.parse text = none) :
    ¬AsksForUnwritableLogger text := by
  rintro ⟨tree, htree, -⟩
  rw [h] at htree
  cases htree

/-- A text that is no module does not stop the extraction. -/
theorem isReadable_of_write (hfile : t.isFileAt (root ++ names) = true)
    (h : t.write (root ++ names) bytes = .ok t') (hparse : Source.parse (sourceText bytes) = none)
    {other : List String} (hother : IsReadable t root other) : IsReadable t' root other := by
  obtain ⟨old, hold, hwritable⟩ := hother
  have hentry := FileTree.entryAt_of_write hfile h (root ++ other)
  by_cases hplace : root ++ other = root ++ names
  · exact ⟨bytes, hentry.trans (if_pos hplace), not_asksForUnwritableLogger hparse⟩
  · exact ⟨old, (hentry.trans (if_neg hplace)).trans hold, hwritable⟩

/-- A text that is no module, written over a file, changes the block of this file to its facts about
lines, and no other block. -/
theorem extract_of_write (hfile : t.isFileAt (t.resolve path ++ names) = true)
    (hwrite : t.write (t.resolve path ++ names) bytes = .ok t')
    (hparse : Source.parse (sourceText bytes) = none) {m : FactModel} {ws : List Warning}
    (h : extract t git path s = .ok (m, ws)) :
    ∃ m' ws', extract t' git path s = .ok (m', ws') ∧ m'.facts =
      ((selectedFiles t (t.resolve path) s).flatMap fun other =>
        if other = names then lineFacts (relativePath names) (sourceText bytes) else blockAt t
          (t.resolve path) other) ++
        controlBlock t git (t.resolve path) s.withGit := by
  have hshape := FileTree.sameShape_of_write hfile hwrite
  have hresolve := FileTree.resolve_of_write hwrite path
  have hselected := selectedFiles_of_sameShape hshape (t.resolve path) s
  obtain ⟨hroot, hreadable, hgit⟩ := exists_extract_iff.mp ⟨m, ws, h⟩
  -- writing a file changes no entry but its own, so the walk selects the same places
  have hblocks : ∀ other, blockAt t' (t.resolve path) other =
      if other = names then lineFacts (relativePath names) (sourceText bytes)
        else blockAt t (t.resolve path) other := by
    intro other
    by_cases hother : other = names
    · rw [if_pos hother, hother, blockAt_of_write_self hfile hwrite,
        fileBlock_of_parse_eq_none hparse]
    · rw [if_neg hother, blockAt_of_write hfile hwrite hother]
  have hroot' : t'.isDirectoryAt (t'.resolve path) = true := by
    rw [hresolve, ← (hshape (t.resolve path)).2]
    exact hroot
  have hreadable' : ∀ other ∈ selectedFiles t' (t'.resolve path) s,
      IsReadable t' (t'.resolve path) other := by
    rw [hresolve, hselected]
    exact fun other hother => isReadable_of_write hfile hwrite hparse (hreadable other hother)
  obtain ⟨m', ws', h', hfacts⟩ := extract_of_isReadable hroot' hreadable' (hresolve ▸ hgit)
  refine ⟨m', ws', h', ?_⟩
  rw [hfacts, hresolve, hselected, controlBlock_of_sameShape hshape,
    List.flatMap_congr fun other _ => hblocks other]

/-! ## Extraction by file -/

/-- **Extraction by file.** The selected places are the entries below the root with the ending of a
source file and without a skipped directory on the way that fit the filters, in the order of paths,
and there are facts if and only if each of them is a file that can be read and what git says can be
read too, as it can if all its replies are texts. The facts are then the blocks of these files,
followed by a block of the version control that no filter changes. A block depends on the path of
the file, on its bytes and on which modules the code base has. So filters drop blocks from the facts
of the whole code base, and to write something that is no module over a file leaves all blocks but
its own, which keeps its facts about lines. -/
theorem extraction_by_file (t : FileTree) (git : Git) (path : Path) (s : Selection) :
    let root := t.resolve path
    let selected := selectedFiles t root s
    let unfiltered := selectedFiles t root { withGit := s.withGit }
    let control := controlBlock t git root s.withGit
    (selected.Pairwise Path.Before ∧ ∀ names, names ∈ selected ↔
      names ≠ [] ∧ (t.entryAt (root ++ names)).isSome ∧
        Text.endsWith (names.getLast?.getD "") ".py" = true ∧
        (∀ parent ∈ names.dropLast, parent ∉ skippedDirectories) ∧
        (s.included = [] ∨ ∃ pattern ∈ s.included, Text.fits pattern (relativePath names) = true) ∧
        ∀ pattern ∈ s.excluded, Text.fits pattern (relativePath names) = false) ∧
    ((∃ m ws, extract t git path s = .ok (m, ws)) ↔ t.isDirectoryAt root = true ∧
      (∀ names ∈ selected, IsReadable t root names) ∧ git.IsLegible root s.withGit) ∧
    ((∀ u, ¬git.Garbles u) → git.IsLegible root s.withGit) ∧
    (∀ m ws, extract t git path s = .ok (m, ws) →
      m.facts = selected.flatMap (blockAt t root) ++ control ∧
      ∀ names ∈ selected, ∃ bytes, t.entryAt (root ++ names) = some (.file bytes) ∧
        fileFacts (relativePath names) (localModules t root) (sourceText bytes)
          (Source.parse (sourceText bytes)) = .ok (blockAt t root names)) ∧
    (∀ names bytes modules, t.entryAt (root ++ names) = some (.file bytes) →
      (∀ m, m ∈ modules ↔ m ∈ localModules t root) →
      blockAt t root names = fileBlock (relativePath names) modules bytes) ∧
    (∀ m ws, extract t git path { withGit := s.withGit } = .ok (m, ws) →
      m.facts = unfiltered.flatMap (blockAt t root) ++ control ∧
      ∃ m' ws', extract t git path s = .ok (m', ws') ∧
        m'.facts = (unfiltered.filter s.selects).flatMap (blockAt t root) ++ control) ∧
    ∀ names bytes t', t.isFileAt (root ++ names) = true → t.write (root ++ names) bytes = .ok t' →
      Source.parse (sourceText bytes) = none →
      (lineFacts (relativePath names) (sourceText bytes)).map (·.kind) =
        [Kind.moduleLength, Kind.testFile] ++
          (if Text.lines (sourceText bytes) = [] then [] else [Kind.lineLength]) ∧
      ∀ m ws, extract t git path s = .ok (m, ws) → ∃ m' ws', extract t' git path s = .ok (m', ws') ∧
        m'.facts = (selected.flatMap fun other =>
          if other = names then lineFacts (relativePath names) (sourceText bytes)
          else blockAt t root other) ++ control := by
  intro root selected unfiltered control
  refine ⟨⟨(t.pairwise_below root).filter _, fun names => ?_⟩, exists_extract_iff,
    fun hgit => isLegible_of_not_garbles hgit root s.withGit, fun m ws h => ?_,
    fun names bytes modules hfile hmodules => ?_, fun m ws h => ?_,
    fun names bytes t' hfile hwrite hparse => ⟨map_kind_lineFacts _ _, fun m ws h => ?_⟩⟩
  · rw [mem_selectedFiles_iff, selects_iff]
  · refine ⟨facts_of_extract h, fun names hnames => ?_⟩
    obtain ⟨bytes, hfile, hwritable⟩ := (exists_extract_iff.mp ⟨m, ws, h⟩).2.1 names hnames
    exact ⟨bytes, hfile, fileFacts_eq_blockAt hfile hwritable⟩
  · rw [blockAt, hfile]
    exact fileBlock_congr (fun m => (hmodules m).symm) _ _
  · exact ⟨facts_of_extract h, extract_filtered h⟩
  · exact extract_of_write hfile hwrite hparse h

end Blocks

/-- Two source files. -/
def pairRepository : FileTree where
  home := ["w"]
  entries :=
    [(["w", "a.py"], .file (Text.encode "x = 1\n")), (["w", "b.py"], .file (Text.encode "y = 2\n"))]

/-- The first file is filtered out, or the second one is written over. -/
theorem extraction_by_file_pair :
    let git : Git := fun _ => .noExecutable
    let control := controlBlock pairRepository git ["w"] true
    (∃ m ws, extract pairRepository git ⟨false, []⟩ { excluded := ["a*"] } = .ok (m, ws) ∧
      m.facts = blockAt pairRepository ["w"] ["b.py"] ++ control) ∧
    ∃ t', pairRepository.write ["w", "b.py"] (Text.encode "def\n") = .ok t' ∧
      ∃ m ws, extract t' git ⟨false, []⟩ {} = .ok (m, ws) ∧
      m.facts = blockAt pairRepository ["w"] ["a.py"] ++ lineFacts "b.py" "def\n" ++ control := by
  intro git control
  have hsorted : [["a.py"], ["b.py"]].mergeSort Path.precedes = [["a.py"], ["b.py"]] := by
    simp +decide [List.mergeSort, List.MergeSort.Internal.splitInTwo]
  -- the sort does not reduce by evaluation, so it is rewritten first
  have hselected : selectedFiles pairRepository ["w"] {} = [["a.py"], ["b.py"]] := by
    change (([["a.py"], ["b.py"]].mergeSort Path.precedes).eraseDups).filter _ = _
    rw [hsorted]
    rfl
  have hreadable : ∀ names ∈ selectedFiles pairRepository ["w"] {},
      IsReadable pairRepository ["w"] names := by
    rw [hselected]
    exact isReadable_of_isOk (by decide +kernel)
  obtain ⟨m, ws, h⟩ : ∃ m ws, extract pairRepository git ⟨false, []⟩ {} = .ok (m, ws) :=
    exists_extract_iff.mpr ⟨by decide, hreadable, {}, rfl⟩
  constructor
  · obtain ⟨-, -, -, -, -, hfilters, -⟩ :=
      extraction_by_file pairRepository git ⟨false, []⟩ { excluded := ["a*"] }
    obtain ⟨-, m', ws', h', hfacts⟩ := hfilters m ws h
    have hfilter :
        [["a.py"], ["b.py"]].filter (Selection.selects { excluded := ["a*"] }) = [["b.py"]] := by
          decide +kernel
    change m'.facts = ((selectedFiles pairRepository ["w"] {}).filter _).flatMap
      (blockAt pairRepository ["w"]) ++ control at hfacts
    rw [hselected, hfilter, List.flatMap_singleton] at hfacts
    exact ⟨m', ws', h', hfacts⟩
  · obtain ⟨-, -, -, -, -, -, hwrites⟩ := extraction_by_file pairRepository git ⟨false, []⟩ {}
    obtain ⟨t', hwrite⟩ : ∃ t', pairRepository.write ["w", "b.py"] (Text.encode "def\n") = .ok t' :=
      ⟨_, rfl⟩
    obtain ⟨-, hrun⟩ :=
      hwrites ["b.py"] (Text.encode "def\n") t' (by decide) hwrite (by decide +kernel)
    obtain ⟨m', ws', h', hfacts⟩ := hrun m ws h
    have htext : sourceText (Text.encode "def\n") = "def\n" := by decide +kernel
    change m'.facts = ((selectedFiles pairRepository ["w"] {}).flatMap _) ++ control at hfacts
    rw [hselected, htext] at hfacts
    refine ⟨t', hwrite, m', ws', h', hfacts.trans ?_⟩
    simp [relativePath, show pairRepository.resolve ⟨false, []⟩ = ["w"] from rfl]

/-- A directory with the name of a source file, next to a source file. -/
def directoryRepository : FileTree where
  home := ["w"]
  entries := [(["w", "pkg.py"], .directory), (["w", "main.py"], .file (Text.encode "x = 1\n"))]

/-- No file of this code base has facts, as the directory is no file. -/
theorem directory_stops_extraction :
    extract directoryRepository (fun _ => .noExecutable) ⟨false, []⟩ { withGit := false } =
      .error (.access (.isDirectory "/w/pkg.py")) := by
  have hsorted : [["pkg.py"], ["main.py"]].mergeSort Path.precedes = [["main.py"], ["pkg.py"]] := by
    simp +decide [List.mergeSort, List.MergeSort.Internal.splitInTwo]
  have hselected :
      selectedFiles directoryRepository ["w"] { withGit := false } = [["main.py"], ["pkg.py"]] := by
    change (([["pkg.py"], ["main.py"]].mergeSort Path.precedes).eraseDups).filter _ = _
    rw [hsorted]
    rfl
  -- the module before the directory can be read, so the directory is what stops the walk
  have hfiles :
      extractFiles directoryRepository ["w"] (localModules directoryRepository ["w"])
        [["main.py"], ["pkg.py"]] =
      .error (.access (.isDirectory "/w/pkg.py")) := by
    obtain ⟨main, hmain⟩ : ∃ main, extractFile directoryRepository ["w"]
        (localModules directoryRepository ["w"]) ["main.py"] = .ok main :=
      exists_of_isOk (by decide +kernel)
    rw [extractFiles, hmain]
    rfl
  have hroot : directoryRepository.resolve ⟨false, []⟩ = ["w"] := rfl
  have hdirectory : directoryRepository.isDirectoryAt ["w"] = true := by decide
  simp only [extract, hroot, hdirectory, hselected, hfiles]
  rfl

end Scorecard
