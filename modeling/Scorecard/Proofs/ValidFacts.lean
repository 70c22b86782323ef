import Scorecard.Proofs.Extraction

set_option autoImplicit false

/-! # Extracted facts are valid

A fact is refused if its file or its kind is empty or if its lines are no range. No fact is refused
while a code base is looked at: not those of a file, which are on its lines (`MadeInFile.inFile`),
and not those of the version control. This also holds for the facts that are made before something
else stops the extraction, so they are described one by one (`MadeInFile`) and not as those of a
result. The facts of a file are about its path, and this path is one of the files of the model
(`relativePath_mem_files`).
-/

namespace Scorecard

open Source (Node)

/-! ## Facts of a file -/

/-- A fact that is made of the text of a file. It may be made although a later one cannot be. -/
inductive MadeInFile [Text.CharacterNames] (path : String) (modules : List String) (text : String) :
    Fact → Prop where
  | line {f : Fact} (h : f ∈ lineFacts path text) : MadeInFile path modules text f
  | importOrder {tree : Node} {f : Fact} (htree : Source.parse text = some tree)
      (h : f ∈ importOrderFacts path modules tree) : MadeInFile path modules text f
  | wildcard {tree : Node} {f : Fact} (htree : Source.parse text = some tree)
      (h : f ∈ wildcardFacts path tree) : MadeInFile path modules text f
  | visited {tree : Node} {place : List Node × Node} {found : List Fact} {f : Fact}
      (htree : Source.parse text = some tree)
      (hplace : place ∈ tree.places []) (hfound : factsAt path (isTestPath path) place = .ok found)
        (h : f ∈ found) :
      MadeInFile path modules text f

section

variable [Text.CharacterNames] {path text : String} {modules : List String} {f : Fact}

/-- Wherever a fact of a file is made, it is about lines of this file. -/
theorem MadeInFile.inFile (h : MadeInFile path modules text f) :
    ∃ bottom, f.InFile (Kind.ofText ++ Kind.ofSyntax) path bottom := by
  -- facts of the tree lie on the lines of the tree
  have hsyntax : ∀ {bottom}, f.InFile Kind.ofSyntax path bottom →
      ∃ bottom, f.InFile (Kind.ofText ++ Kind.ofSyntax) path bottom :=
    fun hf => ⟨_, hf.mono (List.subset_append_right _ _) le_rfl⟩
  cases h with
  | line h => exact ⟨_, (inFile_lineFacts path text f h).mono (List.subset_append_left _ _) le_rfl⟩
  | importOrder htree h => exact hsyntax (inFile_importOrderFacts (Source.parse_inOrder htree) f h)
  | wildcard htree h => exact hsyntax (inFile_wildcardFacts (Source.parse_bounds htree).1 f h)
  | @visited tree place found _ htree hplace hfound h =>
      have hwalk : place.2 ∈ tree.walk := by
        rw [← Node.map_places []]
        exact List.mem_map_of_mem hplace
      exact hsyntax (Node.inFile_ownFacts ((Source.parse_bounds htree).1.of_mem_walk hwalk)
        hfound f h)

/-- If all facts of a file can be made, these are the facts of the file. -/
theorem mem_fileFacts_iff {facts : List Fact}
    (h : fileFacts path modules text (Source.parse text) = .ok facts) :
    f ∈ facts ↔ MadeInFile path modules text f := by
  obtain ⟨found, hfound, rfl⟩ := fileFacts_eq_ok_iff.mp h
  rw [List.mem_append]
  cases htree : Source.parse text with
  | none =>
      rw [htree] at hfound
      cases hfound
      constructor
      · rintro (hf | hf)
        · exact .line hf
        · cases hf
      · intro hmade
        cases hmade with
        | line hf => exact Or.inl hf
        | importOrder htree' | wildcard htree' | visited htree' =>
            rw [htree] at htree'
            cases htree'
  | some tree =>
      rw [htree] at hfound
      obtain ⟨visited, hvisited, hfound⟩ := bind_eq_ok_iff.mp hfound
      cases hfound
      have hleaves : tree.GlobalsAreLeaves :=
        fun m hm => ((Source.parse_bounds htree).1 m hm).globals
      obtain ⟨parts, hparts, rfl⟩ :=
        (Node.facts_eq_ok_iff path (isTestPath path) hleaves).mp hvisited
      rw [List.mem_append, List.mem_append, List.mem_flatten]
      constructor
      · rintro (hf | (hf | hf) | ⟨part, hpart, hf⟩)
        · exact .line hf
        · exact .importOrder htree hf
        · exact .wildcard htree hf
        · obtain ⟨place, hplace, hfactsAt⟩ := exists_of_mem_forall₂ hparts hpart
          exact .visited htree hplace hfactsAt hf
      · intro hmade
        cases hmade with
        | line hf => exact Or.inl hf
        | importOrder htree' hf =>
            cases htree.symm.trans htree'
            exact Or.inr (Or.inl (Or.inl hf))
        | wildcard htree' hf =>
            cases htree.symm.trans htree'
            exact Or.inr (Or.inl (Or.inr hf))
        | visited htree' hplace hfactsAt hf =>
            cases htree.symm.trans htree'
            -- the place has one part, which is among those of the visit
            obtain ⟨part, hpart, hfactsAt'⟩ := exists_of_mem_forall₂ hparts.flip hplace
            cases hfactsAt.symm.trans hfactsAt'
            exact Or.inr (Or.inr ⟨_, hpart, hf⟩)

end

/-! ## Facts of a code base -/

section

variable [Text.CharacterNames] {t : FileTree} {git : Git} {path : Path} {s : Selection}
  {root names : List String} {f : Fact}

/-- A fact that is made of the file at a place below the root. -/
def MadeAt (t : FileTree) (root names : List String) (f : Fact) : Prop :=
  ∃ bytes, t.entryAt (root ++ names) = some (.file bytes) ∧
    MadeInFile (relativePath names) (localModules t root) (sourceText bytes) f

theorem mem_blockAt_iff (h : IsReadable t root names) :
    f ∈ blockAt t root names ↔ MadeAt t root names f := by
  obtain ⟨bytes, hfile, hwritable⟩ := h
  rw [mem_fileFacts_iff (fileFacts_eq_blockAt hfile hwritable), MadeAt]
  constructor
  · intro hf
    exact ⟨bytes, hfile, hf⟩
  · rintro ⟨bytes', hfile', hf⟩
    cases hfile.symm.trans hfile'
    exact hf

/-- A fact that is made of a selected file is about this file, and nothing is wrong with it. -/
theorem MadeAt.valid (hnames : names ∈ selectedFiles t root s) (h : MadeAt t root names f) :
    f.Valid ∧ f.location.file = relativePath names := by
  obtain ⟨bytes, -, hmade⟩ := h
  obtain ⟨bottom, hf⟩ := hmade.inFile
  exact ⟨hf.valid (by decide)
    (relativePath_ne (selects_iff.mp (mem_selectedFiles_iff.mp hnames).2.2).1).1, hf.file⟩

theorem extractFile_ne_fact (modules : List String) (e : FactError) :
    extractFile t root modules names ≠ .error (.fact e) := by
  intro h
  unfold extractFile at h
  split at h
  · dsimp only at h
    split at h <;> cases h
  · cases h
  · cases h

theorem extractFiles_ne_fact (modules : List String) (e : FactError) (places : List (List String)) :
    extractFiles t root modules places ≠ .error (.fact e) := by
  induction places with
  | nil =>
      intro h
      cases h
  | cons names rest ih =>
      intro h
      rcases bind_eq_error_iff.mp h with hfirst | ⟨first, -, h⟩
      · exact extractFile_ne_fact modules e hfirst
      · rcases bind_eq_error_iff.mp h with hmore | ⟨more, -, h⟩
        · exact ih hmore
        · cases h

/-- **No fact is refused.** -/
theorem extract_ne_fact (t : FileTree) (git : Git) (path : Path) (s : Selection) (e : FactError) :
    extract t git path s ≠ .error (.fact e) := by
  intro h
  have hrun := h
  simp only [extract] at hrun
  split at hrun
  · unfold notRoot at hrun
    split at hrun <;> cases hrun
  · rename_i hroot
    rcases bind_eq_error_iff.mp hrun with hfiles | ⟨sources, hsources, hrun⟩
    · exact extractFiles_ne_fact _ e _ hfiles
    rcases bind_eq_error_iff.mp hrun with hhistory | ⟨history, hhistory, -⟩
    · obtain ⟨u, -, hu⟩ := mapError_eq_error_iff.mp hhistory
      cases hu
    · -- everything was read, so that there is a model
      have hroot : t.isDirectoryAt (t.resolve path) = true := by simpa using hroot
      obtain ⟨m, ws, hok, -⟩ :=
        extract_of_isReadable hroot (isReadable_of_extractFiles hsources)
          ⟨history, mapError_eq_ok_iff.mp hhistory⟩
      rw [h] at hok
      cases hok

variable {m : FactModel} {ws : List Warning}

theorem mem_facts_of_extract_iff (h : extract t git path s = .ok (m, ws)) :
    f ∈ m.facts ↔
      (∃ names ∈ selectedFiles t (t.resolve path) s, MadeAt t (t.resolve path) names f) ∨
      f ∈ controlBlock t git (t.resolve path) s.withGit := by
  obtain ⟨-, hreadable, -⟩ := exists_extract_iff.mp ⟨m, ws, h⟩
  rw [facts_of_extract h, List.mem_append, List.mem_flatMap]
  refine or_congr_left (exists_congr fun names => and_congr_right fun hnames => ?_)
  exact mem_blockAt_iff (hreadable names hnames)

/-- The path of a selected file is one of the files of the model. -/
theorem relativePath_mem_files (h : extract t git path s = .ok (m, ws))
    (hnames : names ∈ selectedFiles t (t.resolve path) s) : relativePath names ∈ m.files := by
  obtain ⟨facts, files, root, rfl, -⟩ := exists_build_of_extract h
  rw [FactModel.mem_files_build]
  refine ⟨Or.inr ?_, (relativePath_ne (selects_iff.mp (mem_selectedFiles_iff.mp hnames).2.2).1).2⟩
  -- there is a fact about the length of every file
  obtain ⟨bytes, hfile, -⟩ := (exists_extract_iff.mp ⟨_, ws, h⟩).2.1 names hnames
  have hmade : MadeAt t (t.resolve path) names
      ⟨Kind.moduleLength, .ofFile (relativePath names), .int (Text.lines (sourceText bytes)).length,
        ""⟩ :=
    ⟨bytes, hfile, .line (List.mem_append_left _ List.mem_cons_self)⟩
  exact ⟨_, (mem_facts_of_extract_iff h).mpr (Or.inl ⟨names, hnames, hmade⟩), rfl⟩

end

/-- **Extraction makes no invalid fact**, whatever is in the code base and whatever git replies.
Every fact that is made of a selected file, also in a run that stops later, passes the check and is
about this file; so does every fact of the version control. If there is a model, its facts are all
of these, and it has the path of every selected file. -/
theorem extracted_facts_are_valid [Text.CharacterNames] (t : FileTree) (git : Git) (path : Path)
    (s : Selection) :
    let root := t.resolve path
    (∀ e, extract t git path s ≠ .error (.fact e)) ∧
    (∀ names ∈ selectedFiles t root s, ∀ f, MadeAt t root names f → f.check = .ok f ∧
      f.location.file = relativePath names) ∧
    (∀ f ∈ controlBlock t git root s.withGit, f.check = .ok f) ∧
    ∀ m ws, extract t git path s = .ok (m, ws) →
      (∀ f, f ∈ m.facts ↔ (∃ names ∈ selectedFiles t root s, MadeAt t root names f) ∨
        f ∈ controlBlock t git root s.withGit) ∧
      ∀ names ∈ selectedFiles t root s, relativePath names ∈ m.files := by
  intro root
  refine ⟨extract_ne_fact t git path s, ?_, ?_, ?_⟩
  · intro names hnames f hf
    obtain ⟨hvalid, hfile⟩ := hf.valid hnames
    exact ⟨Fact.check_eq_ok_iff.mpr ⟨hvalid, rfl⟩, hfile⟩
  · intro f hf
    exact Fact.check_eq_ok_iff.mpr ⟨valid_controlBlock t git root s.withGit f hf, rfl⟩
  · intro m ws h
    exact ⟨fun f => mem_facts_of_extract_iff h, fun names hnames => relativePath_mem_files h hnames⟩

/-- A source file whose imports end some lines after they begin. -/
def importingRepository : FileTree where
  home := ["w"]
  entries := [(["w", "a.py"], .file (Text.encode "from . import b\nfrom .c import (\n    d,\n)\n"))]

theorem extracted_facts_are_valid_importing :
    let git : Git := fun _ => .noExecutable
    let order : Fact := ⟨Kind.importGroupOrder, .ofLines "a.py" 1 4, .bool true, ""⟩
    ["a.py"] ∈ selectedFiles importingRepository ["w"] {} ∧
      MadeAt importingRepository ["w"] ["a.py"] order ∧ order.check = .ok order ∧
      ∃ m ws, extract importingRepository git ⟨false, []⟩ {} = .ok (m, ws) ∧ order ∈ m.facts ∧
        "a.py" ∈ m.files := by
  intro git order
  have hselected : selectedFiles importingRepository ["w"] {} = [["a.py"]] := by
    change (([["a.py"]].mergeSort Path.precedes).eraseDups).filter _ = _
    rw [List.mergeSort_singleton]
    rfl
  have hnames : ["a.py"] ∈ selectedFiles importingRepository ["w"] {} := by
    rw [hselected]
    exact List.mem_singleton_self _
  have hblock : order ∈ blockAt importingRepository ["w"] ["a.py"] := by decide +kernel
  -- reading the file can be evaluated, extracting from the tree cannot, as it sorts
  have hreadable : IsReadable importingRepository ["w"] ["a.py"] :=
    isReadable_of_isOk (by decide +kernel) _ (List.mem_singleton_self ["a.py"])
  have hmade := (mem_blockAt_iff hreadable).mp hblock
  obtain ⟨m, ws, h⟩ : ∃ m ws, extract importingRepository git ⟨false, []⟩ {} = .ok (m, ws) := by
    refine exists_extract_iff.mpr ⟨by decide, ?_, {}, rfl⟩
    change ∀ names ∈ selectedFiles importingRepository ["w"] {}, _
    rw [hselected, List.forall_mem_singleton]
    exact hreadable
  obtain ⟨-, hfiles, -, hmodel⟩ := extracted_facts_are_valid importingRepository git ⟨false, []⟩ {}
  obtain ⟨hfacts, hpaths⟩ := hmodel m ws h
  exact ⟨hnames, hmade, (hfiles _ hnames order hmade).1, m, ws, h,
    (hfacts order).mpr (Or.inl ⟨_, hnames, hmade⟩), hpaths _ hnames⟩

end Scorecard
