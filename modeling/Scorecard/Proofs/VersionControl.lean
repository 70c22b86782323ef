import Scorecard.Proofs.ValidFacts

set_option autoImplicit false

/-! # Facts of the version control

There is one fact that says whether a code base lists what is not tracked, and after it comes the
history: a fact for every commit of the log and for every tracked file. Git can refuse in many ways,
and none of them stops an extraction or leaves a part of the history behind: it is there as a whole
if git answers all questions (`isHistory_of_answers`), and else not at all. Only what is no text
stops an extraction (`extract_eq_error_iff`). A tracked file is one of the files of the model,
unless it has the name of the code base itself, which is no file.
-/

namespace Scorecard

/-- The fact that says whether the code base lists what is not tracked. -/
def gitignoreFact (t : FileTree) (root : List String) : Fact :=
  if t.isFileAt (root ++ [".gitignore"]) then
    ⟨Kind.gitignorePresent, .ofFile ".gitignore", .bool true, ""⟩
  else ⟨Kind.gitignorePresent, .codebase, .bool false, ""⟩

/-- The paths in a list of files: what is between two separators, unless it is empty. -/
def listedPaths (listed : String) : List String :=
  ((listed.toList.splitOn '\x00').map String.ofList).filter (· ≠ "")

/-- The history that belongs to a log and a list of files: a fact for every line of the log with a
tab, in the order of the lines, and then one for every path of the list, in code point order. -/
structure IsHistory (log listed : String) (commits : List Commit) (tracked : List String)
    (history : List Fact) : Prop where
  logged : List.Forall₂ (fun line c => '\t' ∉ c.hash.toList ∧ line = c.hash ++ "\t" ++ c.subject)
    ((Text.lines log).filter fun line => line.toList.contains '\t') commits
  ordered : tracked.Pairwise (· ≤ ·)
  complete : tracked.Perm (listedPaths listed)
  facts : history = commits.map Commit.fact ++ tracked.map trackedFact

/-! ## The block of the version control -/

theorem gitignoreExtraction_facts (t : FileTree) (root : List String) :
    (gitignoreExtraction t root).facts = [gitignoreFact t root] := by
  unfold gitignoreExtraction gitignoreFact
  split <;> rfl

theorem kind_gitignoreFact (t : FileTree) (root : List String) :
    (gitignoreFact t root).kind = Kind.gitignorePresent := by
  unfold gitignoreFact
  split <;> rfl

section

variable {t : FileTree} {git : Git} {path : Path} {s : Selection} {root : List String}
  {withGit : Bool} {log listed : String}

theorem isHistory_of_answers (h : git.Answers log listed) (root : List String) :
    IsHistory log listed (Git.commitsIn log) (Git.filesIn listed)
      (historyOf git root true).facts where
  logged := Git.forall₂_commitsIn log
  ordered := Git.pairwise_filesIn listed
  complete := Git.filesIn_perm listed
  facts := by rw [historyOf_eq (extractHistory_of_answers h root), historyExtraction]

/-- No fact of the history says whether the code base lists what is not tracked. -/
theorem kind_historyOf :
    ∀ f ∈ (historyOf git root withGit).facts, f.kind ≠ Kind.gitignorePresent := by
  rcases historyOf_cases git root withGit with ⟨hnone, -⟩ | ⟨log, listed, hhistory⟩
  · rw [hnone]
    exact List.forall_mem_nil _
  · rw [hhistory]
    refine List.forall_mem_append.mpr ⟨List.forall_mem_map.mpr fun c _ => ?_,
      List.forall_mem_map.mpr fun file _ => ?_⟩
    · show Kind.commitMessage ≠ Kind.gitignorePresent
      decide
    · show Kind.trackedArtifact ≠ Kind.gitignorePresent
      decide

/-- If git is not asked, or does not answer one of the questions, there is no history. -/
theorem historyOf_of_not_answers (h : ¬(withGit = true ∧ ∃ log listed, git.Answers log listed))
    (root : List String) : (historyOf git root withGit).facts = [] := by
  rcases extractHistory_of_not_answers h root with ⟨ws, hnone⟩ | ⟨-, u, -, herror⟩
  · rw [historyOf_eq hnone]
  · rw [historyOf, herror]
    rfl

/-! ## The code base -/

/-- **Why an extraction fails**: the root is no directory, a file cannot be looked at, or what git
says is no text. -/
theorem extract_eq_error_iff [Text.CharacterNames] {e : ExtractError} :
    extract t git path s = .error e ↔
      if t.isDirectoryAt (t.resolve path) then
        extractFiles t (t.resolve path) (localModules t (t.resolve path))
          (selectedFiles t (t.resolve path) s) = .error e ∨
          (∀ names ∈ selectedFiles t (t.resolve path) s, IsReadable t (t.resolve path) names) ∧
            ∃ u, extractHistory git (t.resolve path) s.withGit = .error u ∧ e = .notText u
      else e = notRoot t (t.resolve path) := by
  by_cases hroot : t.isDirectoryAt (t.resolve path) = true
  · rw [if_pos hroot]
    constructor
    · intro h
      have hrun := h
      simp only [extract, hroot] at hrun
      rcases bind_eq_error_iff.mp hrun with hfiles | ⟨sources, hsources, hrun⟩
      · exact Or.inl hfiles
      have hreadable := isReadable_of_extractFiles hsources
      rcases bind_eq_error_iff.mp hrun with hhistory | ⟨history, hhistory, -⟩
      · obtain ⟨u, hu, rfl⟩ := mapError_eq_error_iff.mp hhistory
        exact Or.inr ⟨hreadable, u, hu, rfl⟩
      · -- everything was looked at, so that there is a model
        obtain ⟨m, ws, hok, -⟩ :=
          extract_of_isReadable hroot hreadable ⟨history, mapError_eq_ok_iff.mp hhistory⟩
        rw [h] at hok
        cases hok
    · rintro (hfiles | ⟨hreadable, u, hu, rfl⟩)
      · simp only [extract, hroot]
        exact bind_eq_error_iff.mpr (Or.inl hfiles)
      · obtain ⟨sources, hsources, -⟩ := facts_of_extractFiles hreadable
        simp only [extract, hroot]
        refine bind_eq_error_iff.mpr (Or.inr ⟨sources, hsources, bind_eq_error_iff.mpr (Or.inl ?_)⟩)
        rw [hu]
        rfl
  · rw [if_neg hroot]
    have hfails : extract t git path s = .error (notRoot t (t.resolve path)) := by
      simp only [extract, hroot]
      rfl
    rw [hfails, Except.error.injEq]
    exact eq_comm

/-- An extraction that fails does so with any other replies, unless what git replies is no text. -/
theorem extract_error_cases [Text.CharacterNames] {e : ExtractError}
    (h : extract t git path s = .error e) :
    (∀ git', extract t git' path s = .error e) ∨ s.withGit = true ∧ ∃ u, git.Garbles u ∧
      e = .notText u := by
  rw [extract_eq_error_iff] at h
  by_cases hroot : t.isDirectoryAt (t.resolve path) = true
  · rw [if_pos hroot] at h
    rcases h with hfiles | ⟨-, u, hu, rfl⟩
    · exact Or.inl fun git' => extract_eq_error_iff.mpr (by rw [if_pos hroot]; exact Or.inl hfiles)
    · right
      have hnot : ¬(s.withGit = true ∧ ∃ log listed, git.Answers log listed) := by
        rintro ⟨hgit, log, listed, hanswers⟩
        rw [hgit, extractHistory_of_answers hanswers] at hu
        cases hu
      rcases extractHistory_of_not_answers hnot (t.resolve path) with ⟨ws, hnone⟩ | ⟨hgit, u',
        hgarbles, herror⟩
      · cases hnone.symm.trans hu
      · obtain rfl := Except.error.inj (herror.symm.trans hu)
        exact ⟨hgit, u', hgarbles, rfl⟩
  · rw [if_neg hroot] at h
    exact Or.inl fun git' => extract_eq_error_iff.mpr (by rw [if_neg hroot]; exact h)

variable [Text.CharacterNames] {m : FactModel} {ws : List Warning}

/-- The facts of a code base end with the history, and only one fact before it is about the version
control. -/
theorem facts_eq_sources_append (h : extract t git path s = .ok (m, ws)) :
    ∃ sources, m.facts = sources ++ gitignoreFact t
      (t.resolve path) :: (historyOf git (t.resolve path) s.withGit).facts ∧
      ∀ f ∈ sources, f.kind ∉ Kind.versionControl := by
  refine ⟨(selectedFiles t (t.resolve path) s).flatMap (blockAt t (t.resolve path)), ?_, ?_⟩
  · rw [facts_of_extract h, controlBlock, gitignoreExtraction_facts, List.singleton_append]
  · intro f hf hkind
    obtain ⟨names, -, hf⟩ := List.mem_flatMap.mp hf
    obtain ⟨most, hfiles⟩ := t.exists_filesBelow
    have hblock := inFile_blockAt hfiles (t.resolve path) names
    have hdisjoint : ∀ kind ∈ Kind.ofText ++ Kind.ofSyntax, kind ∉ Kind.versionControl := by decide
    exact hdisjoint f.kind (hblock f hf).kind hkind

theorem ofKind_gitignorePresent (h : extract t git path s = .ok (m, ws)) :
    m.ofKind Kind.gitignorePresent = [gitignoreFact t (t.resolve path)] := by
  obtain ⟨sources, hfacts, hsources⟩ := facts_eq_sources_append h
  have hbefore : sources.filter (·.kind = Kind.gitignorePresent) = [] := by
    refine List.filter_eq_nil_iff.mpr fun f hf heq => hsources f hf ?_
    rw [of_decide_eq_true heq]
    decide
  have hafter :
      (historyOf git (t.resolve path) s.withGit).facts.filter
        (·.kind = Kind.gitignorePresent) = [] :=
    List.filter_eq_nil_iff.mpr fun f hf heq => kind_historyOf f hf (of_decide_eq_true heq)
  rw [ofKind_of_extract h, hfacts, List.filter_append, hbefore, List.nil_append,
    List.filter_cons_of_pos (by simpa using kind_gitignoreFact t _), hafter]

/-- The files of the facts are files of the model, but for the code base itself. -/
theorem file_mem_files (h : extract t git path s = .ok (m, ws)) {f : Fact} (hf : f ∈ m.facts)
    (hne : f.location.file ≠ wholeCodebase) : f.location.file ∈ m.files := by
  obtain ⟨facts, files, root, rfl, -⟩ := exists_build_of_extract h
  exact (FactModel.mem_files_build facts files root _).mpr ⟨Or.inr ⟨f, hf, rfl⟩, hne⟩

end

/-- A code base with nothing in it but the list of what is not tracked. -/
def bareRepository : FileTree where
  home := ["w"]
  entries := [(["w", ".gitignore"], .file [])]

/-- Replies in a work tree without commits, with a reply to the question for its files. -/
def freshReplies (files : GitReply) : Git
  | .workTree => .output "true\n"
  | .log _ => .failure "fatal: your current branch 'main' does not have any commits yet\n"
  | .files => files

theorem extract_bareRepository {git : Git} (hgit : git.IsLegible ["w"] true) :
    ∃ m ws, extract bareRepository git ⟨false, []⟩ {} = .ok (m, ws) := by
  have hselected : selectedFiles bareRepository ["w"] {} = [] := by
    change (([[".gitignore"]].mergeSort Path.precedes).eraseDups).filter _ = _
    rw [List.mergeSort_singleton]
    rfl
  refine exists_extract_iff.mpr ⟨by decide, ?_, hgit⟩
  change ∀ names ∈ selectedFiles bareRepository ["w"] {}, _
  rw [hselected]
  exact List.forall_mem_nil _

theorem answers_freshReplies {listed : String}
    (h : (freshReplies (.output listed)).ask .files = .ok listed) :
    (freshReplies (.output listed)).Answers "" listed where
  workTree := by
    have hask : (freshReplies .noExecutable).ask .workTree = .ok "true\n" := by decide +kernel
    exact ⟨"true\n", hask, by decide⟩
  log := by
    have hask : (freshReplies .noExecutable).ask (.log Git.commitLimit) =
        .error (.refused ⟨"fatal: your current branch 'main' does not have any commits yet"⟩) := by
          decide +kernel
    exact .fresh hask (by decide +kernel)
  files := h

end Scorecard
