import Scorecard.Proofs.Extraction
import Scorecard.Text.CharClass

set_option autoImplicit false

/-! # Reading the log of commits

The log has a line for every commit: the hash, a tab and the subject. It is read line by line, where
every line end counts and not only the newlines of the log, so a subject with a line end in it is
cut there, and what follows is read as lines of its own (`Commit.readBack`). Reading gives back the
commits if and only if no subject has such a character.
-/

namespace Scorecard

namespace Commit

/-- The line of a commit in the log. -/
def line (c : Commit) : List Char := c.hash.toList ++ '\t' :: c.subject.toList

/-- A commit of which git writes one line: a hash of hexadecimal digits, and a subject without
newlines and carriage returns. -/
structure IsPlain (c : Commit) : Prop where
  hash : ∀ d ∈ c.hash.toList, (Text.hexValue? d).isSome = true
  newline : '\n' ∉ c.subject.toList
  carriageReturn : '\r' ∉ c.subject.toList

/-- What is read where a commit was written: the commit with the subject up to its first line end,
and the lines after that. -/
def readBack (c : Commit) : List Commit :=
  let pieces := c.subject.toList.splitOnP Text.isOtherEnd
  ⟨c.hash, String.ofList (pieces.headD [])⟩ :: pieces.tail.filterMap
    (Git.commitOfLine? ∘ String.ofList)

/-- A subject on one line, whatever ends a line. -/
def IsOneLine (c : Commit) : Prop := ∀ d ∈ c.subject.toList, Text.isLineEnd d = false

end Commit

/-- The log of some commits. -/
def logText (commits : List Commit) : String :=
  String.ofList (commits.flatMap fun c => c.line ++ ['\n'])

/-! ## One commit -/

/-- Hexadecimal digits are neither tabs nor line ends. -/
theorem hexDigit_ne_tab {d : Char} (h : (Text.hexValue? d).isSome = true) :
    d ≠ '\t' ∧ Text.isLineEnd d = false := by
  have hbounds : 48 ≤ d.toNat ∧ d.toNat ≤ 102 := by
    simp only [Text.hexValue?, Char.isDigit, Char.le_def, UInt32.le_iff_toNat_le, Bool.and_eq_true,
      decide_eq_true_eq] at h
    change 48 ≤ d.val.toNat ∧ d.val.toNat ≤ 102
    split at h
    · rename_i hdigit
      exact ⟨hdigit.1, hdigit.2.trans (by decide)⟩
    · split at h
      · rename_i hlower
        exact ⟨le_trans (by decide) hlower.1, hlower.2⟩
      · split at h
        · rename_i hupper
          exact ⟨le_trans (by decide) hupper.1, hupper.2.trans (by decide)⟩
        · cases h
  constructor
  · rintro rfl
    exact absurd hbounds.1 (by decide)
  · simp only [Text.isLineEnd, Bool.or_eq_false_iff, Bool.and_eq_false_iff, decide_eq_false_iff_not,
      beq_eq_false_iff_ne]
    omega

namespace Commit

variable {c : Commit}

theorem IsPlain.isOtherEnd_eq_false (h : c.IsPlain) :
    ∀ d ∈ c.hash.toList ++ ['\t'], Text.isOtherEnd d = false := by
  refine List.forall_mem_append.mpr ⟨fun d hd => ?_, List.forall_mem_singleton.mpr rfl⟩
  exact ((Text.isLineEnd_eq_false_iff d).mp (hexDigit_ne_tab (h.hash d hd)).2).2

theorem commitOfLine?_of_not_tab {hash subject : List Char} (h : ∀ d ∈ hash, d ≠ '\t') :
    Git.commitOfLine? (String.ofList (hash ++ '\t' :: subject)) =
      some ⟨String.ofList hash, String.ofList subject⟩ := by
  have hbefore : ∀ d ∈ hash, (d != '\t') = true := fun d hd => bne_iff_ne.mpr (h d hd)
  rw [Git.commitOfLine?, String.toList_ofList]
  simp [List.dropWhile_append_of_pos hbefore, List.takeWhile_append_of_pos hbefore]

/-- The lines that a commit takes in the log. -/
theorem filterMap_splitOnP_line (h : c.IsPlain) :
    (c.line.splitOnP Text.isOtherEnd).filterMap (Git.commitOfLine? ∘ String.ofList) =
      c.readBack := by
  obtain ⟨first, more, hpieces⟩ :=
    List.exists_cons_of_ne_nil (List.splitOnP_ne_nil Text.isOtherEnd c.subject.toList)
  have hline : c.line = (c.hash.toList ++ ['\t']) ++ c.subject.toList := by
    rw [line, List.append_assoc, List.singleton_append]
  -- no line end stands before the subject, so the first line has the hash and the tab
  have hsplit : c.line.splitOnP Text.isOtherEnd = (c.hash.toList ++ '\t' :: first) :: more := by
    rw [hline, Text.splitOnP_append h.isOtherEnd_eq_false, hpieces, List.modifyHead_cons,
      List.append_assoc, List.singleton_append]
  have hfirst :
      (Git.commitOfLine? ∘ String.ofList) (c.hash.toList ++ '\t' :: first) =
        some ⟨c.hash, String.ofList first⟩ := by
    rw [Function.comp_apply, commitOfLine?_of_not_tab fun d hd => (hexDigit_ne_tab (h.hash d hd)).1,
      String.ofList_toList]
  rw [hsplit, List.filterMap_cons_some hfirst, readBack, hpieces]
  rfl

theorem IsPlain.isOneLine_iff (h : c.IsPlain) :
    c.IsOneLine ↔ ∀ d ∈ c.subject.toList, Text.isOtherEnd d = false := by
  refine forall₂_congr fun d hd => ?_
  rw [Text.isLineEnd_eq_false_iff]
  exact and_iff_right fun heq => h.newline (heq ▸ hd)

theorem IsPlain.readBack_eq (h : c.IsPlain) (hline : c.IsOneLine) : c.readBack = [c] := by
  have hpieces := List.splitOnP_eq_singleton (h.isOneLine_iff.mp hline)
  rw [readBack, hpieces]
  simp

/-- The commit itself is read only if its subject is on one line. -/
theorem IsPlain.isOneLine_of_readBack (h : c.IsPlain) {more : List Commit}
    (hread : c.readBack = c :: more) : c.IsOneLine := by
  obtain ⟨first, pieces, hpieces⟩ :=
    List.exists_cons_of_ne_nil (List.splitOnP_ne_nil Text.isOtherEnd c.subject.toList)
  rw [readBack, hpieces] at hread
  have hsubject : String.ofList first = c.subject := congrArg Commit.subject (List.cons.inj hread).1
  have hfirst : first = c.subject.toList := by rw [← hsubject, String.toList_ofList]
  rw [hfirst] at hpieces
  exact h.isOneLine_iff.mpr (Text.forall_not_of_splitOnP hpieces)

end Commit

/-! ## The log -/

section

variable {git : Git} {commits : List Commit}

theorem lines_logText (h : ∀ c ∈ commits, c.IsPlain) :
    Text.lines (logText commits) =
      (commits.flatMap fun c => c.line.splitOnP Text.isOtherEnd).map String.ofList := by
  -- neither the hash nor the tab is a line end, so only a subject could hold one
  have hline : ∀ d : Char, d ≠ '\t' → Text.isLineEnd d = true →
      (∀ c ∈ commits, d ∉ c.subject.toList) → ∀ l ∈ commits.map Commit.line, d ∉ l := by
    intro d htab hend hsubjects l hl hd
    obtain ⟨c, hc, rfl⟩ := List.mem_map.mp hl
    rcases List.mem_append.mp hd with hd | hd
    · have hnot := (hexDigit_ne_tab ((h c hc).hash d hd)).2
      rw [hend] at hnot
      cases hnot
    · rcases List.mem_cons.mp hd with hd | hd
      · exact htab hd
      · exact hsubjects c hc hd
  have hnewline := hline '\n' (by decide) rfl fun c hc => (h c hc).newline
  have hreturn := hline '\r' (by decide) rfl fun c hc => (h c hc).carriageReturn
  rw [Text.lines, logText, String.toList_ofList, ← List.flatMap_map Commit.line (· ++ ['\n']),
    Text.linesFrom_flatMap hnewline hreturn, List.flatMap_map]

theorem commits_of_log (h : ∀ c ∈ commits, c.IsPlain) {limit : Int}
    (hlog : git.ask (.log limit) = .ok (logText commits)) :
    git.commits limit = .ok (commits.flatMap Commit.readBack) := by
  rw [Git.commits, hlog]
  dsimp only
  rw [lines_logText h, List.filterMap_map, List.filterMap_flatMap]
  rw [List.flatMap_congr fun c hc => Commit.filterMap_splitOnP_line (h c hc)]

/-- Reading gives back the commits only if every subject is on one line. -/
theorem flatMap_readBack_eq_iff (h : ∀ c ∈ commits, c.IsPlain) :
    commits.flatMap Commit.readBack = commits ↔ ∀ c ∈ commits, c.IsOneLine := by
  induction commits with
  | nil => simp
  | cons c commits ih =>
      obtain ⟨hc, hrest⟩ := List.forall_mem_cons.mp h
      rw [List.flatMap_cons, List.forall_mem_cons, ← ih hrest]
      constructor
      · intro hread
        -- what is read first stands for the first commit
        have hone : c.IsOneLine := by
          obtain ⟨first, more, hfirst⟩ : ∃ first more, c.readBack = first :: more := ⟨_, _, rfl⟩
          rw [hfirst] at hread
          obtain ⟨rfl, -⟩ := List.cons.inj hread
          exact hc.isOneLine_of_readBack hfirst
        rw [hc.readBack_eq hone] at hread
        exact ⟨hone, (List.cons.inj hread).2⟩
      · rintro ⟨hone, hread⟩
        rw [hc.readBack_eq hone, hread]
        rfl

end

/-! ## The facts about commits -/

/-- The version control gives one fact for every commit that is read. -/
theorem filter_commitMessage_controlBlock {git : Git} {commits : List Commit} {files : String}
    (t : FileTree) (root : List String) (htree : git.isWorkTree = .ok true)
    (hcommits : git.commits Git.commitLimit = .ok commits) (hfiles : git.ask .files = .ok files) :
    git.IsLegible root true ∧ (controlBlock t git root true).filter
      (·.kind = Kind.commitMessage) = commits.map Commit.fact := by
  set tracked := Git.filesIn files
  have htracked : git.trackedFiles = .ok tracked :=
    Git.trackedFiles_eq_ok_iff.mpr ⟨files, hfiles, rfl⟩
  have hextract : extractHistory git root true = .ok (historyExtraction commits tracked) := by
    rw [extractHistory_of_workTree htree, askHistory, hcommits, htracked]
    rfl
  refine ⟨⟨_, hextract⟩, ?_⟩
  -- of the facts of the version control only those about commits are left
  have hhistory :
      (historyOf git root true).facts = commits.map Commit.fact ++ tracked.map trackedFact := by
    rw [historyOf_eq hextract, historyExtraction]
  have hgitignore :
      (gitignoreExtraction t root).facts.filter (·.kind = Kind.commitMessage) = [] := by
    unfold gitignoreExtraction
    split <;> rfl
  have hmessages :
      (commits.map Commit.fact).filter (·.kind = Kind.commitMessage) = commits.map Commit.fact :=
    List.filter_eq_self.mpr (List.forall_mem_map.mpr fun c _ => rfl)
  have hothers : (tracked.map trackedFact).filter (·.kind = Kind.commitMessage) = [] :=
    List.filter_eq_nil_iff.mpr
      (List.forall_mem_map.mpr
      fun path _ => by simp [trackedFact, Kind.trackedArtifact, Kind.commitMessage])
  rw [controlBlock, List.filter_append, hgitignore, hhistory, List.filter_append, hmessages,
    hothers, List.nil_append, List.append_nil]

/-- No fact of a source file is about a commit. -/
theorem filter_commitMessage_blocks [Text.CharacterNames] (t : FileTree) (root : List String)
    (places : List (List String)) :
    (places.flatMap (blockAt t root)).filter (·.kind = Kind.commitMessage) = [] := by
  refine List.filter_eq_nil_iff.mpr fun f hf => ?_
  obtain ⟨names, -, hf⟩ := List.mem_flatMap.mp hf
  obtain ⟨most, hfiles⟩ := t.exists_filesBelow
  have hblock := inFile_blockAt hfiles root names
  exact List.filter_eq_nil_iff.mp (hblock.filter_eq_nil (by decide)) f hf

theorem Commit.fact_injective : Function.Injective Commit.fact := by
  rintro ⟨hash, subject⟩ ⟨hash', subject'⟩ h
  simp only [Commit.fact, Fact.mk.injEq, FactValue.text.injEq] at h
  obtain ⟨-, -, rfl, rfl⟩ := h
  rfl

/-- **The log of commits.** Git writes a line for each of some commits. A commit is read for each
line that any line end divides the log into, with a subject that is cut at the first line end in it,
and there are exactly these commits in the facts. So the commits themselves are read, and each has
its fact with the whole subject, if and only if no subject has a character that ends a line. -/
theorem commit_log_read_back [Text.CharacterNames] (git : Git) (commits : List Commit)
    (hplain : ∀ c ∈ commits, c.IsPlain) :
    (∀ limit, git.ask (.log limit) = .ok (logText commits) →
      git.commits limit = .ok (commits.flatMap Commit.readBack) ∧
      (git.commits limit = .ok commits ↔ ∀ c ∈ commits, c.IsOneLine)) ∧
    ∀ t path s files, t.isDirectoryAt (t.resolve path) = true →
      (∀ names ∈ selectedFiles t (t.resolve path) s, IsReadable t (t.resolve path) names) →
      s.withGit = true → git.isWorkTree = .ok true →
      git.ask (.log Git.commitLimit) = .ok (logText commits) → git.ask .files = .ok files →
      ∃ m ws, extract t git path s = .ok (m, ws) ∧
        m.ofKind Kind.commitMessage = (commits.flatMap Commit.readBack).map Commit.fact ∧
        (m.ofKind Kind.commitMessage = commits.map Commit.fact ↔ ∀ c ∈ commits, c.IsOneLine) := by
  have hread := flatMap_readBack_eq_iff hplain
  refine ⟨fun limit hlog => ?_, fun t path s files hroot hreadable hgit htree hlog hfiles => ?_⟩
  · have hcommits := commits_of_log hplain hlog
    refine ⟨hcommits, ?_⟩
    rw [hcommits, Except.ok.injEq]
    exact hread
  · obtain ⟨hlegible, hcontrol⟩ :=
      filter_commitMessage_controlBlock t (t.resolve path) htree (commits_of_log hplain hlog) hfiles
    obtain ⟨m, ws, h, hfacts⟩ := extract_of_isReadable hroot hreadable (hgit ▸ hlegible)
    have hmessages :
        m.ofKind Kind.commitMessage = (commits.flatMap Commit.readBack).map Commit.fact := by
      rw [ofKind_of_extract h, hfacts, List.filter_append, filter_commitMessage_blocks, hgit,
        hcontrol, List.nil_append]
    refine ⟨m, ws, h, hmessages, ?_⟩
    rw [hmessages, (List.map_injective_iff.mpr Commit.fact_injective).eq_iff]
    exact hread

/-- The replies of git in a work tree with some commits and no tracked file. -/
def logReplies (commits : List Commit) : Git
  | .workTree => .output "true\n"
  | .log _ => .output (logText commits)
  | .files => .output ""

theorem commit_log_read_back_cut :
    let commits : List Commit := [⟨"0f", "Mend\tthe é"⟩, ⟨"abc1234", "Add page\x0cbreak"⟩]
    (∀ c ∈ commits, c.IsPlain) ∧
    (logReplies commits).commits 50 = .ok [⟨"0f", "Mend\tthe é"⟩, ⟨"abc1234", "Add page"⟩] ∧
    ∃ m ws, extract ⟨["w"], []⟩ (logReplies commits) ⟨false, []⟩ {} = .ok (m, ws) ∧
      m.ofKind Kind.commitMessage =
        [Commit.fact ⟨"0f", "Mend\tthe é"⟩, Commit.fact ⟨"abc1234", "Add page"⟩] := by
  intro commits
  have hplain : ∀ c ∈ commits, c.IsPlain := by
    refine List.forall_mem_cons.mpr ⟨⟨List.all_eq_true.mp (by decide), by decide, by decide⟩,
      List.forall_mem_singleton.mpr ?_⟩
    exact ⟨List.all_eq_true.mp (by decide), by decide, by decide⟩
  have hread :
      commits.flatMap Commit.readBack = [⟨"0f", "Mend\tthe é"⟩, ⟨"abc1234", "Add page"⟩] := by
        decide +kernel
  have hselected : selectedFiles ⟨["w"], []⟩ ["w"] {} = [] := by decide +kernel
  obtain ⟨hcommits, hextract⟩ := commit_log_read_back (logReplies commits) commits hplain
  rw [hread] at hcommits hextract
  obtain ⟨m, ws, h, hmessages, -⟩ := hextract ⟨["w"], []⟩ ⟨false, []⟩ {} "" (by decide)
    (fun names hnames => absurd (hselected ▸ hnames) List.not_mem_nil) rfl (by decide +kernel)
      (by decide +kernel) (by decide +kernel)
  exact ⟨hplain, (hcommits 50 (by decide +kernel)).1, m, ws, h, hmessages⟩

/-- The subject of this commit is cut at the form feed. -/
theorem subject_cut_at_form_feed :
    let c : Commit := ⟨"abc1234", "Add page\x0cbreak"⟩
    c.IsPlain ∧ (logReplies [c]).commits Git.commitLimit = .ok [⟨"abc1234", "Add page"⟩] :=
  ⟨⟨List.all_eq_true.mp (by decide), by decide, by decide⟩, by decide +kernel⟩

end Scorecard
