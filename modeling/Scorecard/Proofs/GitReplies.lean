import Mathlib.Data.List.TakeWhile
import Scorecard.Codebase.Extract
import Scorecard.Proofs.Except
import Scorecard.Proofs.FactModel

set_option autoImplicit false

/-! # What is made of the replies of git

Three questions are put to git, and each may be refused. A refusal of the first one only says that
there is no work tree. One of the log is taken as a log without commits if it says that there are
none yet. Any other refusal of the log and any refusal of the list of files leaves nothing of what
git has replied before. So there is either a log together with a list of files (`Git.Answers`), and
a fact for each of their entries, or there is nothing (`extractHistory_of_answers`,
`extractHistory_of_not_answers`). Only a reply that is no text is an error.
-/

namespace Scorecard

namespace Git

variable {git : Git}

/-! ## Questions -/

theorem isWorkTree_eq_ok_true_iff :
    git.isWorkTree = .ok true ↔ ∃ text, git.ask .workTree = .ok text ∧
      Text.strip text = "true" := by
  unfold isWorkTree
  cases git.ask .workTree with
  | ok text => simp
  | error e => cases e <;> simp

theorem isWorkTree_eq_error_iff {u : Text.Utf8Error} :
    git.isWorkTree = .error u ↔ git.ask .workTree = .error (.notText u) := by
  unfold isWorkTree
  cases git.ask .workTree with
  | ok text => simp
  | error e => cases e <;> simp

/-! ## The log -/

/-- What is taken as the log: the reply, or nothing if git refuses because there is no commit
yet. -/
inductive HasLog (git : Git) : String → Prop where
  | replied {log : String} (h : git.ask (.log commitLimit) = .ok log) : HasLog git log
  | fresh {e : GitError} (h : git.ask (.log commitLimit) = .error (.refused e))
      (hfresh : saysNoCommits e = true) : HasLog git ""

/-- The commits on the lines of a log. -/
def commitsIn (log : String) : List Commit := (Text.lines log).filterMap commitOfLine?

theorem commits_eq_ok_iff {commits : List Commit} :
    git.commits commitLimit = .ok commits ↔ ∃ log, git.HasLog log ∧ commits = commitsIn log := by
  constructor
  · intro h
    unfold Git.commits at h
    split at h
    · rename_i text hask
      cases h
      exact ⟨text, .replied hask, rfl⟩
    · rename_i e hask
      split at h
      · rename_i hfresh
        cases h
        exact ⟨"", .fresh hask hfresh, rfl⟩
      · cases h
    · cases h
  · rintro ⟨log, hlog, rfl⟩
    cases hlog with
    | replied h =>
        rw [Git.commits, h]
        rfl
    | fresh h hfresh =>
        rw [Git.commits, h]
        dsimp only
        rw [if_pos hfresh]
        rfl

theorem commits_eq_notText_iff {limit : Int} {u : Text.Utf8Error} :
    git.commits limit = .error (.notText u) ↔ git.ask (.log limit) = .error (.notText u) := by
  unfold Git.commits
  cases git.ask (.log limit) with
  | ok text => simp
  | error e =>
      cases e with
      | refused e => by_cases hfresh : saysNoCommits e = true <;> simp [hfresh]
      | notText e => simp

/-- A commit is read from a line with a tab: what is before the first tab is the hash. -/
theorem commitOfLine?_eq_some_iff {line : String} {c : Commit} :
    commitOfLine? line = some c ↔ '\t' ∉ c.hash.toList ∧ line = c.hash ++ "\t" ++ c.subject := by
  have htab : ∀ {cs : List Char}, (∀ d ∈ cs, (d != '\t') = true) ↔ '\t' ∉ cs := by
    intro cs
    simp only [bne_iff_ne, ne_eq]
    exact ⟨fun h hmem => h _ hmem rfl, fun h d hd heq => h (heq ▸ hd)⟩
  constructor
  · intro h
    unfold commitOfLine? at h
    dsimp only at h
    split at h
    · rename_i first subject hdrop
      cases h
      -- what the hash ends at is a tab
      have hfirst : first = '\t' := by
        have hnot := List.head?_dropWhile_not (· != '\t') line.toList
        rw [hdrop] at hnot
        simpa using hnot
      refine ⟨?_, ?_⟩
      · rw [String.toList_ofList]
        exact htab.mp fun d hd => List.mem_takeWhile_imp (p := (· != '\t')) hd
      · apply String.toList_injective
        have hwhole := List.takeWhile_append_dropWhile (p := (· != '\t')) (l := line.toList)
        rw [hdrop, hfirst] at hwhole
        simp [hwhole]
    · cases h
  · rintro ⟨hhash, rfl⟩
    have hbefore := htab.mpr hhash
    unfold commitOfLine?
    simp [List.dropWhile_append_of_pos hbefore, List.takeWhile_append_of_pos hbefore]

/-- The commits of a log are those on the lines with a tab, in their order. -/
theorem forall₂_commitsIn (log : String) :
    List.Forall₂ (fun line c => '\t' ∉ c.hash.toList ∧ line = c.hash ++ "\t" ++ c.subject)
      ((Text.lines log).filter fun line => line.toList.contains '\t') (commitsIn log) := by
  unfold commitsIn
  induction Text.lines log with
  | nil => exact .nil
  | cons line lines ih =>
      cases hread : commitOfLine? line with
      | some c =>
          obtain ⟨hhash, hline⟩ := commitOfLine?_eq_some_iff.mp hread
          rw [List.filter_cons_of_pos (by simp [hline]), List.filterMap_cons_some hread]
          exact .cons ⟨hhash, hline⟩ ih
      | none =>
          -- a line with a tab would have been read
          have htab : ¬line.toList.contains '\t' = true := by
            intro hmem
            obtain ⟨before, after, hsplit, hbefore⟩ :=
              List.eq_append_cons_of_mem (List.contains_iff_mem.mp hmem)
            have hline : line = String.ofList before ++ "\t" ++ String.ofList after := by
              apply String.toList_injective
              simp [hsplit]
            have hsome : commitOfLine? line = some ⟨String.ofList before, String.ofList after⟩ :=
              commitOfLine?_eq_some_iff.mpr ⟨by simpa using hbefore, hline⟩
            cases hread.symm.trans hsome
          rw [List.filter_cons_of_neg (p := fun line : String => line.toList.contains '\t') htab,
            List.filterMap_cons_none hread]
          exact ih

/-! ## Tracked files -/

/-- The entries of a list of files, in code point order. -/
def filesIn (listed : String) : List String :=
  ((Text.splitOn '\x00' listed).filter (· ≠ "")).mergeSort Text.precedes

theorem trackedFiles_eq_ok_iff {tracked : List String} :
    git.trackedFiles = .ok tracked ↔ ∃ listed, git.ask .files = .ok listed ∧
      tracked = filesIn listed := by
  unfold trackedFiles
  rw [bind_eq_ok_iff]
  exact exists_congr fun listed =>
    and_congr_right fun _ => ⟨fun h => (Except.ok.inj h).symm, fun h => h ▸ rfl⟩

theorem trackedFiles_eq_error_iff {e : AskError} :
    git.trackedFiles = .error e ↔ git.ask .files = .error e := by
  unfold trackedFiles
  rw [bind_eq_error_iff]
  constructor
  · rintro (h | ⟨listed, -, h⟩)
    · exact h
    · cases h
  · exact Or.inl

theorem filesIn_perm (listed : String) :
    (filesIn listed).Perm ((Text.splitOn '\x00' listed).filter (· ≠ "")) := List.mergeSort_perm _ _

theorem pairwise_filesIn (listed : String) : (filesIn listed).Pairwise (· ≤ ·) :=
  Text.pairwise_mergeSort _

/-! ## The history -/

/-- Git answers all three questions: it is in a work tree, and it has this log and lists these
files. -/
structure Answers (git : Git) (log listed : String) : Prop where
  workTree : ∃ text, git.ask .workTree = .ok text ∧ Text.strip text = "true"
  log : git.HasLog log
  files : git.ask .files = .ok listed

/-- What git replies to a question is no text. -/
def Garbles (git : Git) (u : Text.Utf8Error) : Prop := ∃ q, git.ask q = .error (.notText u)

end Git

section

variable {git : Git} {root : List String} {withGit : Bool}

/-- What git says of a work tree is complete, nothing, or no text. -/
theorem askHistory_cases (git : Git) (root : List String) :
    (∃ log listed, git.HasLog log ∧ git.ask .files = .ok listed ∧
      askHistory git root = .ok (historyExtraction (Git.commitsIn log) (Git.filesIn listed))) ∨
    ((¬∃ log listed, git.HasLog log ∧ git.ask .files = .ok listed) ∧
      ((∃ ws, askHistory git root = .ok { warnings := ws }) ∨
        ∃ u, git.Garbles u ∧ askHistory git root = .error u)) := by
  cases hcommits : git.commits Git.commitLimit with
  | error e =>
      refine Or.inr ⟨?_, ?_⟩
      · rintro ⟨log, -, hlog, -⟩
        cases hcommits.symm.trans (Git.commits_eq_ok_iff.mpr ⟨log, hlog, rfl⟩)
      · cases e with
        | refused e => exact Or.inl ⟨_, by rw [askHistory, hcommits]; rfl⟩
        | notText u =>
            exact Or.inr
              ⟨u, ⟨_, Git.commits_eq_notText_iff.mp hcommits⟩, by rw [askHistory, hcommits]; rfl⟩
  | ok commits =>
      obtain ⟨log, hlog, rfl⟩ := Git.commits_eq_ok_iff.mp hcommits
      cases htracked : git.trackedFiles with
      | error e =>
          have hask := Git.trackedFiles_eq_error_iff.mp htracked
          refine Or.inr ⟨?_, ?_⟩
          · rintro ⟨-, listed, -, hlisted⟩
            cases hask.symm.trans hlisted
          · cases e with
            | refused e => exact Or.inl ⟨_, by rw [askHistory, hcommits, htracked]; rfl⟩
            | notText u => exact Or.inr ⟨u, ⟨_, hask⟩, by rw [askHistory, hcommits, htracked]; rfl⟩
      | ok tracked =>
          obtain ⟨listed, hlisted, rfl⟩ := Git.trackedFiles_eq_ok_iff.mp htracked
          exact Or.inl ⟨log, listed, hlog, hlisted, by rw [askHistory, hcommits, htracked]; rfl⟩

/-- Inside of a work tree git is asked for its history. -/
theorem extractHistory_of_workTree (h : git.isWorkTree = .ok true) (root : List String) :
    extractHistory git root true = askHistory git root := by
  rw [extractHistory, h]
  rfl

/-- If git answers, there is a fact for every commit and every tracked file. -/
theorem extractHistory_of_answers {log listed : String} (h : git.Answers log listed)
    (root : List String) : extractHistory git root true =
      .ok (historyExtraction (Git.commitsIn log) (Git.filesIn listed)) := by
  have hcommits := Git.commits_eq_ok_iff.mpr ⟨log, h.log, rfl⟩
  have hfiles := Git.trackedFiles_eq_ok_iff.mpr ⟨listed, h.files, rfl⟩
  rw [extractHistory_of_workTree (Git.isWorkTree_eq_ok_true_iff.mpr h.workTree), askHistory,
    hcommits, hfiles]
  rfl

/-- If git is not asked, or does not answer one of the questions, there is no fact. -/
theorem extractHistory_of_not_answers (h : ¬(withGit = true ∧ ∃ log listed, git.Answers log listed))
    (root : List String) :
    (∃ ws, extractHistory git root withGit = .ok { warnings := ws }) ∨
      withGit = true ∧ ∃ u, git.Garbles u ∧ extractHistory git root withGit = .error u := by
  cases withGit with
  | false => exact Or.inl ⟨[], rfl⟩
  | true =>
      cases htree : git.isWorkTree with
      | error u =>
          refine Or.inr ⟨rfl, u, ⟨_, Git.isWorkTree_eq_error_iff.mp htree⟩, ?_⟩
          rw [extractHistory, htree]
          rfl
      | ok isTree =>
          cases isTree with
          | false =>
              refine Or.inl ⟨[], ?_⟩
              rw [extractHistory, htree]
              rfl
          | true =>
              rw [extractHistory_of_workTree htree]
              rcases askHistory_cases git root with ⟨log, listed, hlog, hlisted, -⟩ | ⟨-,
                hnone | herror⟩
              · -- the log and the files were read, so that git has answered
                exact absurd ⟨rfl, log, listed, Git.isWorkTree_eq_ok_true_iff.mp htree, hlog,
                  hlisted⟩ h
              · exact Or.inl hnone
              · exact Or.inr ⟨rfl, herror⟩

/-- The history is complete, or there is none. -/
theorem extractHistory_cases {e : Extraction} (h : extractHistory git root withGit = .ok e) :
    (e.facts = [] ∧ e.files = []) ∨
      ∃ log listed, e = historyExtraction (Git.commitsIn log) (Git.filesIn listed) := by
  by_cases hanswers : withGit = true ∧ ∃ log listed, git.Answers log listed
  · obtain ⟨rfl, log, listed, hanswers⟩ := hanswers
    exact Or.inr ⟨log, listed, Except.ok.inj
      (h.symm.trans (extractHistory_of_answers hanswers root))⟩
  · rcases extractHistory_of_not_answers hanswers root with ⟨ws, hnone⟩ | ⟨-, u, -, herror⟩
    · cases h.symm.trans hnone
      exact Or.inl ⟨rfl, rfl⟩
    · cases h.symm.trans herror

end

end Scorecard
