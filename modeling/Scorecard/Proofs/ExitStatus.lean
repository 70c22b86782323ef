import Scorecard.Proofs.ConfigErrors
import Scorecard.Proofs.FactsDocument
import Scorecard.Proofs.Outcome

set_option autoImplicit false

/-! # Exit statuses

What the exit status of `score` says. The status 1 is meant for a score below its threshold, and the
status 2 for everything that a user can mend. Four failures have the status 1 too (`Escapes`): the
path of the configuration file is too long or leads to a directory, an integer among the settings is
beyond the range of numbers, or the time budget is longer than can be waited for. Without them the
status is 1 exactly if a report is printed whose score is below the threshold in force, and every
failure has the status 2. A report may not be printable if it quotes half of a surrogate pair from a
facts file, where `Json.parse` puts a character that is, so facts files with such halves are left
out (`Json.IsPaired`).
-/

namespace Scorecard

variable {t : FileTree} {repository path : Path} {named : Option Path} {c : Config}

namespace Json

/-- Whether every escape that writes half of a surrogate pair stands beside that of the other
half. -/
def arePaired : List Char → Bool
  | '\\' :: 'u' :: a :: b :: c :: d :: cs =>
    match hex4? a b c d with
    | none => arePaired cs
    | some n =>
      if 0xD800 ≤ n && n ≤ 0xDBFF then
        match cs with
        | '\\' :: 'u' :: e :: f :: g :: h :: cs =>
          (hex4? e f g h).any (fun lo => 0xDC00 ≤ lo && lo ≤ 0xDFFF) && arePaired cs
        | _ => false
      else !(0xDC00 ≤ n && n ≤ 0xDFFF) && arePaired cs
  | '\\' :: _ :: cs => arePaired cs
  | _ :: cs => arePaired cs
  | [] => true

/-- No half of a surrogate pair is written alone in a text. -/
def IsPaired (s : String) : Prop := arePaired s.toList = true

instance (s : String) : Decidable (IsPaired s) := inferInstanceAs (Decidable (_ = true))

end Json

/-! ## How a command ends -/

namespace Command

section Ends

variable [Text.CharacterNames]

/-- Everything that an evaluation needs is there: the configuration, with what the command line
changes of it, the format of the report, and the facts with what they come from. -/
def Prepares (w : Workspace) (o : ScoreOptions) (c : Config) (format : Format) (m : FactModel)
    (source : String) : Prop :=
  ∃ loaded, loadConfig .nearest w o.path o.configFile = .ok loaded ∧
    reportFormat o loaded = .ok format ∧
    withMost o.most loaded = .ok c ∧ factsToScore w o c = .ok (m, source)

/-- A report is printed: the one of an evaluation for which everything is there. -/
def Prints (w : Workspace) (o : ScoreOptions) (c : Config) (report : Report) (done : Completed) :
    Prop :=
  ∃ format m source, Prepares w o c format m source ∧ run .nearest m c w.wait = .ok report ∧
    done.output = reportText .nearest format source w.time report ++ "\n"

/-- The failures with the status 1. -/
inductive Escapes (w : Workspace) (o : ScoreOptions) : CommandError → Prop where
  /-- It cannot be said if there is a configuration file, as its path is too long. -/
  | tooLong {path : String} (hfind : Config.findFile w.files o.path o.configFile =
      .error (.access (.tooLong path))) : Escapes w o (.access (.tooLong path))
  /-- The configuration file is a directory. -/
  | directory {path : Path} (hfind : Config.findFile w.files o.path o.configFile = .ok (some path))
      (hdirectory : w.files.locate path = .ok .directory) :
          Escapes w o (.access (.isDirectory path.text))
  /-- An integer in the configuration file is beyond the range of numbers, and nothing before it is
  wrong. -/
  | tooLarge {path : Path} {settings : Fields} {n : Int}
      (hfind : Config.findFile w.files o.path o.configFile = .ok (some path))
      (hsettings : readSettings w.files path = .ok settings)
        (hmem : .int n ∈ numberSettings settings) (hbeyond : IsBeyondNumbers n)
      (hfirst : Config.ofFields .nearest path.text settings = .error .tooLarge) :
          Escapes w o .tooLarge
  /-- The tasks of an evaluation do not end at once, and the time budget is longer than can be
  waited for. -/
  | unwaitable {c : Config} {format : Format} {m : FactModel} {source : String}
      {active : List String} {budget : Number}
      (hprepares : Prepares w o c format m source) (hprintable : c.limits.arePrintable = true)
      (hselect : (Registry.builtIn .nearest c.limits).select c.enabled c.disabled = .ok active)
        (hwait : w.wait = .refused)
      (hbudget : c.budget = some budget) (hlong : longestWait.le budget = true) :
          Escapes w o .unwaitable

end Ends

/-- The error says what is wrong with a value that the user gave. -/
def CommandError.IsBadValue (e : CommandError) : Prop :=
  ∃ subject reason, e = .badValue subject reason

end Command

/-! ## Configuration files -/

/-- If a configuration is refused because of an integer beyond the range of numbers, there is one
among its settings. -/
theorem Config.ofFields_eq_tooLarge {source : String} {fields : Fields}
    (h : Config.ofFields .nearest source fields = .error .tooLarge) :
    ∃ n, .int n ∈ numberSettings fields ∧ IsBeyondNumbers n := by
  rcases Config.ofFields_error h with hreported | ⟨-, hbeyond⟩ | ⟨hother, -⟩
  · cases hreported
  · exact hbeyond
  · cases hother

/-- A file that exists can be read unless it is a directory. -/
theorem FileTree.read_eq_error_iff (h : t.has path = .ok true) {e : AccessError} :
    t.read path = .error e ↔ t.locate path = .ok .directory ∧ e = .isDirectory path.text := by
  unfold FileTree.has at h
  unfold FileTree.read
  cases hlocate : t.locate path with
  | error e' =>
      rw [hlocate] at h
      cases e' <;> cases h
  | ok entry =>
      cases entry with
      | file bytes =>
          constructor
          · intro hread
            cases hread
          · rintro ⟨hdirectory, -⟩
            cases hdirectory
      | directory =>
          constructor
          · intro hread
            cases hread
            exact ⟨rfl, rfl⟩
          · rintro ⟨-, rfl⟩
            rfl

theorem FileTree.has_eq_error {p : Path} {e : AccessError} (h : t.has p = .error e) :
    ∃ path, e = .tooLong path := by
  unfold FileTree.has at h
  split at h <;> cases h
  exact ⟨_, rfl⟩

theorem FileTree.has_of_firstWithEntry {paths : List Path}
    (h : t.firstWithEntry paths = .ok (some path)) : t.has path = .ok true := by
  induction paths with
  | nil => cases h
  | cons p rest ih =>
      obtain ⟨there, hhas, h⟩ := bind_eq_ok_iff.mp h
      cases there with
      | true =>
          cases h
          exact hhas
      | false => exact ih h

theorem FileTree.firstWithEntry_eq_error {paths : List Path} {e : AccessError}
    (h : t.firstWithEntry paths = .error e) : ∃ path, e = .tooLong path := by
  induction paths with
  | nil => cases h
  | cons p rest ih =>
      rcases bind_eq_error_iff.mp h with hhas | ⟨there, -, h⟩
      · exact FileTree.has_eq_error hhas
      · cases there with
        | true => cases h
        | false => exact ih h

theorem Config.has_of_findFile (h : Config.findFile t repository named = .ok (some path)) :
    t.has path = .ok true := by
  unfold Config.findFile at h
  split at h
  · obtain ⟨there, hhas, h⟩ := bind_eq_ok_iff.mp h
    cases there with
    | true =>
        cases h
        exact mapError_eq_ok_iff.mp hhas
    | false => cases h
  · exact FileTree.has_of_firstWithEntry (mapError_eq_ok_iff.mp h)

/-- A configuration file is not found if it is named and does not exist, or if a path is too
long. -/
theorem Config.findFile_eq_error {e : LoadError}
    (h : Config.findFile t repository named = .error e) :
    (∃ path, e = .missing path) ∨ ∃ path, e = .access (.tooLong path) := by
  unfold Config.findFile at h
  split at h
  · rcases bind_eq_error_iff.mp h with hhas | ⟨there, -, h⟩
    · obtain ⟨a, ha, rfl⟩ := mapError_eq_error_iff.mp hhas
      obtain ⟨path, rfl⟩ := FileTree.has_eq_error ha
      exact Or.inr ⟨path, rfl⟩
    · cases there with
      | true => cases h
      | false =>
          cases h
          exact Or.inl ⟨_, rfl⟩
  · obtain ⟨a, ha, rfl⟩ := mapError_eq_error_iff.mp h
    obtain ⟨path, rfl⟩ := FileTree.firstWithEntry_eq_error ha
    exact Or.inr ⟨path, rfl⟩

/-- The bytes of a file are asked for first. What is wrong with them is no matter of access, nor of
a setting. -/
theorem readSettings_eq_error {e : LoadError} (h : readSettings t path = .error e) :
    (∃ a, t.read path = .error a ∧ e = .access a) ∨ (∀ a, e ≠ .access a) ∧ ∀ c, e ≠ .config c := by
  simp only [readSettings] at h
  rcases bind_eq_error_iff.mp h with hread | ⟨bytes, -, h⟩
  · obtain ⟨a, ha, rfl⟩ := mapError_eq_error_iff.mp hread
    exact Or.inl ⟨a, ha, rfl⟩
  right
  rcases bind_eq_error_iff.mp h with hdecode | ⟨cs, -, h⟩
  · obtain ⟨u, -, rfl⟩ := mapError_eq_error_iff.mp hdecode
    simp
  · split at h <;> cases h <;> simp

/-- What a file says is loaded, if it is a file with settings that are in order. -/
theorem Config.load_eq_error {e : LoadError}
    (h : Config.load .nearest t repository named = .error e) :
    (∃ path, Config.findFile t repository named = .error e ∧ e = .access (.tooLong path)) ∨
      (∃ path, Config.findFile t repository named = .ok (some path) ∧
        t.locate path = .ok .directory ∧ e = .access (.isDirectory path.text)) ∨
      (∃ path settings c, Config.findFile t repository named = .ok (some path) ∧
        readSettings t path = .ok settings ∧
        Config.ofFields .nearest path.text settings = .error c ∧ e = .config c) ∨
      (∀ a, e ≠ .access a) ∧ ∀ c, e ≠ .config c := by
  rcases bind_eq_error_iff.mp h with hfind | ⟨found, hfind, h⟩
  · rcases Config.findFile_eq_error hfind with ⟨path, rfl⟩ | ⟨path, rfl⟩
    · exact Or.inr (Or.inr (Or.inr (by simp)))
    · exact Or.inl ⟨path, hfind, rfl⟩
  cases found with
  | none => cases h
  | some path =>
      rcases bind_eq_error_iff.mp h with hsettings | ⟨settings, hsettings, h⟩
      · rcases readSettings_eq_error hsettings with ⟨a, hread, rfl⟩ | hother
        · obtain ⟨hdirectory, rfl⟩ :=
            (FileTree.read_eq_error_iff (Config.has_of_findFile hfind)).mp hread
          exact Or.inr (Or.inl ⟨path, hfind, hdirectory, rfl⟩)
        · exact Or.inr (Or.inr (Or.inr hother))
      · split at h
        · cases h
        · obtain ⟨c, hc, rfl⟩ := mapError_eq_error_iff.mp h
          exact Or.inr (Or.inr (Or.inl ⟨path, settings, c, hfind, hsettings, hc, rfl⟩))

theorem Config.load_of_findFile_error {e : LoadError}
    (hfind : Config.findFile t repository named = .error e) :
    Config.load .nearest t repository named = .error e := by
  simp only [Config.load, hfind, bind, Except.bind]

theorem Config.load_of_directory (hfind : Config.findFile t repository named = .ok (some path))
    (hdirectory : t.locate path = .ok .directory) :
    Config.load .nearest t repository named = .error (.access (.isDirectory path.text)) := by
  have hread : t.read path = .error (.isDirectory path.text) :=
    (FileTree.read_eq_error_iff (Config.has_of_findFile hfind)).mpr ⟨hdirectory, rfl⟩
  simp only [Config.load, Config.ofFile, readSettings, hfind, hread, bind, Except.bind]
  rfl

theorem Config.load_of_tooLarge {settings : Fields}
    (hfind : Config.findFile t repository named = .ok (some path))
    (hsettings : readSettings t path = .ok settings)
    (hlarge : Config.ofFields .nearest path.text settings = .error .tooLarge) :
    Config.load .nearest t repository named = .error (.config .tooLarge) := by
  -- so the file is not skipped as one without settings
  have hne : settings.isEmpty = false := by
    cases settings with
    | nil =>
        obtain ⟨n, hn, -⟩ := Config.ofFields_eq_tooLarge hlarge
        simp [numberSettings, Fields.table?, Fields.get?] at hn
    | cons field rest => rfl
  simp only [Config.load, Config.ofFile, hfind, bind, Except.bind, hsettings, hne, Bool.and_false,
    hlarge]
  rfl

/-- A configuration that is loaded is sound, also if no file is. -/
theorem Config.load_sound (h : Config.load .nearest t repository named = .ok c) : c.Sound := by
  obtain ⟨found, -, h⟩ := bind_eq_ok_iff.mp h
  cases found with
  | none =>
      cases h
      exact Config.sound_default
  | some path =>
      obtain ⟨settings, -, h⟩ := bind_eq_ok_iff.mp h
      split at h
      · cases h
        exact Config.sound_default
      · exact Config.ofFields_sound (mapError_eq_ok_iff.mp h)

/-! ## Evaluations -/

/-- A selection that is made has known ids only. -/
theorem Registry.known_of_select {r : Registry} {enabled : Option (List String)}
    {disabled active : List String} (h : r.select enabled disabled = .ok active) :
    ∀ id ∈ enabled.getD [] ++ disabled, r.get? id ≠ none := by
  intro id hid hnone
  have hne : r.unknownIds (enabled.getD [] ++ disabled) ≠ [] :=
    List.ne_nil_of_mem (Registry.mem_unknownIds.mpr ⟨hid, hnone⟩)
  rw [Registry.select_eq_error rfl hne] at h
  cases h

/-- How a run of the built-in rules under a sound configuration can end. -/
theorem run_cases (m : FactModel) (hsound : c.Sound) (wait : Wait) :
    (c.limits.arePrintable = false ∧ run .nearest m c wait = .error .unprintable) ∨
      c.limits.arePrintable = true ∧
        ((∃ ids, run .nearest m c wait = .error (.unknownRules ids)) ∨
          (∃ active, (Registry.builtIn .nearest c.limits).select c.enabled c.disabled =
            .ok active) ∧ ((∃ e, wait.error? c.budget = some e ∧ run .nearest m c wait = .error e) ∨
              wait.error? c.budget = none ∧
                ((∃ report, run .nearest m c wait = .ok report) ∨
                  run .nearest m c wait = .error (.report (.unwritable .tooManyDigits))))) := by
  cases hprintable : c.limits.arePrintable with
  | false => exact Or.inl ⟨rfl, run_of_not_printable hprintable m wait⟩
  | true =>
      refine Or.inr ⟨rfl, ?_⟩
      rw [run_of_printable hprintable m wait]
      obtain ⟨ws, hws⟩ := hsound.1
      cases hselect : (Registry.builtIn .nearest c.limits).select c.enabled c.disabled with
      | error ids => exact Or.inl ⟨ids, by simp only [runWith, hws, hselect]⟩
      | ok active =>
          refine Or.inr ⟨⟨active, rfl⟩, ?_⟩
          cases hwait : wait.error? c.budget with
          | some e => exact Or.inl ⟨e, rfl, by simp only [runWith, hws, hselect, hwait]⟩
          | none =>
              obtain ⟨scores, -, hends⟩ :=
                runWith_builtIn_of_sound m c.limits hsound (Registry.known_of_select hselect)
              have hreports := (hends wait).1 hwait
              refine Or.inr ⟨rfl, ?_⟩
              by_cases hwritable : AreWritable c.bounds.most scores
              · obtain ⟨report, hreport, -⟩ := hreports.report hwritable
                exact Or.inl ⟨report, hreport⟩
              · exact Or.inr (hreports.refusal hwritable)

/-! ## Scoring -/

namespace Command

theorem CommandError.IsBadValue.status_eq {e : CommandError} (h : e.IsBadValue) : e.status = 2 := by
  obtain ⟨subject, reason, rfl⟩ := h
  rfl

theorem reportFormat_eq_error {o : ScoreOptions} {e : CommandError}
    (h : reportFormat o c = .error e) : e.IsBadValue := by
  unfold reportFormat formatNamed at h
  split at h
  · split at h
    · cases h
    · split at h <;> cases h
      exact ⟨_, _, rfl⟩
  · cases h

theorem withMost_eq_error {e : CommandError} {most : Option Int} (h : withMost most c = .error e) :
    e.IsBadValue := by
  unfold withMost at h
  split at h
  · cases h
  · split at h <;> cases h
    exact ⟨_, _, rfl⟩

theorem withMost_sound {c c' : Config} {most : Option Int} (h : withMost most c = .ok c')
    (hsound : c.Sound) : c'.Sound := by
  unfold withMost at h
  split at h
  · cases h
    exact hsound
  · split at h <;> cases h
    exact hsound

theorem isBelow_eq_true_iff {x : Number} {bound : Option Number} :
    isBelow x bound = true ↔ ∃ t, bound = some t ∧ x.lt t = true := by
  cases bound <;> simp [isBelow]

theorem loadConfig_sound {w : Workspace} (h : loadConfig .nearest w repository named = .ok c) :
    c.Sound :=
  Config.load_sound (mapError_eq_ok_iff.mp h)

section Stages

variable [Text.CharacterNames] {w : Workspace} {o : ScoreOptions} {format : Format}
  {m : FactModel} {source : String} {e : CommandError} {report : Report} {done : Completed}

theorem Escapes.status_eq (h : Escapes w o e) : e.status = 1 := by
  cases h <;> rfl

/-! Before the evaluation, only the loading of the configuration fails with anything else than a bad
value. -/

/-- A configuration that cannot be loaded is a bad value, or one of the failures with the status
1. -/
theorem loadConfig_eq_error (h : loadConfig .nearest w o.path o.configFile = .error e) :
    Escapes w o e ∨ e.IsBadValue := by
  obtain ⟨e', hload, rfl⟩ := mapError_eq_error_iff.mp h
  rcases Config.load_eq_error hload with ⟨path, hfind, rfl⟩ | ⟨path, hfind, hdirectory,
    rfl⟩ | ⟨path, settings, c, hfind, hsettings, hc, rfl⟩ |
    ⟨haccess, hconfig⟩
  · exact Or.inl (.tooLong hfind)
  · exact Or.inl (.directory hfind hdirectory)
  · by_cases hlarge : c = .tooLarge
    · subst hlarge
      obtain ⟨n, hmem, hbeyond⟩ := Config.ofFields_eq_tooLarge hc
      exact Or.inl (.tooLarge hfind hsettings hmem hbeyond hc)
    · right
      cases c <;> first | exact absurd rfl hlarge | exact ⟨_, _, rfl⟩
  · right
    cases e' with
    | access a => exact absurd rfl (haccess a)
    | config c => exact absurd rfl (hconfig c)
    | _ => exact ⟨_, _, rfl⟩

theorem collect_eq_error {s : Selection} (h : collect w path s = .error e) : e.IsBadValue := by
  unfold collect at h
  split at h <;> cases h
  exact ⟨_, _, rfl⟩

theorem factsToScore_eq_error (h : factsToScore w o c = .error e) : e.IsBadValue := by
  unfold factsToScore at h
  split at h
  · split at h <;> cases h
    exact ⟨_, _, rfl⟩
  · rcases bind_eq_error_iff.mp h with hcollect | ⟨m, -, h⟩
    · exact collect_eq_error hcollect
    · cases h

/-- The configuration under which an evaluation is made is sound. -/
theorem Prepares.sound (h : Prepares w o c format m source) : c.Sound := by
  obtain ⟨loaded, hload, -, hmost, -⟩ := h
  exact withMost_sound hmost (loadConfig_sound hload)

/-- If everything is there, `score` prints the report of the evaluation. Its status compares the
score with the threshold. -/
theorem Prepares.score_eq (h : Prepares w o c format m source) :
    score .nearest w o = ((run .nearest m c w.wait).mapError .ofRun).map fun report =>
      { w.print (reportText .nearest format source w.time report) with
        status := if isBelow report.overall (threshold o c) then 1 else 0 } := by
  obtain ⟨loaded, hload, hformat, hmost, hfacts⟩ := h
  simp only [score, hload, hformat, hmost, hfacts, bind, Except.bind]
  cases run .nearest m c w.wait <;> rfl

/-- Without everything that an evaluation needs, `score` fails. -/
theorem prepares_or_error (w : Workspace) (o : ScoreOptions) :
    (∃ c format m source, Prepares w o c format m source) ∨
      ∃ e, score .nearest w o = .error e ∧ (Escapes w o e ∨ e.IsBadValue) := by
  unfold score
  -- the four steps in their order, of which only the first has failures that escape
  cases hload : loadConfig .nearest w o.path o.configFile with
  | error e => exact Or.inr ⟨e, rfl, loadConfig_eq_error hload⟩
  | ok loaded =>
      cases hformat : reportFormat o loaded with
      | error e =>
          exact Or.inr ⟨e, by simp only [hformat, bind, Except.bind],
            Or.inr (reportFormat_eq_error hformat)⟩
      | ok format =>
          cases hmost : withMost o.most loaded with
          | error e =>
              exact Or.inr ⟨e, by simp only [hformat, hmost, bind, Except.bind],
                Or.inr (withMost_eq_error hmost)⟩
          | ok c =>
              cases hfacts : factsToScore w o c with
              | error e =>
                  exact Or.inr ⟨e, by simp only [hformat, hmost, hfacts, bind, Except.bind],
                    Or.inr (factsToScore_eq_error hfacts)⟩
              | ok found =>
                  exact Or.inl ⟨c, format, found.1, found.2, loaded, hload, hformat, hmost, hfacts⟩

/-- How `score` can end: with a failure that has the status 1, with a bad value, or with a
report. -/
theorem score_cases (w : Workspace) (o : ScoreOptions) :
    (∃ e, Escapes w o e ∧ score .nearest w o = .error e) ∨
      (∃ e, e.IsBadValue ∧ score .nearest w o = .error e) ∨
      ∃ c report done, Prints w o c report done ∧ score .nearest w o = .ok done ∧
        done.status = if isBelow report.overall (threshold o c) then 1 else 0 := by
  rcases prepares_or_error w o with ⟨c, format, m, source, hprepares⟩ | ⟨e, hscore, hescapes | hbad⟩
  · have hscore := hprepares.score_eq
    -- of the ways in which an evaluation can end, only one has the status 1 without a report
    rcases run_cases m hprepares.sound w.wait with ⟨-, hrun⟩ |
      ⟨hprintable, ⟨ids, hrun⟩ | ⟨⟨active, hselect⟩, ⟨e, hwait, hrun⟩ | ⟨-, ⟨report, hrun⟩ | hrun⟩⟩⟩
    all_goals rw [hrun] at hscore
    · exact Or.inr (Or.inl ⟨_, ⟨_, _, rfl⟩, hscore⟩)
    · exact Or.inr (Or.inl ⟨_, ⟨_, _, rfl⟩, hscore⟩)
    · rcases Wait.error?_eq_some hwait with ⟨b, left, rfl⟩ | ⟨hrefused, ⟨b, hbudget, hlong⟩, rfl⟩
      · exact Or.inr (Or.inl ⟨_, ⟨_, _, rfl⟩, hscore⟩)
      · exact Or.inl ⟨_, .unwaitable hprepares hprintable hselect hrefused hbudget hlong, hscore⟩
    · exact Or.inr (Or.inr ⟨c, report, _, ⟨format, m, source, hprepares, hrun, rfl⟩, hscore, rfl⟩)
    · exact Or.inr (Or.inl ⟨_, ⟨_, _, rfl⟩, hscore⟩)
  · exact Or.inl ⟨e, hescapes, hscore⟩
  · exact Or.inr (Or.inl ⟨e, hbad, hscore⟩)

theorem Escapes.score_eq (h : Escapes w o e) : score .nearest w o = .error e := by
  cases h with
  | tooLong hfind =>
      simp only [score, loadConfig, Config.load_of_findFile_error hfind]
      rfl
  | directory hfind hdirectory =>
      simp only [score, loadConfig, Config.load_of_directory hfind hdirectory]
      rfl
  | tooLarge hfind hsettings hmem hbeyond hfirst =>
      simp only [score, loadConfig, Config.load_of_tooLarge hfind hsettings hfirst]
      rfl
  | unwaitable hprepares hprintable hselect hwait hbudget hlong =>
      obtain ⟨ws, hws⟩ := hprepares.sound.1
      rw [hprepares.score_eq, run_of_printable hprintable]
      simp only [runWith, hws, hselect, hwait, hbudget, Wait.error?, hlong, if_true]
      rfl

/-- Nothing escapes where there is no configuration file and all tasks end in time. -/
theorem not_escapes (hfind : Config.findFile w.files o.path o.configFile = .ok none)
    (hwait : w.wait = .complete) : ∀ e, ¬Escapes w o e := by
  rintro e (hfind' | ⟨hfind', -⟩ | ⟨hfind', -, -, -, -⟩ | ⟨-, -, -, hwait', -, -⟩)
  · cases hfind.symm.trans hfind'
  · cases hfind.symm.trans hfind'
  · cases hfind.symm.trans hfind'
  · cases hwait.symm.trans hwait'

/-- A report that is printed has the status that compares its score with the threshold. -/
theorem Prints.status_eq (h : Prints w o c report done) (hscore : score .nearest w o = .ok done) :
    done.status = if isBelow report.overall (threshold o c) then 1 else 0 := by
  obtain ⟨format, m, source, hprepares, hrun, -⟩ := h
  rw [hprepares.score_eq, hrun] at hscore
  cases hscore
  rfl

/-- A score below the threshold has the status 1. -/
theorem Prints.status_eq_one_iff (h : Prints w o c report done)
    (hscore : score .nearest w o = .ok done) :
    done.status = 1 ↔ ∃ t, threshold o c = some t ∧ report.overall.lt t = true := by
  rw [h.status_eq hscore, ← isBelow_eq_true_iff]
  cases isBelow report.overall (threshold o c) <;> simp

/-- A score that is not below the threshold, or has none, has the status 0. -/
theorem Prints.status_eq_zero_iff (h : Prints w o c report done)
    (hscore : score .nearest w o = .ok done) :
    done.status = 0 ↔ ∀ t, threshold o c = some t → report.overall.lt t = false := by
  rw [h.status_eq hscore]
  cases threshold o c with
  | none => simp [isBelow]
  | some t => cases hlt : report.overall.lt t <;> simp [isBelow, hlt]

end Stages

/-- A repository with a directory in the place of its configuration file. -/
def directoryAsConfig : Workspace where
  files := ⟨["w"], [(["w", ".style-rubric.toml"], .directory)]⟩
  git _ := .noExecutable
  time := "now"
  wait := .complete

theorem emptyRepository_prepares :
    Prepares emptyRepository {} {} .text emptyRepositoryFacts "path:." := by
  obtain ⟨-, hload, hcollect, -⟩ := emptyRepository_settings
  refine ⟨{}, hload, rfl, rfl, ?_⟩
  simp only [factsToScore, bind, Except.bind, hcollect]
  rfl

end Command

end Scorecard
