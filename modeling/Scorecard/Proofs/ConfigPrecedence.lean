import Scorecard.Config.Load
import Scorecard.Proofs.Except

set_option autoImplicit false

/-! # Which file the configuration comes from

The configuration of a repository comes from one file: the one that is named, or the first that
exists of three. What it is, or why there is none, depends on what stands at the path of this file
and on nothing else in the file tree (`config_precedence_noninterference`). In particular the files
that come later may hold anything.
-/

namespace Scorecard

/-- What stands at a path, if anything does. It cannot be said of a path that is too long. -/
def FileTree.look (t : FileTree) (p : Path) : Except AccessError (Option Entry) :=
  match t.locate p with
  | .ok e => .ok (some e)
  | .error (.tooLong path) => .error (.tooLong path)
  | .error _ => .ok none

namespace FileTree

variable {t t' : FileTree} {p : Path}

theorem has_eq_look : t.has p = Option.isSome <$> t.look p := by
  unfold has look
  cases t.locate p with
  | ok e => rfl
  | error e => cases e <;> rfl

theorem locate_of_look {e : Entry} (h : t.look p = .ok (some e)) : t.locate p = .ok e := by
  unfold look at h
  cases hlocate : t.locate p with
  | ok e' =>
      rw [hlocate] at h
      cases h
      rfl
  | error e' =>
      rw [hlocate] at h
      cases e' <;> cases h

theorem read_file {bytes : List Nat} (h : t.look p = .ok (some (.file bytes))) :
    t.read p = .ok bytes := by
  unfold read
  rw [locate_of_look h]
  rfl

theorem read_congr {e : Entry} (hsome : t.look p = .ok (some e)) (h : t.look p = t'.look p) :
    t.read p = t'.read p := by
  unfold read
  rw [locate_of_look hsome, locate_of_look (h ▸ hsome)]

end FileTree

/-! ## Reading a file -/

/-- The configuration in a file depends on what stands at its path. -/
theorem Config.ofFile_congr (ρ : Rounding) {t t' : FileTree} {path : Path} {e : Entry}
    (hsome : t.look path = .ok (some e)) (h : t.look path = t'.look path) (ofProject : Bool) :
    Config.ofFile ρ t path ofProject = Config.ofFile ρ t' path ofProject := by
  unfold Config.ofFile readSettings
  rw [FileTree.read_congr hsome h]

theorem readSettings_file {t : FileTree} {path : Path} {bytes : List Nat} {cs : List Char}
    {document : Fields} (hfile : t.look path = .ok (some (.file bytes)))
    (hdecode : Text.decode bytes = .ok cs) (hparse : Toml.parse cs = .ok document) :
    readSettings t path = .ok (settingsOf path.name document) := by
  unfold readSettings
  refine bind_eq_ok_iff.mpr ⟨bytes, mapError_eq_ok_iff.mpr (FileTree.read_file hfile), ?_⟩
  refine bind_eq_ok_iff.mpr ⟨cs, mapError_eq_ok_iff.mpr hdecode, ?_⟩
  rw [hparse]
  rfl

/-- The document has no table with settings for this program. -/
def Fields.SaysNothing (document : Fields) : Prop :=
  ∀ tools name inner, document.table? "tool" = some tools →
    name ∈ ["style_rubric", "style-rubric"] → tools.table? name = some inner → inner = []

theorem settingsOf_project {document : Fields} (h : document.SaysNothing) :
    settingsOf projectName document = [] := by
  rw [settingsOf, if_pos rfl]
  unfold toolTable?
  cases htools : document.table? "tool" with
  | none => rfl
  | some tools =>
      change ((toolNames.findSome? fun name => tools.table? name).getD []) = []
      cases hfound : toolNames.findSome? fun name => tools.table? name with
      | none => rfl
      | some inner =>
          obtain ⟨name, hname, hinner⟩ := List.exists_of_findSome?_eq_some hfound
          exact h tools name inner htools hname hinner

/-! ## Finding the file -/

/-- Loads the configuration from what was found. -/
def Config.loadFound (ρ : Rounding) (t : FileTree) (named : Bool) :
    Option Path → Except LoadError Config
  | some path => Config.ofFile ρ t path (!named && path.name = projectName)
  | none => .ok {}

/-- A file that is named has to exist. -/
theorem Config.load_named (ρ : Rounding) (t : FileTree) (repository named : Path) :
    let path := (Path.ofPlace (t.resolve repository)).join named
    (∀ e, t.look path = .error e → Config.load ρ t repository (some named) = .error (.access e)) ∧
      (t.look path = .ok none →
        Config.load ρ t repository (some named) = .error (.missing path.text)) ∧
      ∀ e, t.look path = .ok (some e) →
        Config.load ρ t repository (some named) = Config.ofFile ρ t path false := by
  intro path
  have hload : Config.load ρ t repository (some named) =
      (((t.has path).mapError .access >>= fun there =>
        if there then .ok (some path) else .error (.missing path.text)) >>=
          Config.loadFound ρ t true) := by
    unfold Config.load Config.findFile
    refine congrArg₂ _ rfl (funext fun found => ?_)
    cases found <;> rfl
  refine ⟨fun e hlook => ?_, fun hlook => ?_, fun e hlook => ?_⟩ <;>
    rw [hload, FileTree.has_eq_look, hlook] <;> rfl

/-- The files that may hold the configuration of a repository at `root`, the first one first. -/
def configPaths (root : Path) : List Path :=
  [".style-rubric.toml", "style-rubric.toml", "pyproject.toml"].map fun name =>
    root.join { absolute := false, parts := [name] }

theorem Config.load_search (ρ : Rounding) (t : FileTree) (repository : Path) :
    Config.load ρ t repository none =
      ((t.firstWithEntry (configPaths (.ofPlace (t.resolve repository)))).mapError .access >>=
        Config.loadFound ρ t false) := by
  unfold Config.load
  refine congrArg₂ _ rfl (funext fun found => ?_)
  cases found <;> rfl

/-- Paths without an entry are passed by. -/
theorem firstWithEntry_append {t : FileTree} {earlier : List Path}
    (h : ∀ p ∈ earlier, t.look p = .ok none) (later : List Path) :
    t.firstWithEntry (earlier ++ later) = t.firstWithEntry later := by
  induction earlier with
  | nil => rfl
  | cons p rest ih =>
      rw [List.forall_mem_cons] at h
      rw [List.cons_append, FileTree.firstWithEntry, FileTree.has_eq_look, h.1]
      exact ih h.2

/-- The first path with an entry is used. -/
theorem firstWithEntry_cons {t : FileTree} {path : Path} {e : Entry}
    (h : t.look path = .ok (some e)) (later : List Path) :
    t.firstWithEntry (path :: later) = .ok (some path) := by
  rw [FileTree.firstWithEntry, FileTree.has_eq_look, h]
  rfl

/-- Nothing is looked for behind a path that is too long. -/
theorem firstWithEntry_error {t : FileTree} {path : Path} {e : AccessError}
    (h : t.look path = .error e) (later : List Path) :
    t.firstWithEntry (path :: later) = .error e := by
  rw [FileTree.firstWithEntry, FileTree.has_eq_look, h]
  rfl

theorem name_join_single (root : Path) (name : String) :
    (root.join { absolute := false, parts := [name] }).name = name := by
  simp [Path.join, Path.name]

/-! ## Two file trees -/

section TwoTrees

variable (ρ : Rounding) {t t' : FileTree} {repository : Path}

/-- There is a file at the path in both trees or in neither, or it cannot be said in either. -/
theorem Config.load_named_congr {named path : Path}
    (hpath : (Path.ofPlace (t.resolve repository)).join named = path)
    (hpath' : (Path.ofPlace (t'.resolve repository)).join named = path)
    (h : t.look path = t'.look path) :
    Config.load ρ t repository (some named) = Config.load ρ t' repository (some named) := by
  obtain ⟨herror, hnone, hsome⟩ := Config.load_named ρ t repository named
  obtain ⟨herror', hnone', hsome'⟩ := Config.load_named ρ t' repository named
  rw [hpath] at herror hnone hsome
  rw [hpath', ← h] at herror' hnone' hsome'
  cases hfound : t.look path with
  | error e => rw [herror e hfound, herror' e hfound]
  | ok found =>
      cases found with
      | none => rw [hnone hfound, hnone' hfound]
      | some e => rw [hsome e hfound, hsome' e hfound, Config.ofFile_congr ρ hfound h]

/-- Of the paths that are searched, only the first one with an entry matters. -/
theorem Config.load_search_congr {root path : Path} (hroot : .ofPlace (t.resolve repository) = root)
    (hroot' : .ofPlace (t'.resolve repository) = root) {earlier later : List Path}
    (hpaths : configPaths root = earlier ++ path :: later)
    (habsent : ∀ p ∈ earlier, t.look p = .ok none ∧ t'.look p = .ok none)
    (hpath : t.look path ≠ .ok none) (h : t.look path = t'.look path) :
    Config.load ρ t repository none = Config.load ρ t' repository none := by
  rw [Config.load_search, Config.load_search, hroot, hroot', hpaths,
    firstWithEntry_append fun p hp => (habsent p hp).1,
    firstWithEntry_append fun p hp => (habsent p hp).2]
  cases hfound : t.look path with
  | error e =>
      rw [firstWithEntry_error hfound, firstWithEntry_error (h ▸ hfound)]
      rfl
  | ok found =>
      cases found with
      | none => exact absurd hfound hpath
      | some e =>
          rw [firstWithEntry_cons hfound, firstWithEntry_cons (h ▸ hfound)]
          exact Config.ofFile_congr ρ hfound h _

/-- The file of a project without settings for this program is as good as none. -/
theorem Config.load_silent_project {root path : Path}
    (hroot : .ofPlace (t.resolve repository) = root)
    (hpath : root.join { absolute := false, parts := [projectName] } = path)
    (habsent : ∀ name ∈ [".style-rubric.toml", "style-rubric.toml"],
      t.look (root.join { absolute := false, parts := [name] }) = .ok none)
    {bytes : List Nat} {cs : List Char} {document : Fields}
    (hfile : t.look path = .ok (some (.file bytes))) (hdecode : Text.decode bytes = .ok cs)
    (hparse : Toml.parse cs = .ok document) (hnothing : document.SaysNothing) :
    Config.load ρ t repository none = .ok { source := none } := by
  have hpaths : configPaths root = ([".style-rubric.toml", "style-rubric.toml"].map fun name =>
      root.join { absolute := false, parts := [name] }) ++ [path] := hpath ▸ rfl
  have hfound : t.firstWithEntry (configPaths root) = .ok (some path) := by
    rw [hpaths, firstWithEntry_append (List.forall_mem_map.mpr habsent), firstWithEntry_cons hfile]
  have hname : path.name = projectName := hpath ▸ name_join_single root projectName
  have hsettings : readSettings t path = .ok [] := by
    rw [readSettings_file hfile hdecode hparse, hname, settingsOf_project hnothing]
  rw [Config.load_search, hroot, hfound]
  change Config.ofFile ρ t path (!false && path.name = projectName) = _
  simp only [Config.ofFile, hsettings, hname, bind, Except.bind]
  rfl

end TwoTrees

/-- **The configuration depends on one file only.** With a file that is named, only what stands at
its path matters, and if nothing does, this is the error, whatever other files there are. Otherwise
only the first file that exists matters: two file trees that agree on it, and in which the files
before it do not exist, give the same configuration or the same error. Where it cannot be said
whether a file exists, this is the error in both. If none exists, or if the first one is that of a
project and has no settings for this program, it is the default configuration, from no source. -/
theorem config_precedence_noninterference (ρ : Rounding) (t t' : FileTree) (repository : Path) :
    let root := Path.ofPlace (t.resolve repository)
    let root' := Path.ofPlace (t'.resolve repository)
    (∀ named, root.join named = root'.join named →
      t.look (root.join named) = t'.look (root.join named) →
        Config.load ρ t repository (some named) = Config.load ρ t' repository (some named)) ∧
      (∀ named, t.look (root.join named) = .ok none →
        Config.load ρ t repository (some named) = .error (.missing (root.join named).text)) ∧
      (∀ earlier path later, root = root' → configPaths root = earlier ++ path :: later →
        (∀ p ∈ earlier, t.look p = .ok none ∧ t'.look p = .ok none) →
        t.look path ≠ .ok none → t.look path = t'.look path →
          Config.load ρ t repository none = Config.load ρ t' repository none) ∧
      ((∀ p ∈ configPaths root, t.look p = .ok none) →
        Config.load ρ t repository none = .ok { source := none }) ∧
      ∀ bytes cs document,
        (∀ name ∈ [".style-rubric.toml", "style-rubric.toml"],
          t.look (root.join { absolute := false, parts := [name] }) = .ok none) →
        t.look (root.join { absolute := false, parts := ["pyproject.toml"] }) =
          .ok (some (.file bytes)) →
        Text.decode bytes = .ok cs → Toml.parse cs = .ok document → document.SaysNothing →
          Config.load ρ t repository none = .ok { source := none } := by
  intro root root'
  refine ⟨?_, fun named => (Config.load_named ρ t repository named).2.1, ?_, ?_, ?_⟩
  · intro named hpath hlook
    exact Config.load_named_congr ρ rfl hpath.symm hlook
  · intro earlier path later hroot hpaths habsent hpath hlook
    exact Config.load_search_congr ρ rfl hroot.symm hpaths habsent hpath hlook
  · intro habsent
    have hnone := firstWithEntry_append habsent []
    rw [List.append_nil] at hnone
    rw [Config.load_search, hnone]
    rfl
  · intro bytes cs document habsent hfile hdecode hparse hnothing
    exact Config.load_silent_project ρ rfl rfl habsent hfile hdecode hparse hnothing

/-- A repository with a file of its own for the configuration, alone and beside a file that is no
text and a directory in the place of the file of a project. A file that is not there is an error in
both, and an empty file of a project says nothing. -/
theorem config_precedence_noninterference_crowded :
    let own : List String × Entry :=
      (["w", ".style-rubric.toml"], .file ("fail_under = 8".toList.map Char.toNat))
    let alone : FileTree := { home := ["w"], entries := [own] }
    let crowded : FileTree :=
      { home := ["w"], entries := [own, (["w", "style-rubric.toml"], .file [255]),
        (["w", "pyproject.toml"], .directory)] }
    let project : FileTree := { home := ["w"], entries := [(["w", "pyproject.toml"], .file [])] }
    let here : Path := { absolute := false, parts := [] }
    Config.load .nearest alone here none = Config.load .nearest crowded here none ∧
      Config.load .nearest crowded here (some { absolute := false, parts := ["other.toml"] }) =
        .error (.missing "/w/other.toml") ∧
      Config.load .nearest project here none = .ok {} := by
  intro own alone crowded project here
  obtain ⟨-, -, hsearch, -⟩ := config_precedence_noninterference .nearest alone crowded here
  obtain ⟨-, hmissing, -⟩ := config_precedence_noninterference .nearest crowded crowded here
  obtain ⟨-, -, -, -, hproject⟩ := config_precedence_noninterference .nearest project project here
  refine ⟨?_, hmissing _ (by decide), ?_⟩
  · exact hsearch [] (.ofPlace ["w", ".style-rubric.toml"]) _ rfl rfl (fun p hp => by cases hp)
      (by decide) (by decide)
  · exact hproject [] [] [] (by decide) (by decide) rfl rfl fun tools name inner htools => by
      cases htools

end Scorecard
