import Scorecard.Codebase.Extract
import Scorecard.Proofs.Lines
import Scorecard.Proofs.StatementOrder
import Scorecard.Proofs.Visitor

set_option autoImplicit false

/-! # Where facts are made

The facts of a source file speak of lines of this file: a fact about its syntax lies on the lines
that newlines end (`inFile_moduleFacts`), one about its lines on those that every line end ends
(`inFile_lineFacts`). The two sorts of facts have different kinds, and neither has a kind of the
version control.
-/

namespace Scorecard

open Source (Node Label)

/-- The kinds of facts about the version control. -/
def Kind.versionControl : List String := [gitignorePresent, commitMessage, trackedArtifact]

/-- The kinds of facts about the lines of a file. -/
def Kind.ofText : List String := [moduleLength, testFile, lineLength]

/-- The kinds of facts about syntax. -/
def Kind.ofSyntax : List String :=
  known.filter fun kind => !(versionControl ++ ofText).contains kind

theorem Kind.not_mem_ofSyntax {kind : String} (h : kind ∈ versionControl ++ ofText) :
    kind ∉ ofSyntax := by
  intro hmem
  have hnot := (List.mem_filter.mp hmem).2
  rw [List.contains_iff_mem.mpr h] at hnot
  exact Bool.false_ne_true hnot

/-- A fact about a file, on its lines up to `bottom`, of one of some kinds. -/
structure Fact.InFile (kinds : List String) (path : String) (bottom : Nat) (f : Fact) : Prop where
  kind : f.kind ∈ kinds
  file : f.location.file = path
  start : 0 ≤ f.location.start.value
  ordered : f.location.start.value ≤ f.location.stop.value
  stop : f.location.stop.value ≤ bottom

/-- Facts about a file. -/
abbrev AllInFile (kinds : List String) (path : String) (bottom : Nat) (facts : List Fact) : Prop :=
  ∀ f ∈ facts, f.InFile kinds path bottom

section

variable {kinds : List String} {path : String} {bottom : Nat} {kind subject : String}
  {value : FactValue}

theorem Fact.InFile.mono {f : Fact} {kinds' : List String} {bottom' : Nat}
    (h : f.InFile kinds path bottom) (hkinds : kinds ⊆ kinds') (hle : bottom ≤ bottom') :
    f.InFile kinds' path bottom' :=
  { h with kind := hkinds h.kind, stop := Int.le_trans h.stop (Int.ofNat_le.mpr hle) }

theorem Fact.InFile.valid {f : Fact} (h : f.InFile kinds path bottom) (hkinds : "" ∉ kinds)
    (hpath : path ≠ "") : f.Valid :=
  ⟨⟨h.file ▸ hpath, h.start, h.ordered⟩, fun hkind => hkinds (hkind ▸ h.kind)⟩

theorem AllInFile.filter_eq_nil {facts : List Fact} (h : AllInFile kinds path bottom facts)
    (hkind : kind ∉ kinds) : facts.filter (·.kind = kind) = [] :=
  List.filter_eq_nil_iff.mpr fun f hf heq => hkind (of_decide_eq_true heq ▸ (h f hf).kind)

theorem inFile_ofFile (hkind : kind ∈ kinds) :
    Fact.InFile kinds path bottom ⟨kind, .ofFile path, value, subject⟩ :=
  ⟨hkind, rfl, Int.le_refl _, Int.le_refl _, Int.natCast_nonneg _⟩

theorem inFile_ofLines {first last : Nat} (hkind : kind ∈ kinds) (hordered : first ≤ last)
    (hlast : last ≤ bottom) :
    Fact.InFile kinds path bottom ⟨kind, .ofLines path first last, value, subject⟩ :=
  ⟨hkind, rfl, Int.natCast_nonneg _, Int.ofNat_le.mpr hordered, Int.ofNat_le.mpr hlast⟩

end

/-! ## Facts of a syntax tree -/

namespace Source.Node

variable {bottom : Nat} {n m : Node}

theorem Fits.placed (h : n.Fits bottom) : n.Placed bottom :=
  h n (by cases n; rw [walk]; exact List.mem_cons_self)

theorem Fits.child (h : n.Fits bottom) (hm : m ∈ n.children) : m.Fits bottom := by
  cases n
  exact (fits_mk_iff.mp h).2 m hm

theorem Fits.part (h : n.Fits bottom) {role : Role} (hm : m ∈ n.part role) : m.Fits bottom :=
  h.child (List.mem_of_mem_filter hm)

theorem Fits.part? (h : n.Fits bottom) {role : Role} (hm : n.part? role = some m) : m.Fits bottom :=
  h.child (List.mem_of_find?_eq_some hm)

/-- A fact about a node lies on the lines of the node. -/
theorem inFile_fact {s : Setting} {kind subject : String} {value : FactValue} (h : n.Placed bottom)
    (hkind : kind ∈ Kind.ofSyntax) :
    (s.fact kind n value subject).InFile Kind.ofSyntax s.path bottom :=
  inFile_ofLines hkind (le_max_left _ _) (max_le h.line h.lastLine)

theorem Fits.parameters (h : n.Fits bottom) (isMethod : Bool) :
    ∀ p ∈ n.countedParameters isMethod ++ n.variadicParameters, p.Fits bottom := by
  have hparts : ∀ ps, n.part? .arguments = some ps → ∀ role, ∀ p ∈ ps.part role, p.Fits bottom :=
    fun ps hps role p hp => (h.part? hps).part hp
  refine List.forall_mem_append.mpr ⟨?_, ?_⟩
  · unfold countedParameters
    split
    · exact List.forall_mem_nil _
    · rename_i ps hps
      have hpositional : ∀ p ∈ ps.part .positionalOnly ++ ps.part .positional, p.Fits bottom :=
        List.forall_mem_append.mpr ⟨hparts ps hps _, hparts ps hps _⟩
      refine List.forall_mem_append.mpr ⟨?_, hparts ps hps _⟩
      split
      · rename_i first rest heq
        split
        · rw [heq] at hpositional
          exact (List.forall_mem_cons.mp hpositional).2
        · exact hpositional
      · exact List.forall_mem_nil _
  · unfold variadicParameters
    split
    · exact List.forall_mem_nil _
    · rename_i ps hps
      exact List.forall_mem_append.mpr ⟨hparts ps hps _, hparts ps hps _⟩

theorem inFile_functionFacts (h : n.Fits bottom) (s : Setting) (name : String) :
    AllInFile Kind.ofSyntax s.path bottom (n.functionFacts s name) := by
  have hn := h.placed
  refine List.forall_mem_append.mpr ⟨List.forall_mem_append.mpr ⟨?_, ?_⟩, ?_⟩
  · simp only [List.forall_mem_cons]
    exact ⟨inFile_fact hn (by decide), inFile_fact hn (by decide), inFile_fact hn (by decide),
      inFile_fact hn (by decide),
      inFile_fact hn (by decide), inFile_fact hn (by decide), List.forall_mem_nil _⟩
  · exact List.forall_mem_map.mpr fun p hp => inFile_fact (h.parameters _ p hp).placed (by decide)
  · split
    · simp only [List.forall_mem_cons]
      exact ⟨inFile_fact hn (by decide), inFile_fact hn (by decide), List.forall_mem_nil _⟩
    · exact List.forall_mem_nil _

theorem inFile_classFacts (hn : n.Placed bottom) (s : Setting) (name : String) :
    AllInFile Kind.ofSyntax s.path bottom (n.classFacts s name) := by
  simp only [AllInFile, classFacts, List.forall_mem_cons]
  exact ⟨inFile_fact hn (by decide), inFile_fact hn (by decide), inFile_fact hn (by decide),
    inFile_fact hn (by decide), List.forall_mem_nil _⟩

theorem inFile_plainFacts (hn : n.Placed bottom) (s : Setting) :
    AllInFile Kind.ofSyntax s.path bottom (n.plainFacts s) := by
  have hconcat : (n.concatFact s).InFile Kind.ofSyntax s.path bottom := inFile_fact hn (by decide)
  have hrange : (n.rangeLenFact s).InFile Kind.ofSyntax s.path bottom := inFile_fact hn (by decide)
  have hsecrets :
      AllInFile Kind.ofSyntax s.path bottom ((n.part .target).flatMap (n.secretFacts s)) := by
    intro f hf
    obtain ⟨target, -, hf⟩ := List.mem_flatMap.mp hf
    unfold secretFacts at hf
    split at hf
    · split at hf
      · rw [List.mem_singleton.mp hf]
        exact inFile_fact hn (by decide)
      · cases hf
    · cases hf
  unfold plainFacts
  split
  · simp only [AllInFile, handlerFacts, List.forall_mem_cons]
    exact ⟨inFile_fact hn (by decide), inFile_fact hn (by decide), inFile_fact hn (by decide),
      List.forall_mem_nil _⟩
  · exact hsecrets
  · exact hsecrets
  · exact List.forall_mem_cons.mpr ⟨hrange, List.forall_mem_singleton.mpr hconcat⟩
  · exact List.forall_mem_singleton.mpr hconcat
  · exact List.forall_mem_nil _

theorem inFile_callFacts (hn : n.Placed bottom) {s : Setting} {found : List Fact}
    (h : n.callFacts s = .ok found) : AllInFile Kind.ofSyntax s.path bottom found := by
  rcases callFacts_cases h with rfl | rfl | ⟨asked, rfl⟩ | ⟨method, rfl⟩
  · exact List.forall_mem_nil _
  · exact List.forall_mem_singleton.mpr (inFile_fact hn (by decide))
  · exact List.forall_mem_singleton.mpr (inFile_fact hn (by decide))
  · exact List.forall_mem_cons.mpr
      ⟨inFile_fact hn (by decide), List.forall_mem_map.mpr fun _ _ => inFile_fact hn (by decide)⟩

/-- The facts of a node lie on the lines of its tree. -/
theorem inFile_ownFacts (h : n.Fits bottom) {s : Setting} {found : List Fact}
    (hown : n.ownFacts s = .ok found) : AllInFile Kind.ofSyntax s.path bottom found := by
  unfold ownFacts at hown
  split at hown
  · cases hown
    exact inFile_functionFacts h s _
  · cases hown
    exact inFile_classFacts h.placed s _
  · cases hown
    exact List.forall_mem_map.mpr fun name _ => inFile_fact h.placed (by decide)
  · exact inFile_callFacts h.placed hown
  · cases hown
    exact inFile_plainFacts h.placed s

mutual

-- the nodes below a node stand together in the walk of the whole tree
theorem walk_sublist {m : Node} : ∀ {n : Node}, m ∈ n.walk → m.walk.Sublist n.walk
  | mk role label a b children, h => by
      rw [walk] at h ⊢
      rcases List.mem_cons.mp h with rfl | h
      · rw [walk]
      · exact (walk_sublist_walkAll h).cons _

theorem walk_sublist_walkAll {m : Node} :
    ∀ {ns : List Node}, m ∈ walkAll ns → m.walk.Sublist (walkAll ns)
  | [], h => by cases h
  | n :: rest, h => by
      rw [walkAll] at h ⊢
      rcases List.mem_append.mp h with h | h
      · exact (walk_sublist h).trans (List.sublist_append_left _ _)
      · exact (walk_sublist_walkAll h).trans (List.sublist_append_right _ _)

end

theorem Fits.of_mem_walk (h : n.Fits bottom) (hm : m ∈ n.walk) : m.Fits bottom :=
  fun k hk => h k ((walk_sublist hm).subset hk)

/-- So do those of a visit. -/
theorem inFile_facts (h : n.Fits bottom) {path : String} {isTest : Bool} {found : List Fact}
    (hfacts : n.facts path isTest = .ok found) : AllInFile Kind.ofSyntax path bottom found := by
  have hleaves : n.GlobalsAreLeaves := fun m hm => (h m hm).globals
  obtain ⟨parts, hparts, rfl⟩ := (facts_eq_ok_iff path isTest hleaves).mp hfacts
  intro f hf
  obtain ⟨part, hpart, hf⟩ := List.mem_flatten.mp hf
  obtain ⟨place, hplace, hown⟩ := exists_of_mem_forall₂ hparts hpart
  have hwalk : place.2 ∈ n.walk := by
    rw [← map_places []]
    exact List.mem_map_of_mem hplace
  exact inFile_ownFacts (h.of_mem_walk hwalk) hown f hf

end Source.Node

/-! ## Facts of a file -/

theorem inFile_importOrderFacts {path : String} {localModules : List String} {tree : Node}
    {bottom : Nat} (h : Node.InOrder 0 tree.children bottom) :
    AllInFile Kind.ofSyntax path bottom (importOrderFacts path localModules tree) := by
  -- the imports at the top are in the order of the text
  have himports : Node.InOrder 0 ((tree.part .body).filter isImport) bottom :=
    h.sublist (List.filter_sublist.trans List.filter_sublist)
  unfold importOrderFacts
  dsimp only
  split
  · rename_i first last hfirst hlast
    refine List.forall_mem_singleton.mpr
      (inFile_ofLines (by decide) (himports.head_le_getLast hfirst hlast) ?_)
    exact (himports.line_le_of_mem (List.mem_of_getLast? hlast)).2.2
  · exact List.forall_mem_nil _

theorem inFile_wildcardFacts {path : String} {tree : Node} {bottom : Nat} (h : tree.Fits bottom) :
    AllInFile Kind.ofSyntax path bottom (wildcardFacts path tree) := by
  intro f hf
  obtain ⟨n, hn, hf⟩ := List.mem_filterMap.mp hf
  have hplaced := h n (tree.flatten_levels_perm.mem_iff.mp hn)
  split at hf
  · cases hf
    exact inFile_ofLines (by decide) (le_max_left _ _) (max_le hplaced.line hplaced.lastLine)
  · cases hf

/-- The number of the last line of a text that is not empty. -/
theorem lineBreaks_closeLastLine_eq {cs : List Char} (h : cs ≠ []) :
    Source.lineBreaks (Source.closeLastLine cs) = (Text.closeParts (cs.splitOn '\n')).length := by
  obtain ⟨before, last, rfl⟩ := (List.eq_nil_or_concat cs).resolve_left h
  rw [List.splitOn, Text.length_closeParts (· == '\n') h, List.concat_eq_append,
    List.dropLast_concat, Source.closeLastLine, List.getLast?_concat]
  by_cases hlast : last = '\n'
  · rw [hlast, if_pos rfl, Source.lineBreaks_append]
    rfl
  · rw [if_neg (fun heq => hlast (Option.some.inj heq)), Source.lineBreaks_append,
      Source.lineBreaks_append]
    have hnone : Source.lineBreaks [last] = 0 := by simp [Source.lineBreaks, hlast]
    rw [hnone]
    rfl

/-- **Syntax facts** lie on the lines that newlines end. -/
theorem inFile_moduleFacts [Text.CharacterNames] {path : String} {localModules : List String}
    {text : String} {found : List Fact}
    (h : moduleFacts path localModules (Source.parse text) = .ok found) :
    AllInFile Kind.ofSyntax path (Text.newlineLines text).length found := by
  by_cases hempty : text = ""
  · -- a file without a line has a tree without statements
    rw [hempty] at h
    cases h
    exact List.forall_mem_nil _
  · have hlines :
        Source.lineBreaks (Source.closeLastLine text.toList) = (Text.newlineLines text).length := by
      rw [Text.newlineLines, List.length_map]
      exact lineBreaks_closeLastLine_eq (by simpa using hempty)
    cases htree : Source.parse text with
    | none =>
        rw [htree] at h
        cases h
        exact List.forall_mem_nil _
    | some tree =>
        rw [htree] at h
        obtain ⟨visited, hvisited, h⟩ := bind_eq_ok_iff.mp h
        cases h
        have hfits := (Source.parse_bounds htree).1
        have horder := Source.parse_inOrder htree
        rw [hlines] at hfits horder
        exact List.forall_mem_append.mpr
          ⟨List.forall_mem_append.mpr ⟨inFile_importOrderFacts horder, inFile_wildcardFacts hfits⟩,
            Node.inFile_facts hfits hvisited⟩

/-! ## Lines -/

theorem not_mem_sourceText (bytes : List Nat) : '\r' ∉ (sourceText bytes).toList := by
  rw [sourceText, String.toList_ofList]
  exact Text.not_mem_normalizeNewlines _

/-- The first of the longest among some lines, with its number and its length. -/
def IsLongest (lines : List String) (number length : Nat) : Prop :=
  ∃ before line after, lines = before ++ line :: after ∧ number = before.length + 1 ∧
    length = line.length ∧ (∀ l ∈ before, l.length < length) ∧ ∀ l ∈ after, l.length ≤ length

theorem IsLongest.length_le {lines : List String} {number length : Nat}
    (h : IsLongest lines number length) : ∀ l ∈ lines, l.length ≤ length := by
  obtain ⟨before, line, after, rfl, -, hlength, hbefore, hafter⟩ := h
  refine List.forall_mem_append.mpr ⟨fun l hl => (hbefore l hl).le,
    List.forall_mem_cons.mpr ⟨?_, hafter⟩⟩
  rw [hlength]

theorem IsLongest.number_le {lines : List String} {number length : Nat}
    (h : IsLongest lines number length) : number ≤ lines.length := by
  obtain ⟨before, line, after, rfl, rfl, -⟩ := h
  rw [List.length_append, List.length_cons]
  omega

theorem IsLongest.ne_nil {lines : List String} {number length : Nat}
    (h : IsLongest lines number length) : lines ≠ [] := by
  obtain ⟨before, line, after, rfl, -⟩ := h
  simp

/-- What is known of the longest line so far. -/
def LongestSoFar (lines : List String) : Option (Nat × Nat) → Prop
  | some (number, length) => IsLongest lines number length
  | none => lines = []

/-- A further line takes the place of the longest one only if it is longer. -/
theorem longestSoFar_concat {lines : List String} {best : Option (Nat × Nat)}
    (h : LongestSoFar lines best) (line : String) :
    LongestSoFar (lines ++ [line]) (longerLine best (line, lines.length + 1)) := by
  unfold longerLine
  cases best with
  | none =>
      rw [show lines = [] from h]
      exact ⟨[], line, [], rfl, rfl, rfl, List.forall_mem_nil _, List.forall_mem_nil _⟩
  | some found =>
      obtain ⟨number, length⟩ := found
      dsimp only
      split
      · rename_i hlt
        exact ⟨lines, line, [], rfl, rfl, rfl, fun l hl => (h.length_le l hl).trans_lt hlt,
          List.forall_mem_nil _⟩
      · rename_i hle
        obtain ⟨before, longest, after, rfl, hnumber, hlength, hbefore, hafter⟩ := h
        refine ⟨before, longest, after ++ [line], by simp, hnumber, hlength, hbefore, ?_⟩
        exact List.forall_mem_append.mpr
          ⟨hafter, List.forall_mem_singleton.mpr (Nat.le_of_not_lt hle)⟩

theorem longestSoFar_longestLine (lines : List String) :
    LongestSoFar lines (longestLine lines) := by
  -- `seen` are the lines before, which carry the invariant
  have key : ∀ (rest seen : List String) (best : Option (Nat × Nat)), LongestSoFar seen best →
      LongestSoFar (seen ++ rest) ((rest.zipIdx (seen.length + 1)).foldl longerLine best) := by
    intro rest
    induction rest with
    | nil =>
        intro seen best h
        rwa [List.append_nil]
    | cons line rest ih =>
        intro seen best h
        have hnext := ih (seen ++ [line]) _ (longestSoFar_concat h line)
        rw [List.length_append, List.length_singleton, List.append_assoc] at hnext
        exact hnext
  exact key lines [] none rfl

/-- The facts about a file as a whole. -/
def wholeFileFacts (path text : String) : List Fact :=
  [⟨Kind.moduleLength, .ofFile path, .int (Text.lines text).length, ""⟩,
    ⟨Kind.testFile, .ofFile path, .bool (isTestPath path), ""⟩]

/-- There is a fact about the longest line unless there is no line. -/
theorem lineFacts_cases (path text : String) :
    (Text.lines text = [] ∧ lineFacts path text = wholeFileFacts path text) ∨
      ∃ number length, IsLongest (Text.lines text) number length ∧
        lineFacts path text = wholeFileFacts path text ++
          [⟨Kind.lineLength, .ofLines path number number, .int length, ""⟩] := by
  have hlongest := longestSoFar_longestLine (Text.lines text)
  rw [lineFacts]
  cases hbest : longestLine (Text.lines text) with
  | none =>
      rw [hbest] at hlongest
      exact Or.inl ⟨hlongest, rfl⟩
  | some best =>
      rw [hbest] at hlongest
      exact Or.inr ⟨best.1, best.2, hlongest, rfl⟩

/-- **Facts about lines** lie on the lines that any line end ends. -/
theorem inFile_lineFacts (path text : String) :
    AllInFile Kind.ofText path (Text.lines text).length (lineFacts path text) := by
  have hwhole : AllInFile Kind.ofText path (Text.lines text).length (wholeFileFacts path text) :=
    List.forall_mem_cons.mpr ⟨inFile_ofFile (by decide),
      List.forall_mem_singleton.mpr (inFile_ofFile (by decide))⟩
  rcases lineFacts_cases path text with ⟨-, h⟩ | ⟨number, length, hlongest, h⟩
  · rw [h]
    exact hwhole
  · rw [h]
    exact List.forall_mem_append.mpr
      ⟨hwhole, List.forall_mem_singleton.mpr
        (inFile_ofLines (by decide) (le_refl _) hlongest.number_le)⟩

/-! ## The file -/

theorem fileFacts_eq_ok_iff {path : String} {localModules : List String} {text : String}
    {tree : Option Node} {facts : List Fact} : fileFacts path localModules text tree = .ok facts ↔
      ∃ found, moduleFacts path localModules tree = .ok found ∧
        facts = lineFacts path text ++ found := by
  unfold fileFacts
  rw [bind_eq_ok_iff]
  exact exists_congr fun found => and_congr_right fun _ =>
    ⟨fun h => (Except.ok.inj h).symm, fun h => h ▸ rfl⟩

variable [Text.CharacterNames]

/-- A text in which a logger is asked for by an expression that cannot be written. -/
def AsksForUnwritableLogger (text : String) : Prop :=
  ∃ tree, Source.parse text = some tree ∧ ∃ n ∈ tree.walk, n.HasUnwritableLogger

/-- Nothing else keeps a file from having facts. -/
theorem exists_fileFacts_iff (path : String) (localModules : List String) (text : String) :
    (∃ facts, fileFacts path localModules text (Source.parse text) = .ok facts) ↔
      ¬AsksForUnwritableLogger text := by
  -- the facts about lines cannot fail, so only those of the module count
  have hfile : (∃ facts, fileFacts path localModules text (Source.parse text) = .ok facts) ↔
      ∃ found, moduleFacts path localModules (Source.parse text) = .ok found := by
    constructor
    · rintro ⟨facts, h⟩
      obtain ⟨found, h, -⟩ := fileFacts_eq_ok_iff.mp h
      exact ⟨found, h⟩
    · rintro ⟨found, h⟩
      exact ⟨_, fileFacts_eq_ok_iff.mpr ⟨found, h, rfl⟩⟩
  rw [hfile, AsksForUnwritableLogger]
  cases htree : Source.parse text with
  | none =>
      constructor
      · rintro - ⟨_, h, -⟩
        cases h
      · exact fun _ => ⟨[], rfl⟩
  | some tree =>
      have hleaves : tree.GlobalsAreLeaves :=
        fun m hm => ((Source.parse_bounds htree).1 m hm).globals
      -- a visit fails if and only if one of the nodes on its way does
      have hwalk :
          (∃ place ∈ tree.places [], ∃ fault, factsAt path (isTestPath path) place = .error fault) ↔
          ∃ n ∈ tree.walk, n.HasUnwritableLogger := by
        simp only [← Node.map_places [] tree, List.mem_map, exists_exists_and_eq_and]
        exact exists_congr fun place => and_congr_right fun _ =>
          Node.exists_ownFacts_eq_error_iff _ _
      simp only [Option.some.injEq, exists_eq_left']
      rw [← hwalk, ← Node.exists_facts_eq_error_iff path (isTestPath path) hleaves, moduleFacts]
      cases hfacts : tree.facts path (isTestPath path) with
      | error fault =>
          constructor
          · rintro ⟨found, h⟩
            cases h
          · exact fun h => (h ⟨fault, rfl⟩).elim
      | ok visited =>
          constructor
          · rintro - ⟨fault, h⟩
            cases h
          · exact fun _ => ⟨_, rfl⟩

end Scorecard
