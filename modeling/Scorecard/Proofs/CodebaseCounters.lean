import Scorecard.Proofs.Extraction
import Scorecard.Proofs.FactCounters

set_option autoImplicit false

/-! # What is counted in a code base

The counters of an extracted model are taken from facts of three sources: the lines of a file, the
visit of its tree, and the version control. Every selected file has one fact about its length and
one that says whether it is a test file, and nothing else has such a fact (`ofKind_moduleLength`,
`ofKind_testFile`). Different files have different paths (`nodup_paths`), so that the files are
counted one by one. A visit emits one fact of each kind for a definition wherever it stands, and the
facts of no other node are of these kinds, so that the facts that are counted are as many as the
definitions (`Counts.countP_of_extract`).
-/

namespace Scorecard

open Source (Node Label)

/-! ## Paths -/

/-- No name has a slash in it. -/
def FileTree.IsProper (t : FileTree) : Prop := ∀ place ∈ t.places, ∀ name ∈ place, '/' ∉ name.toList

/-- The names on a path are what is between its slashes. -/
theorem splitOn_relativePath {names : List String} (hne : names ≠ [])
    (h : ∀ name ∈ names, '/' ∉ name.toList) :
    Text.splitOn '/' (relativePath names) = names := Text.splitOn_intercalate rfl h hne

variable {t : FileTree} {git : Git} {path : Path} {s : Selection} {root names : List String}

/-- **Selected files have different paths.** -/
theorem nodup_paths (ht : t.IsProper) (root : List String) (s : Selection) :
    ((selectedFiles t root s).map relativePath).Nodup := by
  have hnames : ∀ names ∈ selectedFiles t root s, names ≠ [] ∧
      ∀ name ∈ names, '/' ∉ name.toList := by
    intro names hselected
    obtain ⟨hne, hentry, -⟩ := mem_selectedFiles_iff.mp hselected
    obtain ⟨place, hplace, hway⟩ := FileTree.isSome_entryAt_iff.mp hentry
    exact ⟨hne, fun name hname => ht place hplace name
      (hway.subset (List.mem_append_right root hname))⟩
  apply List.Nodup.map_on
  · intro names hselected names' hselected' heq
    obtain ⟨hne, hslash⟩ := hnames names hselected
    obtain ⟨hne', hslash'⟩ := hnames names' hselected'
    rw [← splitOn_relativePath hne hslash, ← splitOn_relativePath hne' hslash', heq]
  · exact (nodup_eraseDups _).filter _

/-! ## Files -/

/-- The fact that says whether a file is a test file. -/
def testFileFact (path : String) : Fact :=
  ⟨Kind.testFile, .ofFile path, .bool (isTestPath path), ""⟩

/-- The length of a file and whether it is a test file are said once. -/
theorem filter_fileFacts [Text.CharacterNames] {path text : String} {modules : List String}
    {facts : List Fact} (h : fileFacts path modules text (Source.parse text) = .ok facts)
    {kind : String} (hkind : kind ∈ [Kind.moduleLength, Kind.testFile]) :
    facts.filter (·.kind = kind) = (wholeFileFacts path text).filter (·.kind = kind) := by
  obtain ⟨found, hfound, rfl⟩ := fileFacts_eq_ok_iff.mp h
  have hsyntax : kind ∉ Kind.ofSyntax := by
    revert kind
    decide
  have hline : Kind.lineLength ≠ kind := by
    revert kind
    decide
  rw [List.filter_append, (inFile_moduleFacts hfound).filter_eq_nil hsyntax, List.append_nil]
  rcases lineFacts_cases path text with ⟨-, hlines⟩ | ⟨number, length, -, hlines⟩
  · rw [hlines]
  · rw [hlines, List.filter_append, List.filter_cons_of_neg (by simpa using hline), List.filter_nil,
      List.append_nil]

section

variable [Text.CharacterNames] {m : FactModel} {ws : List Warning}

/-- The facts of some kind, looked at by `view`, if every block has one of them. -/
theorem map_ofKind_of_blocks (h : extract t git path s = .ok (m, ws)) {kind : String}
    (hkind : kind ∉ Kind.versionControl) {α : Type} {view : Fact → α} {shown : List String → α}
    (hblocks : ∀ names, IsReadable t (t.resolve path) names →
      ((blockAt t (t.resolve path) names).filter (·.kind = kind)).map view = [shown names]) :
    (m.ofKind kind).map view = (selectedFiles t (t.resolve path) s).map shown := by
  obtain ⟨-, hreadable, -⟩ := exists_extract_iff.mp ⟨m, ws, h⟩
  have hcontrol : (controlBlock t git (t.resolve path) s.withGit).filter (·.kind = kind) = [] :=
    List.filter_eq_nil_iff.mpr fun f hf heq =>
      hkind (of_decide_eq_true heq ▸ kind_controlBlock f hf)
  rw [ofKind_of_extract h, facts_of_extract h, List.filter_append, hcontrol, List.append_nil,
    List.filter_flatMap, List.map_flatMap]
  calc (selectedFiles t (t.resolve path) s).flatMap
         (fun names => ((blockAt t (t.resolve path) names).filter (·.kind = kind)).map view)
      = (selectedFiles t (t.resolve path) s).flatMap (fun names => [shown names]) :=
        List.flatMap_congr fun names hnames => hblocks names (hreadable names hnames)
    _ = (selectedFiles t (t.resolve path) s).map shown := List.map_eq_flatMap.symm

theorem ofKind_moduleLength (h : extract t git path s = .ok (m, ws)) :
    (m.ofKind Kind.moduleLength).map (·.location.file) =
      (selectedFiles t (t.resolve path) s).map relativePath := by
  refine map_ofKind_of_blocks h (by decide) ?_
  rintro names ⟨bytes, hfile, hwritable⟩
  rw [filter_fileFacts (fileFacts_eq_blockAt hfile hwritable) (by decide)]
  rfl

theorem ofKind_testFile (h : extract t git path s = .ok (m, ws)) :
    m.ofKind Kind.testFile = (selectedFiles t (t.resolve path) s).map fun names => testFileFact
      (relativePath names) := by
  rw [← List.map_id (m.ofKind Kind.testFile)]
  refine map_ofKind_of_blocks h (by decide) ?_
  rintro names ⟨bytes, hfile, hwritable⟩
  rw [filter_fileFacts (fileFacts_eq_blockAt hfile hwritable) (by decide)]
  rfl

/-- The files that are counted are the selected ones. -/
theorem moduleFiles_of_extract (h : extract t git path s = .ok (m, ws)) :
    moduleFiles m.facts = ((selectedFiles t (t.resolve path) s).map relativePath).toFinset := by
  -- the files with a length are the selected ones, and those with a word on tests are no others
  have hlengths := ofKind_moduleLength h
  have htests := ofKind_testFile h
  rw [ofKind_of_extract h] at hlengths htests
  ext file
  rw [moduleFiles, mem_filesWith, List.mem_toFinset]
  constructor
  · rintro ⟨f, hf, hkind | hkind, rfl⟩
    · rw [← hlengths]
      exact List.mem_map_of_mem (List.mem_filter.mpr ⟨hf, decide_eq_true hkind⟩)
    · have hmem : f ∈ m.facts.filter (·.kind = Kind.testFile) :=
        List.mem_filter.mpr ⟨hf, decide_eq_true hkind⟩
      rw [htests] at hmem
      obtain ⟨names, hnames, rfl⟩ := List.mem_map.mp hmem
      exact List.mem_map_of_mem hnames
  · intro hfile
    rw [← hlengths] at hfile
    obtain ⟨f, hf, rfl⟩ := List.mem_map.mp hfile
    obtain ⟨hf, hkind⟩ := List.mem_filter.mp hf
    exact ⟨f, hf, Or.inl (of_decide_eq_true hkind), rfl⟩

theorem testFilesOf_of_extract (h : extract t git path s = .ok (m, ws)) :
    testFilesOf m.facts =
      (((selectedFiles t (t.resolve path) s).map relativePath).filter isTestPath).toFinset := by
  have htests := ofKind_testFile h
  rw [ofKind_of_extract h] at htests
  ext file
  rw [testFilesOf, mem_filesWith, List.mem_toFinset, List.mem_filter]
  constructor
  · rintro ⟨f, hf, ⟨hkind, hvalue⟩, rfl⟩
    have hmem : f ∈ m.facts.filter (·.kind = Kind.testFile) :=
      List.mem_filter.mpr ⟨hf, decide_eq_true hkind⟩
    rw [htests] at hmem
    obtain ⟨names, hnames, rfl⟩ := List.mem_map.mp hmem
    exact ⟨List.mem_map_of_mem hnames, FactValue.bool.inj hvalue⟩
  · rintro ⟨hfile, htest⟩
    obtain ⟨names, hnames, rfl⟩ := List.mem_map.mp hfile
    have hmem : testFileFact (relativePath names) ∈ m.facts.filter (·.kind = Kind.testFile) := by
      rw [htests]
      exact List.mem_map_of_mem hnames
    exact ⟨_, (List.mem_filter.mp hmem).1, ⟨rfl, congrArg FactValue.bool htest⟩, rfl⟩

end

/-! ## Definitions -/

/-- A class definition. -/
def Source.Label.isClass : Label → Bool
  | .classDef _ => true
  | _ => false

/-- The kinds of facts by which definitions are counted. -/
def Kind.ofDefinitions : List String := [functionLength, docstringPresent, className]

/-- The facts of a node by which definitions are counted. -/
def Source.Node.countedFacts (s : Setting) (n : Node) : List Fact :=
  match n.label with
  | .functionDef name _ =>
    [s.fact Kind.functionLength n (.int ((n.lastLine : Int) - n.line + 1)) (s.qualify name),
     s.fact Kind.docstringPresent n (.bool n.hasDocstring) (s.qualify name)]
  | .classDef name => [s.fact Kind.className n (.text name) (s.qualify name)]
  | _ => []

theorem filter_ofDefinitions_eq_nil {found : List Fact} (kinds : List String)
    (hkinds : ∀ f ∈ found, f.kind ∈ kinds) (h : ∀ kind ∈ kinds, kind ∉ Kind.ofDefinitions) :
    found.filter (·.kind ∈ Kind.ofDefinitions) = [] :=
  List.filter_eq_nil_iff.mpr fun f hf hmem => h f.kind (hkinds f hf) (of_decide_eq_true hmem)

theorem filter_functionFacts (s : Setting) (name : String) (n : Node) :
    (n.functionFacts s name).filter (·.kind ∈ Kind.ofDefinitions) =
      [s.fact Kind.functionLength n (.int ((n.lastLine : Int) - n.line + 1)) (s.qualify name),
       s.fact Kind.docstringPresent n (.bool n.hasDocstring) (s.qualify name)] := by
  unfold Node.functionFacts
  dsimp only
  generalize n.countedParameters s.inClass ++ n.variadicParameters = parameters
  have hparameters :
      (parameters.map fun p => s.fact Kind.argumentName p (.text p.parameterName)
        (s.qualify name)).filter
      (·.kind ∈ Kind.ofDefinitions) = [] :=
    filter_ofDefinitions_eq_nil [Kind.argumentName]
      (List.forall_mem_map.mpr fun p _ => List.mem_singleton_self _) (by decide)
  rw [List.filter_append, List.filter_append, hparameters]
  split <;> rfl

section

variable {path : String} {isTest : Bool} {place : List Node × Node} {found : List Fact}

/-- **Definitions are counted by the facts of functions and classes**: no other node has facts of
these kinds. -/
theorem filter_factsAt (h : factsAt path isTest place = .ok found) :
    found.filter (·.kind ∈ Kind.ofDefinitions) = place.2.countedFacts
      (.at path isTest place.1) := by
  -- where the facts are not given by the label alone, their kinds are known
  have hfit := Node.factsFit path isTest h
  have hkinds : ∀ kinds, found.map (·.kind) = kinds → ∀ f ∈ found, f.kind ∈ kinds :=
    fun kinds heq f hf => heq ▸ List.mem_map_of_mem hf
  obtain ⟨around, role, label, a, b, children⟩ := place
  unfold factsAt Node.ownFacts at h
  cases label with
  | functionDef name isAsync =>
      cases h
      exact filter_functionFacts _ name _
  | classDef name =>
      cases h
      rfl
  | exceptHandler name => exact filter_ofDefinitions_eq_nil _ (hkinds _ hfit.1) (by decide)
  | forLoop isAsync => exact filter_ofDefinitions_eq_nil _ (hkinds _ hfit.1) (by decide)
  | whileLoop => exact filter_ofDefinitions_eq_nil _ (hkinds _ hfit.1) (by decide)
  | globalStmt names =>
      cases h
      exact filter_ofDefinitions_eq_nil [Kind.globalStatement]
        (List.forall_mem_map.mpr fun name _ => List.mem_singleton_self _) (by decide)
  | call =>
      have hlists :
          ∀ kinds ∈ [[], [Kind.printCall], [Kind.loggerDefinition], [Kind.logCall],
            [Kind.logCall, Kind.eagerLogFormat]],
          ∀ kind ∈ kinds, kind ∉ Kind.ofDefinitions := by decide
      exact filter_ofDefinitions_eq_nil _ (hkinds _ rfl) (hlists _ hfit.1)
  | assign =>
      exact filter_ofDefinitions_eq_nil [Kind.hardcodedSecret]
        (fun f hf => List.mem_singleton.mpr (hfit f hf).1) (by decide)
  | annAssign =>
      exact filter_ofDefinitions_eq_nil [Kind.hardcodedSecret]
        (fun f hf => List.mem_singleton.mpr (hfit f hf).1) (by decide)
  | _ =>
      cases h
      rfl

end

/-- The facts with `p` are as many as the nodes with `q`: such a node has one of them, and nothing
else in a code base has any. -/
structure Counts (p : Fact → Bool) (q : Node → Bool) : Prop where
  kind : ∀ f, p f = true → f.kind ∈ Kind.ofDefinitions
  node : ∀ s n, (n.countedFacts s).countP p = if q n then 1 else 0

namespace Counts

theorem of_kind {kind : String} {q : Node → Bool} (hkind : kind ∈ Kind.ofDefinitions)
    (hnode : ∀ s n, (n.countedFacts s).countP (·.kind = kind) = if q n then 1 else 0) :
    Counts (·.kind = kind) q :=
  ⟨fun _ hf => of_decide_eq_true hf ▸ hkind, hnode⟩

theorem functionLength : Counts (·.kind = Kind.functionLength) (·.label.isFunction) := by
  refine of_kind (by decide) fun s n => ?_
  unfold Node.countedFacts
  cases n.label <;> rfl

theorem docstringPresent : Counts (·.kind = Kind.docstringPresent) (·.label.isFunction) := by
  refine of_kind (by decide) fun s n => ?_
  unfold Node.countedFacts
  cases n.label <;> rfl

theorem className : Counts (·.kind = Kind.className) (·.label.isClass) := by
  refine of_kind (by decide) fun s n => ?_
  unfold Node.countedFacts
  cases n.label <;> rfl

theorem documented :
    Counts (fun f => f.kind = Kind.docstringPresent ∧ f.value = .bool true)
      (fun n => n.label.isFunction && n.hasDocstring) where
  kind := by
    intro f hf
    rw [(of_decide_eq_true hf).1]
    decide
  node := by
    intro s n
    unfold Node.countedFacts
    cases n.label with
    | functionDef name isAsync => cases hdoc : n.hasDocstring <;> rfl
    | _ => rfl

variable {p : Fact → Bool} {q : Node → Bool}

/-- Facts about no definition do not count. -/
theorem countP_eq_zero (h : Counts p q) {facts : List Fact} (kinds : List String)
    (hkinds : ∀ f ∈ facts, f.kind ∈ kinds) (hnone : ∀ kind ∈ kinds, kind ∉ Kind.ofDefinitions) :
    facts.countP p = 0 :=
  List.countP_eq_zero.mpr fun f hf hp => hnone f.kind (hkinds f hf) (h.kind f hp)

theorem countP_factsAt (h : Counts p q) {path : String} {isTest : Bool} {place : List Node × Node}
    {found : List Fact} (hfound : factsAt path isTest place = .ok found) :
    found.countP p = if q place.2 then 1 else 0 := by
  rw [← h.node (.at path isTest place.1), ← filter_factsAt hfound, List.countP_filter]
  refine List.countP_congr fun f _ => ?_
  rw [Bool.and_eq_true, decide_eq_true_iff]
  exact ⟨fun hp => ⟨hp, h.kind f hp⟩, fun hp => hp.1⟩

theorem countP_flatten (h : Counts p q) {path : String} {isTest : Bool}
    {places : List (List Node × Node)} {parts : List (List Fact)}
    (hparts : List.Forall₂ (fun place part => factsAt path isTest place = .ok part) places parts) :
    parts.flatten.countP p = (places.map (·.2)).countP q := by
  induction hparts with
  | nil => rfl
  | cons hpart _ ih =>
      rw [List.flatten_cons, List.countP_append, ih, h.countP_factsAt hpart, List.map_cons,
        List.countP_cons, add_comm]

/-- **A visit emits as many facts as there are definitions in the tree**, at whatever depth. -/
theorem countP_facts (h : Counts p q) {path : String} {isTest : Bool} {tree : Node}
    (hleaves : tree.GlobalsAreLeaves) {found : List Fact}
    (hfound : tree.facts path isTest = .ok found) : found.countP p = tree.byLevels.countP q := by
  obtain ⟨parts, hparts, rfl⟩ := (Node.facts_eq_ok_iff path isTest hleaves).mp hfound
  rw [h.countP_flatten hparts, tree.places_perm.countP_eq]

theorem countP_fileFacts [Text.CharacterNames] (h : Counts p q) {path text : String}
    {modules : List String} {facts : List Fact}
    (hfile : fileFacts path modules text (Source.parse text) = .ok facts) :
    facts.countP p = ((Source.parse text).toList.flatMap Node.byLevels).countP q := by
  obtain ⟨found, hfound, rfl⟩ := fileFacts_eq_ok_iff.mp hfile
  -- only the facts of the visit count: those about lines and imports are of other kinds
  have hlines : (lineFacts path text).countP p = 0 :=
    h.countP_eq_zero _ (fun f hf => (inFile_lineFacts path text f hf).kind) (by decide)
  rw [List.countP_append, hlines, zero_add]
  cases htree : Source.parse text with
  | none =>
      rw [htree] at hfound
      cases hfound
      rfl
  | some tree =>
      rw [htree] at hfound
      obtain ⟨visited, hvisited, hfound⟩ := bind_eq_ok_iff.mp hfound
      cases hfound
      have hleaves : tree.GlobalsAreLeaves :=
        fun m hm => ((Source.parse_bounds htree).1 m hm).globals
      have horder : (importOrderFacts path modules tree).countP p = 0 := by
        refine h.countP_eq_zero [Kind.importGroupOrder] ?_ (by decide)
        unfold importOrderFacts
        dsimp only
        split
        · exact List.forall_mem_singleton.mpr (List.mem_singleton_self _)
        · exact List.forall_mem_nil _
      have hwildcards : (wildcardFacts path tree).countP p = 0 := by
        refine h.countP_eq_zero [Kind.wildcardImport] ?_ (by decide)
        intro f hf
        obtain ⟨n, -, hf⟩ := List.mem_filterMap.mp hf
        split at hf
        · cases hf
          exact List.mem_singleton_self _
        · cases hf
      rw [List.countP_append, List.countP_append, horder, hwildcards,
        h.countP_facts hleaves hvisited]
      simp

end Counts

/-! ## The code base -/

/-- The tree of the file at a place below the root, if it parses. -/
def treeAt [Text.CharacterNames] (t : FileTree) (root names : List String) : Option Node :=
  match t.entryAt (root ++ names) with
  | some (.file bytes) => Source.parse (sourceText bytes)
  | _ => none

/-- The nodes of the files at some places that parse. -/
def nodesAt [Text.CharacterNames] (t : FileTree) (root : List String)
    (places : List (List String)) : List Node :=
  (places.filterMap (treeAt t root)).flatMap Node.byLevels

namespace Counts

variable [Text.CharacterNames] {p : Fact → Bool} {q : Node → Bool}

theorem countP_blockAt (h : Counts p q) (hreadable : IsReadable t root names) :
    (blockAt t root names).countP p = (nodesAt t root [names]).countP q := by
  obtain ⟨bytes, hfile, hwritable⟩ := hreadable
  rw [h.countP_fileFacts (fileFacts_eq_blockAt hfile hwritable)]
  have htree : treeAt t root names = Source.parse (sourceText bytes) := by rw [treeAt, hfile]
  rw [nodesAt, ← htree]
  cases hparsed : treeAt t root names <;> simp [hparsed]

theorem countP_blocks (h : Counts p q) {places : List (List String)}
    (hreadable : ∀ names ∈ places, IsReadable t root names) :
    (places.flatMap (blockAt t root)).countP p = (nodesAt t root places).countP q := by
  induction places with
  | nil => rfl
  | cons names places ih =>
      obtain ⟨hnames, hplaces⟩ := List.forall_mem_cons.mp hreadable
      have hnodes :
          nodesAt t root (names :: places) = nodesAt t root [names] ++ nodesAt t root places := by
        rw [nodesAt, nodesAt, nodesAt, ← List.flatMap_append, ← List.filterMap_append,
          List.singleton_append]
      rw [List.flatMap_cons, List.countP_append, h.countP_blockAt hnames, ih hplaces, hnodes,
        List.countP_append]

/-- **The facts of a code base are as many as its definitions.** The version control adds none. -/
theorem countP_of_extract (h : Counts p q) {m : FactModel} {ws : List Warning}
    (hextract : extract t git path s = .ok (m, ws)) :
    m.facts.countP p =
      (nodesAt t (t.resolve path) (selectedFiles t (t.resolve path) s)).countP q := by
  obtain ⟨-, hreadable, -⟩ := exists_extract_iff.mp ⟨m, ws, hextract⟩
  have hcontrol : (controlBlock t git (t.resolve path) s.withGit).countP p = 0 :=
    h.countP_eq_zero _ kind_controlBlock (by decide)
  rw [facts_of_extract hextract, List.countP_append, hcontrol, h.countP_blocks hreadable, add_zero]

end Counts

/-- **The counters of an extracted model count the code base.** There is a model if and only if the
root is a directory, every selected file can be read and so can what git says, as it can whatever
git replies with texts. In it, every selected file has one fact about its length and one that says
whether it is a test file, and no other path has such a fact, tracked or not. The files that are
counted are the selected ones, and the test files those with the path of a test file. The functions
and classes that are counted are the definitions at any depth in the selected files that parse, and
the documented functions those with a docstring. -/
theorem counters_count_codebase [Text.CharacterNames] (t : FileTree) (ht : t.IsProper) (git : Git)
    (path : Path) (s : Selection) :
    let root := t.resolve path
    let selected := selectedFiles t root s
    let paths := selected.map relativePath
    let nodes := nodesAt t root selected
    let functions := nodes.filter (·.label.isFunction)
    ((∃ m ws, extract t git path s = .ok (m, ws)) ↔ t.isDirectoryAt root = true ∧
      (∀ names ∈ selected, IsReadable t root names) ∧ git.IsLegible root s.withGit) ∧
    ((∀ u, ¬git.Garbles u) → git.IsLegible root s.withGit) ∧
    ∀ m ws, extract t git path s = .ok (m, ws) →
      (paths.Nodup ∧ (m.ofKind Kind.moduleLength).map (·.location.file) = paths ∧
        m.ofKind Kind.testFile = paths.map testFileFact) ∧
      m.counters =
        { totalFiles := selected.length
          testFiles := paths.countP isTestPath
          totalFunctions := functions.length
          documentedFunctions := functions.countP (·.hasDocstring)
          totalClasses := nodes.countP (·.label.isClass) } ∧
      m.counters.documentedFunctions ≤ m.counters.totalFunctions := by
  intro root selected paths nodes functions
  refine ⟨exists_extract_iff, fun hgit => isLegible_of_not_garbles hgit root s.withGit,
    fun m ws h => ?_⟩
  have hnodup : paths.Nodup := nodup_paths ht root s
  have hfunctions : functions.length = nodes.countP (·.label.isFunction) :=
    List.countP_eq_length_filter.symm
  have hdocumented :
      functions.countP (·.hasDocstring) = nodes.countP fun n =>
        n.label.isFunction && n.hasDocstring := by
    rw [List.countP_filter]
    exact List.countP_congr fun n _ => by rw [Bool.and_comm]
  -- the counters are what there is to count in the facts, and each of these numbers is one of the
  -- code base
  have hexpected : m.counters = .expected m.facts := by
    obtain ⟨facts, files, root', rfl, -⟩ := exists_build_of_extract h
    exact counters_build facts files root'
  have hcounters : Counters.expected m.facts =
      { totalFiles := selected.length
        testFiles := paths.countP isTestPath
        totalFunctions := functions.length
        documentedFunctions := functions.countP (·.hasDocstring)
        totalClasses := nodes.countP (·.label.isClass) } := by
    have hfiles : (moduleFiles m.facts).card = selected.length := by
      rw [moduleFiles_of_extract h, List.toFinset_card_of_nodup hnodup, List.length_map]
    have htests : (testFilesOf m.facts).card = paths.countP isTestPath := by
      rw [testFilesOf_of_extract h, List.toFinset_card_of_nodup (hnodup.filter _),
        List.countP_eq_length_filter]
    rw [Counters.expected, hfiles, htests, Counts.functionLength.countP_of_extract h,
      Counts.docstringPresent.countP_of_extract h,
      Counts.documented.countP_of_extract h, Counts.className.countP_of_extract h, ite_self,
        hfunctions, hdocumented]
  refine ⟨⟨hnodup, ofKind_moduleLength h, ?_⟩, hexpected.trans hcounters, ?_⟩
  · rw [List.map_map]
    exact ofKind_testFile h
  · rw [hexpected, hcounters]
    exact List.countP_le_length

/-- A class whose method has a docstring and a function in it, and a test file that does not
parse. -/
def nestedRepository : FileTree where
  home := ["w"]
  entries :=
    [(["w", "a.py"],
      .file (Text.encode "class A:\n    def f(self):\n        'Doc.'\n        def g(): pass\n")),
     (["w", "test_b.py"], .file (Text.encode "def\n"))]

/-- A source file is tracked that is not there. -/
def trackingReplies : Git
  | .workTree => .output "true\n"
  | .log _ => .output ""
  | .files => .output "a.py\x00c.py\x00"

theorem counters_count_codebase_nested :
    nestedRepository.IsProper ∧
      ∃ m ws, extract nestedRepository trackingReplies ⟨false, []⟩ {} = .ok (m, ws) ∧
      (m.ofKind Kind.moduleLength).map (·.location.file) = ["a.py", "test_b.py"] ∧
      m.counters =
        { totalFiles := 2, testFiles := 1, totalFunctions := 2, documentedFunctions := 1
          totalClasses := 1 } := by
  have hproper : nestedRepository.IsProper := by
    unfold FileTree.IsProper
    decide
  have hsorted : [["a.py"], ["test_b.py"]].mergeSort Path.precedes = [["a.py"], ["test_b.py"]] := by
    simp +decide [List.mergeSort, List.MergeSort.Internal.splitInTwo]
  have hselected : selectedFiles nestedRepository ["w"] {} = [["a.py"], ["test_b.py"]] := by
    change (([["a.py"], ["test_b.py"]].mergeSort Path.precedes).eraseDups).filter _ = _
    rw [hsorted]
    rfl
  have hreadable : ∀ names ∈ selectedFiles nestedRepository ["w"] {},
      IsReadable nestedRepository ["w"] names := by
    rw [hselected]
    exact isReadable_of_isOk (by decide +kernel)
  have hnodes : ∀ nodes, nodes = nodesAt nestedRepository ["w"] [["a.py"], ["test_b.py"]] →
      (nodes.filter (·.label.isFunction)).length = 2 ∧
        (nodes.filter (·.label.isFunction)).countP (·.hasDocstring) = 1 ∧
        nodes.countP (·.label.isClass) = 1 := by
    rintro _ rfl
    decide +kernel
  obtain ⟨hexists, -, hmodel⟩ :=
    counters_count_codebase nestedRepository hproper trackingReplies ⟨false, []⟩ {}
  have hanswers : trackingReplies.Answers "" "a.py\x00c.py\x00" :=
    ⟨⟨"true\n", by decide +kernel, by decide⟩, .replied (by decide +kernel), by decide +kernel⟩
  obtain ⟨m, ws, h⟩ := hexists.mpr ⟨by decide, hreadable, _, extractHistory_of_answers hanswers _⟩
  obtain ⟨⟨-, hlengths, -⟩, hcounters, -⟩ := hmodel m ws h
  have hroot : nestedRepository.resolve ⟨false, []⟩ = ["w"] := rfl
  rw [hroot, hselected] at hlengths hcounters
  obtain ⟨hfunctions, hdocumented, hclasses⟩ := hnodes _ rfl
  refine ⟨hproper, m, ws, h, hlengths, ?_⟩
  rw [hcounters, hfunctions, hdocumented, hclasses]
  decide +kernel

end Scorecard
