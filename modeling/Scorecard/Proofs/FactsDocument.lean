import Scorecard.Command.Run
import Scorecard.Proofs.DocumentGrammar
import Scorecard.Proofs.Json
import Scorecard.Proofs.Outcome

set_option autoImplicit false

/-! # Facts documents

Writing a fact model and reading it again gives the same model (`ofFields_toValue`): the same root,
the same facts in the same order, and so the same files, counters and indexes. Every document is
read as a model of this kind, so what is written of it is read as it was. The text of a document has
its fields in the order of their names, which the reader does not mind (`load_of_text`). So `score`
says the same about a code base and about a file with its facts (`score_path`, `score_factsFile`).
-/

namespace Scorecard

/-! ## Facts -/

namespace Fact

theorem mapM_check {facts : List Fact} (h : ∀ f ∈ facts, f.Valid) : facts.mapM check = .ok facts :=
  mapM_eq_ok_iff.mpr (List.forall₂_same.mpr fun f hf => check_eq_ok_iff.mpr ⟨h f hf, rfl⟩)

/-- Facts that pass the check are valid, and they stay what they are. -/
theorem mapM_check_eq_ok {facts checked : List Fact} (h : facts.mapM check = .ok checked) :
    checked = facts ∧ ∀ f ∈ facts, f.Valid := by
  induction facts generalizing checked with
  | nil =>
      cases h
      simp
  | cons f rest ih =>
      rw [List.mapM_cons] at h
      obtain ⟨g, hg, h⟩ := bind_eq_ok_iff.mp h
      obtain ⟨more, hmore, h⟩ := bind_eq_ok_iff.mp h
      cases h
      obtain ⟨hvalid, rfl⟩ := check_eq_ok_iff.mp hg
      obtain ⟨rfl, hrest⟩ := ih hmore
      exact ⟨rfl, List.forall_mem_cons.mpr ⟨hvalid, hrest⟩⟩

/-- A table with the fields of a fact is read as the fact. -/
theorem ofFields_of_get? {f : Fact} (h : f.Valid) {fields : Fields}
    (hfields : ∀ name, fields.get? name = f.toValue.fields.get? name) (index : Nat) :
    ofFields index fields = .ok f :=
  ofFields_eq_ok_iff.mpr
    ⟨hfields "kind", hfields "file", Or.inr (hfields "start_line"), Or.inr (hfields "end_line"),
      Or.inr (hfields "subject"), hfields "value", h⟩

/-- Tables with the fields of facts are read as the facts. -/
theorem ofValues_of_get? {facts : List Fact} (h : ∀ f ∈ facts, f.Valid) {fieldsOf : Fact → Fields}
    (hfields : ∀ f name, (fieldsOf f).get? name = f.toValue.fields.get? name) (index : Nat) :
    ofValues index (facts.map fun f => .table (fieldsOf f)) = .ok facts := by
  induction facts generalizing index with
  | nil => rfl
  | cons f rest ih =>
      rw [List.map_cons, ofValues, ofFields_of_get? (h f List.mem_cons_self) (hfields f),
        ih (fun g hg => h g (List.mem_cons_of_mem _ hg))]
      rfl

end Fact

/-! ## Models -/

namespace FactModel

/-- The files of a model are the same if they are given to it again. -/
theorem build_files (facts : List Fact) (files : List String) (root : String) :
    build facts (build facts files root).files root = build facts files root := by
  have hfiles :
      (build facts (build facts files root).files root).files = (build facts files root).files := by
    -- a file of the model is given, or is the file of a fact, which it stays
    refine Text.sortedSet_congr fun file => ?_
    have hmem := mem_files_build facts files root file
    simp only [List.mem_filter, List.mem_append, List.mem_map, hmem, decide_eq_true_eq]
    constructor
    · rintro ⟨hfact | ⟨hgiven | hfact, -⟩, hwhole⟩
      · exact ⟨Or.inl hfact, hwhole⟩
      · exact ⟨Or.inr hgiven, hwhole⟩
      · exact ⟨Or.inl hfact, hwhole⟩
    · rintro ⟨hfact | hgiven, hwhole⟩
      · exact ⟨Or.inl hfact, hwhole⟩
      · exact ⟨Or.inr ⟨Or.inl hgiven, hwhole⟩, hwhole⟩
  have hsame : build facts (build facts files root).files root =
      { build facts files root with
        files := (build facts (build facts files root).files root).files } := rfl
  rw [hsame, hfiles]

/-- A table with the fields of a model is read as the model. -/
theorem ofFields_of_get? {facts : List Fact} {files : List String} {root : String} {fields : Fields}
    {items : List Value} (hroot : fields.get? "root" = some (.text root))
    (hfiles : fields.get? "files" = some (.list ((build facts files root).files.map .text)))
    (hfacts : fields.get? "facts" = some (.list items))
    (hitems : Fact.ofValues 0 items = .ok facts) :
    ofFields fields = .ok (build facts files root) := by
  simp only [ofFields, hroot, hfiles, hfacts, readFiles, Value.texts?_map_text, Option.getD_some,
    hitems]
  change Except.ok (build facts (build facts files root).files root) = _
  rw [build_files]

theorem ofFields_toValue {facts : List Fact} (h : ∀ f ∈ facts, f.Valid) (files : List String)
    (root : String) :
    ofFields (build facts files root).toValue.fields = .ok (build facts files root) := by
  have hitems : Fact.ofValues 0 (facts.map Fact.toValue) = .ok facts :=
    Fact.ofValues_of_get? h (fun _ _ => rfl) 0
  exact ofFields_of_get? rfl rfl rfl hitems

/-- A document is read as a model of valid facts. -/
theorem exists_build_of_ofFields {fields : Fields} {m : FactModel} (h : ofFields fields = .ok m) :
    ∃ facts files root, m = build facts files root ∧ ∀ f ∈ facts, f.Valid := by
  obtain ⟨⟨items, -, hfacts⟩, ⟨files, -, hm⟩, -⟩ := ofFields_eq_ok_iff.mp h
  refine ⟨m.facts, files, m.root, hm, ?_⟩
  intro f hf
  obtain ⟨item, -, entry, -, hread⟩ := exists_of_mem_forall₂ hfacts hf
  exact hread.valid

/-- A document that was read, written and read again is the same model. -/
theorem ofFields_toValue_of_ofFields {fields : Fields} {m : FactModel}
    (h : ofFields fields = .ok m) : ofFields m.toValue.fields = .ok m := by
  obtain ⟨facts, files, root, rfl, hvalid⟩ := exists_build_of_ofFields h
  exact ofFields_toValue hvalid files root

end FactModel

/-! ## Documents in files -/

theorem Fields.get?_sorted {fields : Fields} (h : (fields.map (·.1)).Nodup) (name : String) :
    (Value.table fields).sorted.fields.get? name = (fields.get? name).map Value.sorted := by
  have hperm :
      ((Value.sortedFields fields).mergeSort Fields.byName).Perm
        (fields.map fun p => (p.1, p.2.sorted)) := by
    rw [← Value.sortedFields_eq_map]
    exact List.mergeSort_perm _ _
  have hnames : ((fields.map fun p => (p.1, p.2.sorted)).map (·.1)).Nodup := by
    rw [List.map_map]
    exact h
  -- sorting permutes the fields, and a look-up among distinct names does not see it
  rw [Value.sorted]
  change ((Value.sortedFields fields).mergeSort Fields.byName).lookup name =
    (fields.lookup name).map Value.sorted
  rw [← lookup_perm hnames hperm.symm, lookup_mapValues]

/-- The values of a fact have no parts, so its fields are the same in any order. -/
theorem Fact.get?_sorted (f : Fact) (name : String) :
    f.toValue.sorted.fields.get? name = f.toValue.fields.get? name := by
  have hnames : (f.toValue.fields.map (·.1)).Nodup := by
    change ["kind", "file", "start_line", "end_line", "value", "subject"].Nodup
    decide
  -- sorting goes below the fields too, where it finds nothing to sort
  have hatoms : ∀ p ∈ f.toValue.fields, p.2.sorted = p.2 := by
    have hline : ∀ l : LineNumber, l.toValue.sorted = l.toValue := by
      intro l
      cases l <;> rfl
    have hvalue : f.value.toValue.sorted = f.value.toValue := by cases f.value <;> rfl
    simp [Fact.toValue, Value.fields, hline, hvalue, Value.sorted]
  have hsorted := Fields.get?_sorted hnames name
  cases hget : f.toValue.fields.get? name with
  | none =>
      rw [hget] at hsorted
      exact hsorted
  | some v =>
      rw [hget] at hsorted
      exact hsorted.trans (congrArg some (hatoms _ (mem_of_lookup_eq_some hget)))

namespace FactModel

/-- A document is also read as the model if its fields are in the order of their names. -/
theorem ofFields_sorted {facts : List Fact} (h : ∀ f ∈ facts, f.Valid) (files : List String)
    (root : String) :
    ofFields (build facts files root).toValue.sorted.fields = .ok (build facts files root) := by
  have hnames : ((build facts files root).toValue.fields.map (·.1)).Nodup := by
    change ["root", "files", "facts"].Nodup
    decide
  have htexts : (Value.list ((build facts files root).files.map .text)).sorted =
      .list ((build facts files root).files.map .text) := by
    rw [Value.sorted, Value.sortedItems_eq_map, List.map_map]
    rfl
  have hitems : (Value.list (facts.map Fact.toValue)).sorted =
      .list (facts.map fun f => .table f.toValue.sorted.fields) := by
    rw [Value.sorted, Value.sortedItems_eq_map, List.map_map]
    rfl
  -- a document is read field by field, so it is enough that each field is found
  refine ofFields_of_get? ?_ ?_ ?_ (Fact.ofValues_of_get? h Fact.get?_sorted 0)
  · exact Fields.get?_sorted hnames "root"
  · rw [← htexts]
    exact Fields.get?_sorted hnames "files"
  · rw [← hitems]
    exact Fields.get?_sorted hnames "facts"

/-- A facts file with the text of a document is read as the model. -/
theorem load_of_text {facts : List Fact} (h : ∀ f ∈ facts, f.Valid) {files : List String}
    {root : String} (hjson : Json.parse (Json.render (build facts files root).toValue ++ "\n") =
      .ok (build facts files root).toValue.sorted)
    {t : FileTree} {path : Path}
    (htext : factsText t path = .ok (Json.render (build facts files root).toValue ++ "\n")) :
    load t path = .ok (build facts files root) := by
  rw [load, htext]
  change ofText path _ = _
  have htable :
      (build facts files root).toValue.sorted =
        .table (build facts files root).toValue.sorted.fields := rfl
  rw [ofText, hjson, htable]
  simp only [ofFields_sorted h]
  rfl

end FactModel

/-- A document is plain if its facts have no numbers as values and no integers that are too long.
Then its text is read as what was written, by `Json.parse_render`. -/
theorem FactModel.plain_toValue {m : FactModel}
    (h : ∀ f ∈ m.facts, f.location.start.toValue.Plain ∧ f.location.stop.toValue.Plain ∧
      f.value.toValue.Plain) :
    m.toValue.Plain := by
  have hfiles : (Value.list (m.files.map .text)).Plain := by
    rw [Value.Plain, Value.plainItems_iff]
    intro v hv
    obtain ⟨file, -, rfl⟩ := List.mem_map.mp hv
    trivial
  have hfacts : (Value.list (m.facts.map Fact.toValue)).Plain := by
    rw [Value.Plain, Value.plainItems_iff]
    intro v hv
    obtain ⟨f, hf, rfl⟩ := List.mem_map.mp hv
    obtain ⟨hstart, hstop, hvalue⟩ := h f hf
    refine ⟨?_, trivial, trivial, hstart, hstop, hvalue, trivial, trivial⟩
    change ["kind", "file", "start_line", "end_line", "value", "subject"].Nodup
    decide
  refine ⟨?_, trivial, hfiles, hfacts, trivial⟩
  change ["root", "files", "facts"].Nodup
  decide

/-- What is extracted from a code base is a model of valid facts. -/
theorem exists_build_of_extract [Text.CharacterNames] {t : FileTree} {git : Git} {path : Path}
    {s : Selection} {m : FactModel} {warnings : List Warning}
    (h : extract t git path s = .ok (m, warnings)) :
    ∃ facts files root, m = FactModel.build facts files root ∧ ∀ f ∈ facts, f.Valid := by
  simp only [extract] at h
  split at h
  · cases h
  · obtain ⟨sources, -, h⟩ := bind_eq_ok_iff.mp h
    obtain ⟨history, -, h⟩ := bind_eq_ok_iff.mp h
    obtain ⟨facts, hfacts, h⟩ := bind_eq_ok_iff.mp h
    cases h
    obtain ⟨rfl, hvalid⟩ := Fact.mapM_check_eq_ok (mapError_eq_ok_iff.mp hfacts)
    exact ⟨_, _, _, rfl, hvalid⟩

/-! ## Commands -/

namespace Command

/-- The options of `facts` that ask for the facts that `score` looks at. -/
def ScoreOptions.forFacts (o : ScoreOptions) : FactsOptions :=
  ⟨o.path, o.included, o.excluded, o.configFile, o.withGit⟩

/-- What `score` says about a model: the format of the report, the report and the exit status. -/
def scoreFacts (ρ : Rounding) (o : ScoreOptions) (c : Config) (wait : Wait) (m : FactModel) :
    Except CommandError (Format × Report × Nat) := do
  let format ← reportFormat o c
  let c ← withMost o.most c
  let report ← (run ρ m c wait).mapError .ofRun
  return (format, report, if isBelow report.overall (threshold o c) then 1 else 0)

/-- Prints what `score` says about facts from a source. -/
def Workspace.printScore (ρ : Rounding) (w : Workspace) (source : String) :
    Format × Report × Nat → Completed
  | (format, report, status) => { w.print (reportText ρ format source w.time report) with status }

/-- The command line changes no more of a configuration than the number of recommendations. -/
theorem selection_of_withMost {o : ScoreOptions} {c c' : Config} (h : withMost o.most c = .ok c') :
    selection o.included o.excluded o.withGit c' = selection o.included o.excluded o.withGit c := by
  unfold withMost at h
  split at h
  · cases h
    rfl
  · split at h
    · cases h
    · cases h
      rfl

section Stages

variable [Text.CharacterNames] {ρ : Rounding} {w : Workspace} {o : ScoreOptions} {c : Config}
  {m : FactModel}

/-- Once it has its facts, `score` depends on nothing but the configuration and the facts. -/
theorem score_of_facts {source : String} (hconfig : loadConfig ρ w o.path o.configFile = .ok c)
    (hfacts : ∀ c', withMost o.most c = .ok c' → factsToScore w o c' = .ok (m, source)) :
    score ρ w o = (scoreFacts ρ o c w.wait m).map (w.printScore ρ source) := by
  simp only [score, scoreFacts, hconfig, bind, Except.bind]
  cases reportFormat o c with
  | error e => rfl
  | ok format =>
      cases hmost : withMost o.most c with
      | error e => rfl
      | ok c' =>
          simp only [hfacts c' hmost]
          cases run ρ m c' w.wait with
          | error e => rfl
          | ok report => rfl

theorem facts_eq (hconfig : loadConfig ρ w o.path o.configFile = .ok c)
    (hcollect : collect w o.path (selection o.included o.excluded o.withGit c) = .ok m) :
    facts ρ w o.forFacts = .ok (w.print (Json.render m.toValue)) := by
  simp only [facts, ScoreOptions.forFacts, hconfig, hcollect, bind, Except.bind]
  rfl

theorem exists_build_of_collect {path : Path} {s : Selection} (h : collect w path s = .ok m) :
    ∃ facts files root, m = FactModel.build facts files root ∧ ∀ f ∈ facts, f.Valid := by
  unfold collect at h
  split at h
  · rename_i hextract
    cases h
    exact exists_build_of_extract hextract
  · cases h

/-- A code base that is scored directly. -/
theorem score_path (ho : o.factsFile = none) (hconfig : loadConfig ρ w o.path o.configFile = .ok c)
    (hcollect : collect w o.path (selection o.included o.excluded o.withGit c) = .ok m) :
    score ρ w o = (scoreFacts ρ o c w.wait m).map (w.printScore ρ ("path:" ++ o.path.text)) := by
  refine score_of_facts hconfig fun c' hmost => ?_
  simp only [factsToScore, ho, selection_of_withMost hmost, hcollect, bind, Except.bind]
  rfl

/-- A facts file that is scored. -/
theorem score_factsFile {file : Path} (hconfig : loadConfig ρ w o.path o.configFile = .ok c)
    (hload : FactModel.load w.files file = .ok m) :
    score ρ w { o with factsFile := some file } =
      (scoreFacts ρ o c w.wait m).map (w.printScore ρ ("facts_file:" ++ file.text)) := by
  -- the format, the number of recommendations and the threshold do not depend on where the facts
  -- come from
  have hscore : score ρ w { o with factsFile := some file } =
      (scoreFacts ρ { o with factsFile := some file } c w.wait m).map
        (w.printScore ρ ("facts_file:" ++ file.text)) := by
    refine score_of_facts hconfig fun c' _ => ?_
    simp only [factsToScore, hload]
  exact hscore

end Stages

/-- Facts documents keep everything. A model of facts that pass the check is written as a document
that is read as this very model, with its root, facts, files, counters and indexes, and evaluations
cannot tell the two apart. What is read from any document is read again from the document that is
written of it. So if the output of `facts` is in a file and the file is read as the document that
was written, scoring the file gives the report and the exit status, or the error, of scoring the
code base. -/
theorem facts_document_round_trip [Text.CharacterNames] :
    (∀ (facts : List Fact) (files : List String) (root : String), (∀ f ∈ facts, f.check = .ok f) →
      FactModel.ofFields (FactModel.build facts files root).toValue.fields =
        .ok (FactModel.build facts files root) ∧
      ∀ m, FactModel.ofFields (FactModel.build facts files root).toValue.fields = .ok m →
        ∀ (ρ : Rounding) (c : Config) (r : Registry) (wait : Wait),
          runWith ρ m c r wait = runWith ρ (FactModel.build facts files root) c r wait) ∧
    (∀ (fields : Fields) (m : FactModel), FactModel.ofFields fields = .ok m →
      ∃ again, FactModel.ofFields m.toValue.fields = .ok again ∧ again = m ∧
        again.toValue = m.toValue) ∧
    (∀ (ρ : Rounding) (w : Workspace) (o : ScoreOptions) (c : Config) (m : FactModel),
      o.factsFile = none →
      loadConfig ρ w o.path o.configFile = .ok c →
      collect w o.path (selection o.included o.excluded o.withGit c) = .ok m →
      facts ρ w o.forFacts = .ok (w.print (Json.render m.toValue)) ∧
      score ρ w o = (scoreFacts ρ o c w.wait m).map (w.printScore ρ ("path:" ++ o.path.text)) ∧
      ∀ (w' : Workspace) (file : Path), loadConfig ρ w' o.path o.configFile = .ok c →
        w'.wait = w.wait → factsText w'.files file = .ok (w.print (Json.render m.toValue)).output →
        Json.parse (w.print (Json.render m.toValue)).output = .ok m.toValue.sorted →
        score ρ w' { o with factsFile := some file } =
          (scoreFacts ρ o c w.wait m).map (w'.printScore ρ ("facts_file:" ++ file.text))) := by
  refine ⟨?_, ?_, ?_⟩
  · intro facts files root hchecked
    have hvalid : ∀ f ∈ facts, f.Valid := fun f hf => (Fact.check_eq_ok_iff.mp (hchecked f hf)).1
    have hread := FactModel.ofFields_toValue hvalid files root
    refine ⟨hread, fun m hm ρ c r wait => ?_⟩
    cases hread.symm.trans hm
    rfl
  · intro fields m hm
    exact ⟨m, FactModel.ofFields_toValue_of_ofFields hm, rfl, rfl⟩
  · intro ρ w o c m ho hconfig hcollect
    refine ⟨facts_eq hconfig hcollect, score_path ho hconfig hcollect, ?_⟩
    -- the file is read as the model that was collected, and then both commands do the same
    intro w' file hconfig' hwait htext hjson
    obtain ⟨facts, files, root, rfl, hvalid⟩ := exists_build_of_collect hcollect
    rw [← hwait]
    exact score_factsFile hconfig' (FactModel.load_of_text hvalid hjson htext)

/-- An empty repository without version control. -/
def emptyRepository : Workspace where
  files := ⟨["w"], []⟩
  git _ := .noExecutable
  time := "now"
  wait := .complete

/-- The facts of the empty repository. -/
def emptyRepositoryFacts : FactModel :=
  .build [{ kind := Kind.gitignorePresent, location := .codebase, value := .bool false }] [] "/w"

/-- The facts of the empty repository as they are printed. -/
def emptyRepositoryText : String :=
  "\x7b\"facts\": [\x7b\"end_line\": 0, \"file\": \".\", \"kind\": \"gitignore_present\", " ++
    "\"start_line\": 0, \"subject\": \"\", \"value\": false\x7d], \"files\": [], " ++
    "\"root\": \"/w\"\x7d\n"

/-- The empty repository once its facts are in a file. -/
def repositoryWithFacts : Workspace :=
  { emptyRepository with
    files := ⟨["w"], [(["w", "facts.json"], .file (Text.encode emptyRepositoryText))]⟩ }

/-- The members of a fact in the order of their names. -/
theorem mergeSort_factMembers (kind file start stop value subject : String) :
    [("kind", kind), ("file", file), ("start_line", start), ("end_line", stop), ("value", value),
      ("subject", subject)].mergeSort (fun p q => Text.precedes p.1 q.1) =
    [("end_line", stop), ("file", file), ("kind", kind), ("start_line", start),
      ("subject", subject), ("value", value)] := by
  simp +decide [List.mergeSort, List.MergeSort.Internal.splitInTwo]

/-- The members of a facts document in the order of their names. -/
theorem mergeSort_documentMembers (root files facts : String) :
    [("root", root), ("files", files), ("facts", facts)].mergeSort
      (fun p q => Text.precedes p.1 q.1) =
    [("facts", facts), ("files", files), ("root", root)] := by
  simp +decide [List.mergeSort, List.MergeSort.Internal.splitInTwo]

/-- The empty repository has no configuration file, so that the default settings select its facts,
and these are printed as above. -/
theorem emptyRepository_settings :
    Config.findFile emptyRepository.files here none = .ok none ∧
      loadConfig .nearest emptyRepository here none = .ok {} ∧
      collect emptyRepository here (selection none none true {}) = .ok emptyRepositoryFacts ∧
      Json.render emptyRepositoryFacts.toValue ++ "\n" = emptyRepositoryText := by
  refine ⟨by decide +kernel, by decide +kernel, by decide +kernel, ?_⟩
  simp only [emptyRepositoryFacts, FactModel.build, FactModel.toValue, Fact.toValue, List.map_cons,
    List.map_nil, Json.render,
    Json.renderFields, Json.renderItems, mergeSort_factMembers, mergeSort_documentMembers]
  decide +kernel

theorem facts_document_round_trip_empty :
    (∃ facts : List Fact,
      facts = [⟨"k", ⟨"a.py", .flag false, .flag true⟩, .number .nan, ""⟩,
        ⟨"k", .codebase, .bool true, "s"⟩, ⟨"m", .ofLines "b.py" 2 5, .int 1, ""⟩] ∧
      FactModel.ofFields (FactModel.build facts ["c.md", ".", "a.py"] "/w").toValue.fields =
        .ok (FactModel.build facts ["c.md", ".", "a.py"] "/w")) ∧
    (∃ again,
      FactModel.ofFields
        (FactModel.build [⟨"k", .ofLines "a.py" 3 3, .bool true, ""⟩] [] ".").toValue.fields =
        .ok again ∧
      again.toValue =
        (FactModel.build [⟨"k", .ofLines "a.py" 3 3, .bool true, ""⟩] [] ".").toValue) ∧
    facts .nearest emptyRepository {} =
      .ok (emptyRepository.print (Json.render emptyRepositoryFacts.toValue)) ∧
    score .nearest emptyRepository {} =
      (scoreFacts .nearest {} {} .complete emptyRepositoryFacts).map
        (emptyRepository.printScore .nearest "path:.") ∧
    score .nearest repositoryWithFacts { factsFile := some ⟨false, ["facts.json"]⟩ } =
      (scoreFacts .nearest {} {} .complete emptyRepositoryFacts).map
        (repositoryWithFacts.printScore .nearest "facts_file:facts.json") := by
  obtain ⟨hround, hagain, hcommands⟩ := facts_document_round_trip
  refine ⟨⟨_, rfl, (hround _ _ _ (by decide +kernel)).1⟩, ?_, ?_⟩
  · have hread : FactModel.ofFields
        [("facts",
          .list [.table [("value", .bool true), ("file", .text "a.py"), ("kind", .text "k"),
          ("start_line", .int 3)]])] =
        .ok (FactModel.build [⟨"k", .ofLines "a.py" 3 3, .bool true, ""⟩] [] ".") := rfl
    obtain ⟨again, hok, -, hvalue⟩ := hagain _ _ hread
    exact ⟨again, hok, hvalue⟩
  · obtain ⟨-, hload, hcollect, hprinted⟩ := emptyRepository_settings
    obtain ⟨hfacts, hscore, hfile⟩ := hcommands .nearest emptyRepository {} {} _ rfl hload hcollect
    refine ⟨hfacts, hscore, hfile repositoryWithFacts ⟨false, ["facts.json"]⟩
      (by decide +kernel) rfl ?_ ?_⟩
    · change factsText _ _ = .ok (Json.render emptyRepositoryFacts.toValue ++ "\n")
      rw [hprinted]
      decide +kernel
    · refine Json.parse_render (FactModel.plain_toValue fun f hf => ?_)
      obtain rfl := List.mem_singleton.mp hf
      have hzero : isPrintable 0 = true := by decide +kernel
      exact ⟨hzero, hzero, trivial⟩

end Command

end Scorecard
