import Mathlib.Data.List.Perm.Basic
import Scorecard.Codebase.SyntaxFacts
import Scorecard.Proofs.Except

set_option autoImplicit false

/-! # What a visit of a module emits

A visitor keeps the definitions around the node that it visits on a stack. The stack is the same
after a tree as before it, and its entries are the definitions among the nodes around
(`Node.places`), so that a visit emits the facts of every node, each of them once, with the names of
the definitions that the node really is in (`visitor_complete`). The only thing that stops a visit
is a logger whose name cannot be written.
-/

namespace Scorecard

open Source (Node Label)

namespace Source.Node

/-! ## The nodes of a tree -/

/-- The scope that a definition opens. -/
def scope? (n : Node) : Option Scope :=
  match n.label with
  | .functionDef name _ => some ⟨false, name⟩
  | .classDef name => some ⟨true, name⟩
  | _ => none

mutual

/-- Every node of a tree with the nodes around it, the outermost first. -/
def places (around : List Node) : Node → List (List Node × Node)
  | n@(mk _ _ _ _ children) => (around, n) :: placesAll (around ++ [n]) children

/-- The nodes of some trees with the nodes around them. -/
def placesAll (around : List Node) : List Node → List (List Node × Node)
  | [] => []
  | n :: rest => places around n ++ placesAll around rest

end

mutual

theorem map_places (around : List Node) : ∀ n : Node, (places around n).map (·.2) = n.walk
  | mk role label a b children => by
      rw [places, walk, List.map_cons, map_placesAll _ children]

theorem map_placesAll (around : List Node) :
    ∀ ns : List Node, (placesAll around ns).map (·.2) = walkAll ns
  | [] => rfl
  | n :: rest => by
      rw [placesAll, walkAll, List.map_append, map_places around n, map_placesAll around rest]

end

theorem flatten_joinLevels_perm (as bs : List (List Node)) :
    (joinLevels as bs).flatten.Perm (as.flatten ++ bs.flatten) := by
  induction as generalizing bs with
  | nil => rw [joinLevels, List.flatten_nil, List.nil_append]
  | cons a as ih =>
      cases bs with
      | nil => simp [joinLevels]
      | cons b bs =>
          have hinner : (b ++ (joinLevels as bs).flatten).Perm (as.flatten ++ (b ++ bs.flatten)) :=
            ((ih bs).append_left b).trans (List.perm_append_comm_assoc b as.flatten bs.flatten)
          simpa [joinLevels] using hinner.append_left a

mutual

theorem flatten_levels_perm : ∀ n : Node, n.levels.flatten.Perm n.walk
  | mk role label a b children => by
      rw [levels, walk, List.flatten_cons, List.singleton_append]
      exact (flatten_levelsAll_perm children).cons _

theorem flatten_levelsAll_perm : ∀ ns : List Node, (levelsAll ns).flatten.Perm (walkAll ns)
  | [] => List.Perm.refl _
  | n :: rest => by
      rw [levelsAll, walkAll]
      exact (flatten_joinLevels_perm _ _).trans
        ((flatten_levels_perm n).append (flatten_levelsAll_perm rest))

end

/-- Every node of a module is in one place. -/
theorem places_perm (n : Node) : ((n.places []).map (·.2)).Perm n.byLevels := by
  rw [map_places]
  exact (flatten_levels_perm n).symm

/-- A list of global names has no children. This holds in every module, where these names are no
nodes. -/
def GlobalsAreLeaves (n : Node) : Prop :=
  ∀ m ∈ n.walk, ∀ names, m.label = .globalStmt names → m.children = []

/-! ## The facts of a node -/

/-- The facts that a node itself gives rise to. -/
def ownFacts (s : Setting) (n : Node) : Except Source.Printer.PrintFault (List Fact) :=
  match n.label with
  | .functionDef name _ => .ok (n.functionFacts s name)
  | .classDef name => .ok (n.classFacts s name)
  | .globalStmt names => .ok (n.globalFacts s names)
  | .call => n.callFacts s
  | _ => .ok (n.plainFacts s)

end Source.Node

/-- The setting of a node in a file, by the nodes around it. -/
def Setting.at (path : String) (isTest : Bool) (around : List Node) : Setting :=
  ⟨path, isTest, around.filterMap Node.scope?⟩

/-- The facts of the node in a place. -/
def factsAt (path : String) (isTest : Bool) (place : List Node × Node) :
    Except Source.Printer.PrintFault (List Fact) :=
  place.2.ownFacts (.at path isTest place.1)

/-! ## A visit -/

namespace Setting

theorem leave_enter (s : Setting) (scope : Scope) : (s.enter scope).leave = s := by
  simp [enter, leave]

/-- Inside a definition, it is the innermost of those around. -/
theorem at_enter (path : String) (isTest : Bool) (around : List Node) {n : Node} {scope : Scope}
    (h : n.scope? = some scope) :
    Setting.at path isTest (around ++ [n]) = (Setting.at path isTest around).enter scope := by
  simp [Setting.at, enter, h]

/-- A node that is no definition does not change the setting. -/
theorem at_inside (path : String) (isTest : Bool) (around : List Node) {n : Node}
    (h : n.scope? = none) :
    Setting.at path isTest (around ++ [n]) = Setting.at path isTest around := by
  simp [Setting.at, h]

end Setting

/-- A visit that has emitted further facts, and stands where it stood. -/
def Visit.emit (v : Visit) (found : List Fact) : Visit :=
  { v with emitted := found.reverse ++ v.emitted }

theorem Visit.emit_emit (v : Visit) (xs ys : List Fact) :
    (v.emit xs).emit ys = v.emit (xs ++ ys) := by
  simp [Visit.emit]

/-- The visit after some places. -/
def afterPlaces (path : String) (isTest : Bool) (places : List (List Node × Node)) (v : Visit) :
    Except Source.Printer.PrintFault (Unit × Visit) := do
  let parts ← places.mapM (factsAt path isTest)
  return ((), v.emit parts.flatten)

theorem afterPlaces_append (path : String) (isTest : Bool) (xs ys : List (List Node × Node))
    (v : Visit) : afterPlaces path isTest (xs ++ ys) v = (do
      let (_, v) ← afterPlaces path isTest xs v
      afterPlaces path isTest ys v) := by
  simp only [afterPlaces, List.mapM_append, bind_assoc, pure_bind, Visit.emit_emit,
    List.flatten_append]

theorem afterPlaces_cons (path : String) (isTest : Bool) (place : List Node × Node)
    (places : List (List Node × Node)) (v : Visit) :
    afterPlaces path isTest (place :: places) v = (do
      let found ← factsAt path isTest place
      afterPlaces path isTest places (v.emit found)) := by
  simp only [afterPlaces, List.mapM_cons, bind_assoc, pure_bind, Visit.emit_emit, List.flatten_cons]

namespace Source.Node

theorem GlobalsAreLeaves.of_children {role : Role} {label : Label} {a b : Nat}
    {children : List Node} (h : (mk role label a b children).GlobalsAreLeaves) :
    ∀ m ∈ walkAll children, ∀ names, m.label = .globalStmt names → m.children = [] := by
  intro m hm
  refine h m ?_
  rw [walk]
  exact List.mem_cons_of_mem _ hm

/-- A definition is visited by emitting its facts, going in, and coming out again. -/
theorem run_visit_definition {n : Node} {scope : Scope} (h : n.scope? = some scope) (v : Visit) :
    n.visit.run v = (do
      let found ← n.ownFacts v.setting
      (do Visitor.enter scope; visitAll n.children; Visitor.leave : Visitor Unit).run
        (v.emit found)) := by
  obtain ⟨role, label, a, b, children⟩ := n
  rw [visit]
  cases label <;> cases h <;> rfl

/-- Any other node is visited by emitting its facts and visiting its children, if it is no list of
global names. -/
theorem run_visit_inside {n : Node} (h : n.scope? = none)
    (hglobal : ∀ names, n.label ≠ .globalStmt names) (v : Visit) : n.visit.run v = (do
      let found ← n.ownFacts v.setting
      (visitAll n.children).run (v.emit found)) := by
  obtain ⟨role, label, a, b, children⟩ := n
  rw [visit]
  cases label with
  | functionDef name isAsync => cases h
  | classDef name => cases h
  | globalStmt names => exact absurd rfl (hglobal names)
  | call =>
      change (do
        let p ← (do let found ← callFacts v.setting (mk role .call a b children); return (found, v))
        (visitAll children).run (p.2.emit p.1)) = _
      rw [bind_assoc]
      rfl
  | _ => rfl

/-- A visit inside a definition ends where it started. -/
theorem run_enter_leave {path : String} {isTest : Bool} {places : List (List Node × Node)}
    {scope : Scope} {inside : Visitor Unit} {v : Visit}
    (h : inside.run { v with setting := v.setting.enter scope } =
      afterPlaces path isTest places { v with setting := v.setting.enter scope }) :
    (do Visitor.enter scope; inside; Visitor.leave : Visitor Unit).run v =
      afterPlaces path isTest places v := by
  change (inside.run { v with setting := v.setting.enter scope } >>= fun p =>
    Visitor.leave.run p.2) = _
  rw [h, afterPlaces, afterPlaces, bind_assoc]
  congr 1
  funext parts
  simp only [pure_bind, Visitor.leave, Visit.emit]
  change Except.ok _ = Except.ok _
  simp only [Setting.leave_enter]

mutual

theorem run_visit (path : String) (isTest : Bool) (around : List Node) :
    ∀ n : Node, n.GlobalsAreLeaves → ∀ v : Visit, v.setting = .at path isTest around →
      n.visit.run v = afterPlaces path isTest (n.places around) v
  | mk role label a b children, hglobals, v, hv => by
      have hchildren :=
        run_visitAll path isTest (around ++ [mk role label a b children]) children
        hglobals.of_children
      rw [places, afterPlaces_cons, factsAt, ← hv]
      cases hscope : (mk role label a b children).scope? with
      | some scope =>
          rw [run_visit_definition hscope]
          congr 1
          funext found
          exact run_enter_leave
            (hchildren _ (by rw [Setting.at_enter path isTest around hscope, ← hv]; rfl))
      | none =>
          by_cases hglobal : ∀ names, label ≠ .globalStmt names
          · rw [run_visit_inside hscope hglobal]
            congr 1
            funext found
            exact hchildren _ (by rw [Setting.at_inside path isTest around hscope, ← hv]; rfl)
          · -- the names are no nodes, so there is nothing to visit
            obtain ⟨names, rfl⟩ : ∃ names, label = .globalStmt names := by simpa using hglobal
            obtain rfl : children = [] :=
              hglobals (mk role (.globalStmt names) a b children)
                (by rw [walk]; exact List.mem_cons_self) names rfl
            rw [visit]
            rfl

theorem run_visitAll (path : String) (isTest : Bool) (around : List Node) :
    ∀ ns : List Node, (∀ m ∈ walkAll ns, ∀ names, m.label = .globalStmt names → m.children = []) →
      ∀ v : Visit, v.setting = .at path isTest around →
        (visitAll ns).run v = afterPlaces path isTest (placesAll around ns) v
  | [], _, v, _ => by
      rw [visitAll, placesAll]
      rfl
  | n :: rest, hglobals, v, hv => by
      rw [walkAll] at hglobals
      rw [visitAll, placesAll, afterPlaces_append, StateT.run_bind,
        run_visit path isTest around n (fun m hm => hglobals m (List.mem_append_left _ hm)) v hv,
          afterPlaces, bind_assoc, bind_assoc]
      congr 1
      funext parts
      rw [pure_bind, pure_bind]
      exact run_visitAll path isTest around rest
        (fun m hm => hglobals m (List.mem_append_right _ hm)) _ hv

end

/-- **A visit emits the facts of every node**, in the order of the visit. -/
theorem facts_eq (path : String) (isTest : Bool) {n : Node} (h : n.GlobalsAreLeaves) :
    n.facts path isTest = (do
      let parts ← (n.places []).mapM (factsAt path isTest)
      return parts.flatten) := by
  rw [facts, run_visit path isTest [] n h _ rfl, afterPlaces, bind_assoc]
  congr 1
  funext parts
  rw [pure_bind]
  exact congrArg Except.ok (by simp [Visit.emit])

theorem facts_eq_ok_iff (path : String) (isTest : Bool) {n : Node} (h : n.GlobalsAreLeaves)
    {found : List Fact} : n.facts path isTest = .ok found ↔
      ∃ parts, List.Forall₂ (fun place part => factsAt path isTest place = .ok part)
        (n.places []) parts ∧ found = parts.flatten := by
  rw [facts_eq path isTest h, bind_eq_ok_iff]
  refine exists_congr fun parts => and_congr mapM_eq_ok_iff ?_
  exact ⟨fun h => (Except.ok.inj h).symm, fun h => h ▸ rfl⟩

theorem exists_facts_eq_error_iff (path : String) (isTest : Bool) {n : Node}
    (h : n.GlobalsAreLeaves) :
    (∃ fault, n.facts path isTest = .error fault) ↔ ∃ place ∈ n.places
      [], ∃ fault, factsAt path isTest place = .error fault := by
  rw [facts_eq path isTest h, ← exists_mapM_eq_error_iff]
  refine exists_congr fun fault => ?_
  rw [bind_eq_error_iff]
  constructor
  · rintro (h | ⟨parts, -, h⟩)
    · exact h
    · cases h
  · exact Or.inl

/-! ## What the facts of a node are -/

/-- A logger is asked for by an expression that cannot be written. -/
def HasUnwritableLogger (n : Node) : Prop :=
  n.label = .call ∧ (∃ f, n.part? .function = some f ∧ f.label = .attribute "getLogger") ∧
    ∃ first rest, n.part .argument = first :: rest ∧ (∀ id, first.label ≠ .name id) ∧
      (∀ s marked, first.label ≠ .constant (.text s marked)) ∧ first.printFault? ≠ none

theorem exists_loggerName_eq_error_iff (n : Node) :
    (∃ fault, n.loggerName = .error fault) ↔
      ∃ first rest, n.part .argument = first :: rest ∧ (∀ id, first.label ≠ .name id) ∧
        (∀ s marked, first.label ≠ .constant (.text s marked)) ∧ first.printFault? ≠ none := by
  unfold loggerName
  cases hpart : n.part .argument with
  | nil => simp
  | cons first rest =>
      simp only [List.cons.injEq, exists_and_left, and_assoc, exists_eq_left',
        Option.ne_none_iff_exists']
      split
      · rename_i hlabel
        simp [hlabel]
      · rename_i hlabel
        simp [hlabel]
      · rename_i hname htext
        cases hfault : first.printFault? with
        | none => simp
        | some fault => exact ⟨fun _ => ⟨hname, htext, fault, rfl⟩, fun _ => ⟨fault, rfl⟩⟩

theorem exists_callFacts_eq_error_iff (s : Setting) (n : Node) :
    (∃ fault, n.callFacts s = .error fault) ↔
      (∃ f, n.part? .function = some f ∧ f.label = .attribute "getLogger") ∧
        ∃ fault, n.loggerName = .error fault := by
  unfold callFacts
  cases hfunction : n.part? .function with
  | none => simp
  | some f =>
      simp only [Option.some.injEq, exists_eq_left']
      split
      · -- what prints is a name, and no attribute
        rename_i hprint
        have hlabel : f.label = .name "print" := by simpa using (Bool.and_eq_true_iff.mp hprint).1
        simp [hlabel]
      · split
        · rename_i name hlabel
          by_cases hname : name = "getLogger"
          · subst hname
            simp only [if_true, hlabel, true_and, bind_eq_error_iff]
            simp [pure, Except.pure]
          · simp only [hname, if_false, hlabel, Label.attribute.injEq, false_and, iff_false]
            split <;> simp
        · rename_i hattribute
          constructor
          · rintro ⟨fault, h⟩
            cases h
          · rintro ⟨h, -⟩
            exact (hattribute _ h).elim

theorem exists_ownFacts_eq_error_iff (s : Setting) (n : Node) :
    (∃ fault, n.ownFacts s = .error fault) ↔ n.HasUnwritableLogger := by
  unfold HasUnwritableLogger
  rw [← exists_loggerName_eq_error_iff]
  by_cases hcall : n.label = .call
  · rw [ownFacts, hcall]
    simpa using exists_callFacts_eq_error_iff s n
  · constructor
    · rintro ⟨fault, h⟩
      rw [ownFacts] at h
      split at h <;> first | cases h | exact absurd ‹n.label = .call› hcall
    · rintro ⟨h, -⟩
      exact absurd h hcall

/-- What the facts of a node are, by the nodes around it. The subject of a definition is its name
after the names of the definitions that it is in, and that of most other facts is the innermost
definition, or the module. -/
def FactsFit (path : String) (isTest : Bool) (around : List Node) (n : Node) (found : List Fact) :
    Prop :=
  let scopes := around.filterMap scope?
  let names := scopes.map (·.name)
  let scopeName := if names = [] then path ++ " (module)" else ".".intercalate names
  match n.label with
  | .functionDef name _ =>
    let parameters := n.countedParameters (scopes.getLast?.any (·.isClass)) ++ n.variadicParameters
    found.map (·.kind) =
        [Kind.functionName, Kind.functionLength, Kind.functionArgs, Kind.docstringPresent,
          Kind.functionComplexity, Kind.loopDepth]
          ++ List.replicate parameters.length Kind.argumentName
          ++ (if isTest && Text.startsWith name "test" then [Kind.testName, Kind.testAssertions]
            else []) ∧
      (found.filter (·.kind = Kind.argumentName)).map (·.value) =
        parameters.map (fun p => .text p.parameterName) ∧
      ∀ f ∈ found, f.subject = ".".intercalate (names ++ [name])
  | .classDef name =>
    found.map (·.kind) =
      [Kind.className, Kind.classDocstringPresent, Kind.classMethodCount, Kind.classBases] ∧
      ∀ f ∈ found, f.subject = ".".intercalate (names ++ [name])
  | .exceptHandler _ =>
    found.map (·.kind) = [Kind.bareExcept, Kind.broadExcept, Kind.swallowedException] ∧
      ∀ f ∈ found, f.subject = scopeName
  | .forLoop _ =>
      found.map (·.kind) = [Kind.rangeLenLoop, Kind.loopStringConcat] ∧
        ∀ f ∈ found, f.subject = scopeName
  | .whileLoop => found.map (·.kind) = [Kind.loopStringConcat] ∧ ∀ f ∈ found, f.subject = scopeName
  | .globalStmt globals =>
      found.map (fun f => (f.kind, f.subject)) =
        globals.map (fun name => (Kind.globalStatement, name))
  | .call =>
    found.map (·.kind) ∈
        [[], [Kind.printCall], [Kind.loggerDefinition], [Kind.logCall],
          [Kind.logCall, Kind.eagerLogFormat]] ∧
      ∀ f ∈ found, f.subject = scopeName
  | .assign | .annAssign =>
    ∀ f ∈ found, f.kind = Kind.hardcodedSecret ∧ ∃ target ∈ n.part .target,
      target.label = .name f.subject
  | _ => found = []

theorem scopeName_at (path : String) (isTest : Bool) (around : List Node) :
    (Setting.at path isTest around).scopeName =
      if (around.filterMap scope?).map (·.name) = [] then path ++ " (module)"
      else ".".intercalate ((around.filterMap scope?).map (·.name)) := by
  simp only [Setting.scopeName, Setting.at, List.isEmpty_iff, List.map_eq_nil_iff]

theorem functionFacts_fit (s : Setting) (name : String) (n : Node) :
    (n.functionFacts s name).map (·.kind) =
        [Kind.functionName, Kind.functionLength, Kind.functionArgs, Kind.docstringPresent,
          Kind.functionComplexity, Kind.loopDepth]
          ++ List.replicate (n.countedParameters s.inClass ++ n.variadicParameters).length
            Kind.argumentName
          ++ (if s.isTest && Text.startsWith name "test" then [Kind.testName, Kind.testAssertions]
            else []) ∧
      ((n.functionFacts s name).filter (·.kind = Kind.argumentName)).map (·.value) =
        (n.countedParameters s.inClass ++ n.variadicParameters).map
          (fun p => .text p.parameterName) ∧
      ∀ f ∈ n.functionFacts s name, f.subject = s.qualify name := by
  unfold functionFacts
  dsimp only
  -- which parameters are counted does not matter here
  generalize n.countedParameters s.inClass ++ n.variadicParameters = parameters
  refine ⟨?_, ?_, ?_⟩
  · split <;> simp [Setting.fact, Function.comp_def, List.map_const']
  · split <;> simp [Setting.fact, List.filter_map, Function.comp_def, Kind.functionName,
      Kind.functionLength, Kind.functionArgs,
      Kind.docstringPresent, Kind.functionComplexity, Kind.loopDepth, Kind.argumentName,
        Kind.testName, Kind.testAssertions]
  · intro f hf
    simp only [List.mem_append, List.mem_cons, List.not_mem_nil, or_false, List.mem_map] at hf
    rcases hf with (hf | ⟨p, -, rfl⟩) | hf
    · rcases hf with rfl | rfl | rfl | rfl | rfl | rfl <;> rfl
    · rfl
    · split at hf
      · rcases List.mem_cons.mp hf with rfl | hf
        · rfl
        · cases List.mem_singleton.mp hf
          rfl
      · cases hf

theorem logFacts_fit (s : Setting) (n : Node) (method : String) :
    ((logFacts s n method).map (·.kind) = [Kind.logCall] ∨
      (logFacts s n method).map (·.kind) = [Kind.logCall, Kind.eagerLogFormat]) ∧
      ∀ f ∈ logFacts s n method, f.subject = s.scopeName := by
  unfold logFacts
  cases (n.part .argument)[if method = "log" then 1 else 0]? <;> simp [Setting.fact]

/-- What a call can give rise to. -/
theorem callFacts_cases {s : Setting} {n : Node} {found : List Fact}
    (h : n.callFacts s = .ok found) :
    found = [] ∨ found = [s.fact Kind.printCall n (.bool true) s.scopeName] ∨
      (∃ asked, found = [s.fact Kind.loggerDefinition n (.text asked) s.scopeName]) ∨
        ∃ method, found = logFacts s n method := by
  unfold callFacts at h
  split at h
  · cases h
    exact Or.inl rfl
  · split at h
    · cases h
      exact Or.inr (Or.inl rfl)
    · split at h
      · split at h
        · obtain ⟨asked, -, h⟩ := bind_eq_ok_iff.mp h
          cases h
          exact Or.inr (Or.inr (Or.inl ⟨asked, rfl⟩))
        · split at h
          · cases h
            exact Or.inr (Or.inr (Or.inr ⟨_, rfl⟩))
          · cases h
            exact Or.inl rfl
      · cases h
        exact Or.inl rfl

theorem callFacts_fit (s : Setting) (n : Node) {found : List Fact} (h : n.callFacts s = .ok found) :
    found.map (·.kind) ∈
        [[], [Kind.printCall], [Kind.loggerDefinition], [Kind.logCall],
          [Kind.logCall, Kind.eagerLogFormat]] ∧
      ∀ f ∈ found, f.subject = s.scopeName := by
  rcases callFacts_cases h with rfl | rfl | ⟨asked, rfl⟩ | ⟨method, rfl⟩
  · simp
  · simp [Setting.fact]
  · simp [Setting.fact]
  · obtain ⟨hkinds | hkinds, hsubject⟩ := logFacts_fit s n method
    · exact ⟨by rw [hkinds]; simp, hsubject⟩
    · exact ⟨by rw [hkinds]; simp, hsubject⟩

theorem secretFacts_fit (s : Setting) (n : Node) : ∀ f ∈ (n.part .target).flatMap (n.secretFacts s),
    f.kind = Kind.hardcodedSecret ∧ ∃ target ∈ n.part .target, target.label = .name f.subject := by
  intro f hf
  obtain ⟨target, htarget, hf⟩ := List.mem_flatMap.mp hf
  unfold secretFacts at hf
  split at hf
  · rename_i id value hlabel hvalue
    split at hf
    · cases List.mem_singleton.mp hf
      exact ⟨rfl, target, htarget, hlabel⟩
    · cases hf
  · cases hf

theorem factsFit (path : String) (isTest : Bool) {place : List Node × Node} {found : List Fact}
    (h : factsAt path isTest place = .ok found) : FactsFit path isTest place.1 place.2 found := by
  obtain ⟨around, role, label, a, b, children⟩ := place
  unfold factsAt ownFacts at h
  cases label with
  | functionDef name isAsync =>
      cases h
      exact functionFacts_fit (Setting.at path isTest around) name _
  | classDef name =>
      cases h
      refine ⟨rfl, fun f hf => ?_⟩
      simp only [classFacts, List.mem_cons, List.not_mem_nil, or_false] at hf
      rcases hf with rfl | rfl | rfl | rfl <;> rfl
  | exceptHandler name =>
      cases h
      refine ⟨rfl, fun f hf => Eq.trans ?_ (scopeName_at path isTest around)⟩
      simp only [plainFacts, Node.label, handlerFacts, List.mem_cons, List.not_mem_nil,
        or_false] at hf
      rcases hf with rfl | rfl | rfl <;> rfl
  | forLoop isAsync =>
      cases h
      refine ⟨rfl, fun f hf => Eq.trans ?_ (scopeName_at path isTest around)⟩
      simp only [plainFacts, Node.label, List.mem_cons, List.not_mem_nil, or_false] at hf
      rcases hf with rfl | rfl <;> rfl
  | whileLoop =>
      cases h
      refine ⟨rfl, fun f hf => Eq.trans ?_ (scopeName_at path isTest around)⟩
      cases List.mem_singleton.mp hf
      rfl
  | globalStmt names =>
      cases h
      exact List.map_map
  | call =>
      obtain ⟨hkinds, hsubject⟩ := callFacts_fit _ _ h
      exact ⟨hkinds, fun f hf => (hsubject f hf).trans (scopeName_at path isTest around)⟩
  | assign =>
      cases h
      exact secretFacts_fit _ _
  | annAssign =>
      cases h
      exact secretFacts_fit _ _
  -- all other nodes have no facts of their own
  | _ =>
      cases h
      rfl

end Source.Node

/-- **A visitor loses and duplicates nothing.** Every node of a module is in one place, and a visit
emits the facts of the nodes in all places and nothing else, each of them once. The facts of a node
are those of its kind, with the names of the definitions around it as their subject. A visit fails
if and only if some logger is asked for by a name that cannot be written. -/
theorem visitor_complete (path : String) (isTest : Bool) {tree : Node}
    (hglobals : tree.GlobalsAreLeaves) :
    ((tree.places []).map (·.2)).Perm tree.byLevels ∧
    (∀ found, tree.facts path isTest = .ok found ↔
      ∃ parts, List.Forall₂ (fun place part => factsAt path isTest place = .ok part)
        (tree.places []) parts ∧ found = parts.flatten) ∧
    (∀ place ∈ tree.places [], ∀ part, factsAt path isTest place = .ok part →
      Node.FactsFit path isTest place.1 place.2 part) ∧
    ((∃ fault, tree.facts path isTest = .error fault) ↔
      ∃ n ∈ tree.byLevels, n.HasUnwritableLogger) := by
  refine ⟨tree.places_perm, fun found => tree.facts_eq_ok_iff path isTest hglobals,
    fun place _ part h => Node.factsFit path isTest h, ?_⟩
  rw [Node.exists_facts_eq_error_iff path isTest hglobals]
  simp only [factsAt, Node.exists_ownFacts_eq_error_iff]
  constructor
  · rintro ⟨place, hplace, hlogger⟩
    exact ⟨place.2, tree.places_perm.mem_iff.mp (List.mem_map_of_mem hplace), hlogger⟩
  · rintro ⟨n, hn, hlogger⟩
    obtain ⟨place, hplace, rfl⟩ := List.mem_map.mp (tree.places_perm.mem_iff.mpr hn)
    exact ⟨place, hplace, hlogger⟩

/-- A module that asks for a logger and has a class with a method. -/
def loggingModule (asked : Node) : Node :=
  .mk .root .program 0 0
    [.mk .body .exprStmt 1 1
      [.mk .value .call 1 1
        [.mk .function (.attribute "getLogger") 1 1 [.mk .value (.name "logging") 1 1 []],
        asked.as .argument]],
     .mk .body (.classDef "A") 2 4
      [.mk .body (.functionDef "m" false) 3 4
        [.mk .arguments (.parameters []) 3 3 [.mk .positional (.parameter "self") 3 3 []],
         .mk .body (.globalStmt ["x", "y"]) 4 4 []]]]

theorem visitor_complete_logging :
    (loggingModule (.mk .root (.name "__name__") 1 1 [])).GlobalsAreLeaves ∧
      (∃ found, (loggingModule (.mk .root (.name "__name__") 1 1 [])).facts "a.py" false =
        .ok found) ∧
      (((loggingModule (.mk .root (.name "__name__") 1 1 [])).places []).map (·.2)).Perm
        (loggingModule (.mk .root (.name "__name__") 1 1 [])).byLevels := by
  have hglobals : (loggingModule (.mk .root (.name "__name__") 1 1 [])).GlobalsAreLeaves := by
    simp [Node.GlobalsAreLeaves, loggingModule, Node.walk, Node.walkAll, Node.as, Node.label,
      Node.children]
  obtain ⟨hplaces, hfacts, -⟩ := visitor_complete "a.py" false hglobals
  exact ⟨hglobals, ⟨_, rfl⟩, hplaces⟩

/-- A logger is asked for by a formatted text with a control character in it, and nothing is
emitted, although the class and its method have facts. -/
theorem visit_of_unwritable_logger :
    (loggingModule (.mk .root .joinedText 1 1
      [.mk .value (.formattedValue none) 1 1
        [.mk .value (.constant (.text "\x07" false)) 1 1 []]])).facts "a.py" false =
        .error .backslash := by
  rfl

end Scorecard
