import Scorecard.Proofs.Visitor

set_option autoImplicit false

/-! # Visits of test files

A visit asks at three places whether its file is a test file: a function of a test file may be a
test, and a test file may print and may give a text to a variable that looks like a secret. Nothing
else of a visit depends on it. Two visits of one module, as a test file and as another file, go side
by side (`visit_alike`): at every node they emit the same facts but for those of two kinds each
(`Gated`), and they stand in the same definitions before and after every tree.
-/

namespace Scorecard

open Source (Node Label)

/-- The kinds of facts that only test files have. -/
def Kind.ofTests : List String := [testName, testAssertions]

/-- The kinds of facts that test files do not have. -/
def Kind.ofOthers : List String := [printCall, hardcodedSecret]

theorem Kind.ofTests_disjoint : ∀ kind ∈ ofTests, kind ∉ ofOthers := by decide

/-- Facts without those of some kinds. -/
def withoutKinds (kinds : List String) (facts : List Fact) : List Fact :=
  facts.filter fun f => f.kind ∉ kinds

/-! ## Facts side by side -/

/-- What is emitted for a test file, and for the same file if it is none: the same facts in the same
order, but for those of the kinds that one of the two does not have. -/
structure Gated (tests others : List Fact) : Prop where
  same : withoutKinds Kind.ofTests tests = withoutKinds Kind.ofOthers others
  tests : ∀ f ∈ tests, f.kind ∉ Kind.ofOthers
  others : ∀ f ∈ others, f.kind ∉ Kind.ofTests

namespace Gated

variable {xs xs' ys ys' : List Fact}

/-- Facts of other kinds are emitted for both. -/
theorem of_forall (h : ∀ f ∈ xs, f.kind ∉ Kind.ofTests ++ Kind.ofOthers) : Gated xs xs := by
  have htests : ∀ f ∈ xs, f.kind ∉ Kind.ofTests :=
    fun f hf hkind => h f hf (List.mem_append_left _ hkind)
  have hothers : ∀ f ∈ xs, f.kind ∉ Kind.ofOthers :=
    fun f hf hkind => h f hf (List.mem_append_right _ hkind)
  refine ⟨?_, hothers, htests⟩
  calc withoutKinds Kind.ofTests xs
      = xs := List.filter_eq_self.mpr fun f hf => decide_eq_true (htests f hf)
    _ = withoutKinds Kind.ofOthers xs :=
        (List.filter_eq_self.mpr fun f hf => decide_eq_true (hothers f hf)).symm

theorem of_kinds (kinds : List String) (hkinds : xs.map (·.kind) = kinds)
    (h : ∀ kind ∈ kinds, kind ∉ Kind.ofTests ++ Kind.ofOthers) : Gated xs xs := by
  apply of_forall
  intro f hf
  exact h f.kind (hkinds ▸ List.mem_map_of_mem hf)

theorem nil : Gated [] [] := of_forall (List.forall_mem_nil _)

theorem tests_only (h : ∀ f ∈ xs, f.kind ∈ Kind.ofTests) : Gated xs [] where
  same :=
    List.filter_eq_nil_iff.mpr fun f hf hkind => (of_decide_eq_true hkind : f.kind ∉ Kind.ofTests)
    (h f hf)
  tests := fun f hf => Kind.ofTests_disjoint f.kind (h f hf)
  others := List.forall_mem_nil _

theorem others_only (h : ∀ f ∈ ys, f.kind ∈ Kind.ofOthers) : Gated [] ys where
  same :=
    Eq.symm <| List.filter_eq_nil_iff.mpr fun f hf hkind =>
      (of_decide_eq_true hkind : f.kind ∉ Kind.ofOthers) (h f hf)
  tests := List.forall_mem_nil _
  others := fun f hf hkind => Kind.ofTests_disjoint f.kind hkind (h f hf)

theorem append (h : Gated xs ys) (h' : Gated xs' ys') : Gated (xs ++ xs') (ys ++ ys') where
  same := by
    show (xs ++ xs').filter _ = (ys ++ ys').filter _
    rw [List.filter_append, List.filter_append]
    exact congrArg₂ (· ++ ·) h.same h'.same
  tests := List.forall_mem_append.mpr ⟨h.tests, h'.tests⟩
  others := List.forall_mem_append.mpr ⟨h.others, h'.others⟩

theorem reverse (h : Gated xs ys) : Gated xs.reverse ys.reverse where
  same := by
    show xs.reverse.filter _ = ys.reverse.filter _
    rw [List.filter_reverse, List.filter_reverse]
    exact congrArg List.reverse h.same
  tests := fun f hf => h.tests f (List.mem_reverse.mp hf)
  others := fun f hf => h.others f (List.mem_reverse.mp hf)

theorem flatMap {α : Type} {items : List α} {f g : α → List Fact}
    (h : ∀ a ∈ items, Gated (f a) (g a)) : Gated (items.flatMap f) (items.flatMap g) := by
  induction items with
  | nil => exact nil
  | cons a items ih =>
      obtain ⟨ha, hitems⟩ := List.forall_mem_cons.mp h
      rw [List.flatMap_cons, List.flatMap_cons]
      exact ha.append (ih hitems)

end Gated

/-! ## The facts of a node -/

/-- The setting if the file is no test file. -/
def Setting.asOther (s : Setting) : Setting := { s with isTest := false }

namespace Source.Node

variable {s : Setting}

/-- Only the last facts of a function depend on the file. -/
theorem functionFacts_gated (hs : s.isTest = true) (name : String) (n : Node) :
    Gated (n.functionFacts s name) (n.functionFacts s.asOther name) := by
  unfold functionFacts
  refine Gated.append (Gated.append ?_ ?_) ?_
  · exact Gated.of_kinds [Kind.functionName, Kind.functionLength, Kind.functionArgs,
      Kind.docstringPresent, Kind.functionComplexity, Kind.loopDepth] rfl (by decide)
  · apply Gated.of_forall
    refine List.forall_mem_map.mpr fun p _ => ?_
    show Kind.argumentName ∉ Kind.ofTests ++ Kind.ofOthers
    decide
  · have hother : s.asOther.isTest = false := rfl
    rw [hs, hother, Bool.true_and, Bool.false_and]
    split
    · exact Gated.tests_only (by simp [Setting.fact, Kind.ofTests])
    · exact Gated.nil

theorem secretFacts_gated (hs : s.isTest = true) (n target : Node) :
    Gated (n.secretFacts s target) (n.secretFacts s.asOther target) := by
  -- the first list is empty, and the second one has secrets only
  have htests : n.secretFacts s target = [] := by
    unfold secretFacts
    simp only [hs, Bool.not_true, Bool.false_and, Bool.false_eq_true, if_false]
    split <;> rfl
  rw [htests]
  apply Gated.others_only
  intro f hf
  unfold secretFacts at hf
  split at hf
  · split at hf
    · cases List.mem_singleton.mp hf
      show Kind.hardcodedSecret ∈ Kind.ofOthers
      decide
    · cases hf
  · cases hf

theorem plainFacts_gated (hs : s.isTest = true) (n : Node) :
    Gated (n.plainFacts s) (n.plainFacts s.asOther) := by
  have hsecrets :
      Gated ((n.part .target).flatMap (n.secretFacts s))
        ((n.part .target).flatMap (n.secretFacts s.asOther)) :=
    Gated.flatMap fun target _ => secretFacts_gated hs n target
  unfold plainFacts
  split
  · exact Gated.of_kinds [Kind.bareExcept, Kind.broadExcept, Kind.swallowedException] rfl
      (by decide)
  · exact hsecrets
  · exact hsecrets
  · exact Gated.of_kinds [Kind.rangeLenLoop, Kind.loopStringConcat] rfl (by decide)
  · exact Gated.of_kinds [Kind.loopStringConcat] rfl (by decide)
  · exact Gated.nil

theorem logFacts_gated (n : Node) (method : String) :
    Gated (n.logFacts s method) (n.logFacts s.asOther method) := by
  apply Gated.of_forall
  refine List.forall_mem_cons.mpr ⟨?_, List.forall_mem_map.mpr fun m _ => ?_⟩
  · show Kind.logCall ∉ Kind.ofTests ++ Kind.ofOthers
    decide
  · show Kind.eagerLogFormat ∉ Kind.ofTests ++ Kind.ofOthers
    decide

/-- A call that prints passes no other test, so that a test file has no fact for it. -/
theorem callFacts_gated (hs : s.isTest = true) (n : Node) :
    Matching Gated (n.callFacts s) (n.callFacts s.asOther) := by
  have hother : s.asOther.isTest = false := rfl
  unfold callFacts
  split
  · exact .ok Gated.nil
  · rename_i f hf
    rw [hs, hother, Bool.not_true, Bool.and_false, Bool.not_false, Bool.and_true,
      if_neg Bool.false_ne_true]
    -- printing is tested first, and the name of this call is the one of no other test
    by_cases hprint : f.label = .name "print"
    · rw [if_pos (decide_eq_true hprint), hprint]
      refine .ok (Gated.others_only (List.forall_mem_singleton.mpr ?_))
      show Kind.printCall ∈ Kind.ofOthers
      decide
    · rw [if_neg (by simpa using hprint)]
      split
      · rename_i name hname
        split
        · refine (Matching.refl n.loggerName).bind ?_
          rintro asked _ rfl
          exact .ok (Gated.of_kinds [Kind.loggerDefinition] rfl (by decide))
        · split
          · exact .ok (logFacts_gated n name)
          · exact .ok Gated.nil
      · exact .ok Gated.nil

theorem ownFacts_gated (hs : s.isTest = true) (n : Node) :
    Matching Gated (n.ownFacts s) (n.ownFacts s.asOther) := by
  unfold ownFacts
  split
  · exact .ok (functionFacts_gated hs _ n)
  · exact .ok (Gated.of_kinds [Kind.className, Kind.classDocstringPresent, Kind.classMethodCount,
      Kind.classBases] rfl (by decide))
  · apply Matching.ok
    apply Gated.of_forall
    refine List.forall_mem_map.mpr fun name _ => ?_
    show Kind.globalStatement ∉ Kind.ofTests ++ Kind.ofOthers
    decide
  · exact callFacts_gated hs n
  · exact .ok (plainFacts_gated hs n)

end Source.Node

/-! ## Two visits -/

/-- A visit of a test file and a visit of the same file as another one that stand at the same
node. -/
structure Visit.Alike (v w : Visit) : Prop where
  isTest : v.setting.isTest = true
  setting : w.setting = v.setting.asOther
  emitted : Gated v.emitted w.emitted

namespace Visit.Alike

variable {v w : Visit}

theorem emit (h : v.Alike w) {found found' : List Fact} (hfound : Gated found found') :
    (v.emit found).Alike (w.emit found') where
  isTest := h.isTest
  setting := h.setting
  emitted := hfound.reverse.append h.emitted

theorem enter (h : v.Alike w) (scope : Scope) :
    Alike { v with setting := v.setting.enter scope }
      { w with setting := w.setting.enter scope } where
  isTest := h.isTest
  setting := by rw [h.setting]; rfl
  emitted := h.emitted

theorem leave (h : v.Alike w) : Alike { v with setting := v.setting.leave }
    { w with setting := w.setting.leave } where
  isTest := h.isTest
  setting := by rw [h.setting]; rfl
  emitted := h.emitted

end Visit.Alike

/-- The outcomes of two visits that went side by side. -/
abbrev AlikeAfter (x y : Except Source.Printer.PrintFault (Unit × Visit)) : Prop :=
  Matching (fun p q => p.2.Alike q.2) x y

namespace Source.Node

/-- Going into a definition and out of it again keeps two visits side by side, if what is done
inside does. -/
theorem enter_leave_alike {inside : Visitor Unit}
    (hinside : ∀ {v w : Visit}, v.Alike w → AlikeAfter (inside.run v) (inside.run w)) {v w : Visit}
    (h : v.Alike w) (scope : Scope) :
    AlikeAfter ((do Visitor.enter scope; inside; Visitor.leave : Visitor Unit).run v)
      ((do Visitor.enter scope; inside; Visitor.leave : Visitor Unit).run w) := by
  show AlikeAfter (inside.run { v with setting := v.setting.enter scope } >>= fun p =>
    Visitor.leave.run p.2)
    (inside.run { w with setting := w.setting.enter scope } >>= fun p => Visitor.leave.run p.2)
  refine (hinside (h.enter scope)).bind ?_
  intro p q hpq
  exact .ok hpq.leave

mutual

theorem visit_alike : ∀ (n : Node) {v w : Visit}, v.Alike w → AlikeAfter (n.visit.run v)
    (n.visit.run w)
  | mk role label a b children, v, w, h => by
      have hown :
          Matching Gated ((mk role label a b children).ownFacts v.setting)
            ((mk role label a b children).ownFacts w.setting) := by
        rw [h.setting]
        exact ownFacts_gated h.isTest _
      cases hscope : (mk role label a b children).scope? with
      | some scope =>
          rw [run_visit_definition hscope, run_visit_definition hscope]
          refine hown.bind ?_
          intro found found' hfound
          exact enter_leave_alike (fun hvw => visitAll_alike children hvw) (h.emit hfound) scope
      | none =>
          by_cases hglobal : ∀ names, label ≠ .globalStmt names
          · rw [run_visit_inside hscope hglobal, run_visit_inside hscope hglobal]
            refine hown.bind ?_
            intro found found' hfound
            exact visitAll_alike children (h.emit hfound)
          · -- a list of global names is not gone into
            obtain ⟨names, rfl⟩ : ∃ names, label = .globalStmt names := by simpa using hglobal
            cases hown with
            | ok hfound =>
                rw [visit]
                exact .ok (h.emit hfound)

theorem visitAll_alike : ∀ (ns : List Node) {v w : Visit}, v.Alike w → AlikeAfter
    ((visitAll ns).run v) ((visitAll ns).run w)
  | [], v, w, h => by
      rw [visitAll]
      exact .ok h
  | n :: rest, v, w, h => by
      rw [visitAll, StateT.run_bind, StateT.run_bind]
      refine (visit_alike n h).bind ?_
      intro p q hpq
      exact visitAll_alike rest hpq

end

/-- The facts of a module as a test file and as another file. -/
theorem facts_gated (path : String) (tree : Node) :
    Matching Gated (tree.facts path true) (tree.facts path false) := by
  have hstart :
      Visit.Alike { setting := { path, isTest := true, scopes := [] } }
        { setting := { path, isTest := false, scopes := [] } } :=
    ⟨rfl, rfl, Gated.nil⟩
  unfold facts
  refine (visit_alike tree hstart).bind ?_
  intro p q hpq
  exact .ok hpq.emitted.reverse

end Source.Node

/-- **Whether a file is a test file makes a difference to four kinds of facts only.** A visit of a
module fails or not, and for the same reason, whichever it is. What is emitted for a test file,
without the facts about tests, is what is emitted for another file, without the facts about printing
and secrets; and neither of the two has the facts that are left out for the other. -/
theorem test_files_are_gated (path : String) (tree : Node) :
    withoutKinds [Kind.testName, Kind.testAssertions] <$> tree.facts path true =
      withoutKinds [Kind.printCall, Kind.hardcodedSecret] <$> tree.facts path false ∧
    (∀ found, tree.facts path true = .ok found → ∀ f ∈ found, f.kind ≠ Kind.printCall ∧
      f.kind ≠ Kind.hardcodedSecret) ∧
    ∀ found, tree.facts path false = .ok found → ∀ f ∈ found, f.kind ≠ Kind.testName ∧
      f.kind ≠ Kind.testAssertions := by
  have hgated := tree.facts_gated path
  refine ⟨hgated.map_eq fun _ _ h => h.same, ?_, ?_⟩
  · intro found hfound f hf
    obtain ⟨_, -, h⟩ := hgated.exists_of_left hfound
    simpa [Kind.ofOthers] using h.tests f hf
  · intro found hfound f hf
    obtain ⟨_, -, h⟩ := hgated.exists_of_right hfound
    simpa [Kind.ofTests] using h.others f hf

/-- A module that gives a text to a secret and has a test that prints and asks for a logger. -/
def printingModule : Node :=
  .mk .root .program 0 0
    [.mk .body .assign 1 1
      [.mk .target (.name "api_key") 1 1 [], .mk .value (.constant (.text "k" false)) 1 1 []],
     .mk .body (.functionDef "test_page" false) 2 4
      [.mk .arguments (.parameters []) 2 2 [],
       .mk .body .exprStmt 3 3 [.mk .value .call 3 3 [.mk .function (.name "print") 3 3 []]],
       .mk .body .exprStmt 4 4
         [.mk .value .call 4 4
         [.mk .function (.attribute "getLogger") 4 4 [.mk .value (.name "logging") 4 4 []]]]]]

theorem test_files_are_gated_printing :
    let shared :=
      [Kind.functionName, Kind.functionLength, Kind.functionArgs, Kind.docstringPresent,
        Kind.functionComplexity, Kind.loopDepth]
    ∃ tests others, printingModule.facts "a.py" true = .ok tests ∧
      printingModule.facts "a.py" false = .ok others ∧
      tests.map (·.kind) = shared ++ [Kind.testName, Kind.testAssertions, Kind.loggerDefinition] ∧
      others.map (·.kind) = [Kind.hardcodedSecret] ++ shared ++
        [Kind.printCall, Kind.loggerDefinition] ∧
      withoutKinds [Kind.testName, Kind.testAssertions] tests =
        withoutKinds [Kind.printCall, Kind.hardcodedSecret] others ∧
      (∀ f ∈ tests, f.kind ≠ Kind.printCall ∧ f.kind ≠ Kind.hardcodedSecret) ∧
      ∀ f ∈ others, f.kind ≠ Kind.testName ∧ f.kind ≠ Kind.testAssertions := by
  intro shared
  -- the kinds are enough to know which facts there are
  have htests : (List.map (·.kind)) <$> printingModule.facts "a.py" true =
      .ok (shared ++ [Kind.testName, Kind.testAssertions, Kind.loggerDefinition]) := by
        decide +kernel
  have hothers : (List.map (·.kind)) <$> printingModule.facts "a.py" false =
      .ok ([Kind.hardcodedSecret] ++ shared ++ [Kind.printCall, Kind.loggerDefinition]) := by
        decide +kernel
  obtain ⟨tests, htests, hkinds⟩ := map_eq_ok_iff.mp htests
  obtain ⟨others, hothers, hkinds'⟩ := map_eq_ok_iff.mp hothers
  obtain ⟨hsame, hnone, hnone'⟩ := test_files_are_gated "a.py" printingModule
  rw [htests, hothers] at hsame
  exact ⟨tests, others, htests, hothers, hkinds, hkinds', Except.ok.inj hsame, hnone tests htests,
    hnone' others hothers⟩

end Scorecard
