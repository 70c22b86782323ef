import Mathlib.Algebra.Order.BigOperators.Group.List
import Mathlib.Algebra.Order.Ring.Nat
import Mathlib.Order.Bounds.Defs
import Scorecard.Proofs.FactPlaces
import Scorecard.Proofs.MetricBounds

set_option autoImplicit false

/-! # The measures of functions and loops agree

The depth of the loops of a function is found by a recursion that stops at nested definitions, its
complexity by a walk through the whole tree. The depth is the length of the longest chain of loops
inside one another (`isGreatest_loopDepth`), and since every loop is a decision, it stays below the
complexity (`loopDepth_lt_complexity`).
-/

namespace Scorecard

namespace Source

theorem Label.isScope_eq_false_of_isLoop {label : Label} (h : label.isLoop = true) :
    label.isScope = false := by
  cases label with
  | forLoop isAsync => rfl
  | whileLoop => rfl
  | _ => cases h

namespace Node

/-! ## Chains of loops -/

/-- A node lies in a tree, and no function, class or lambda of the tree is around it. -/
inductive Within : Node → Node → Prop
  | self (n : Node) : Within n n
  | child {n k m : Node} (hn : n.label.isScope = false) (hk : k ∈ n.children) (h : Within k m) :
      Within n m

/-- Loops of which the first lies in one of some trees and each other one inside the one before it,
with no function, class or lambda in between. -/
inductive LoopChain : List Node → List Node → Prop
  | nil (ns : List Node) : LoopChain ns []
  | cons {ns : List Node} {n loop : Node} {rest : List Node} (hn : n ∈ ns) (hwithin : Within n loop)
      (hloop : loop.label.isLoop = true)
      (hrest : LoopChain loop.children rest) : LoopChain ns (loop :: rest)

theorem nestedLoopsAmong_le_iff {ns : List Node} {k : ℕ} :
    nestedLoopsAmong ns ≤ k ↔ ∀ n ∈ ns, n.nestedLoops ≤ k := by
  induction ns with
  | nil => simp [nestedLoopsAmong]
  | cons n ns ih => rw [nestedLoopsAmong, max_le_iff, ih, List.forall_mem_cons]

theorem nestedLoops_le_among {n : Node} {ns : List Node} (h : n ∈ ns) :
    n.nestedLoops ≤ nestedLoopsAmong ns :=
  nestedLoopsAmong_le_iff.mp le_rfl n h

theorem nestedLoops_of_isLoop {n : Node} (h : n.label.isLoop = true) :
    n.nestedLoops = nestedLoopsAmong n.children + 1 := by
  obtain ⟨role, label, a, b, ns⟩ := n
  have hscope : label.isScope = false := Label.isScope_eq_false_of_isLoop h
  have hloop : label.isLoop = true := h
  simp [nestedLoops, hscope, hloop, children]

theorem among_children_le {n : Node} (h : n.label.isScope = false) :
    nestedLoopsAmong n.children ≤ n.nestedLoops := by
  by_cases hloop : n.label.isLoop = true
  · rw [nestedLoops_of_isLoop hloop]
    exact Nat.le_succ _
  · obtain ⟨role, label, a, b, ns⟩ := n
    have hscope : label.isScope = false := h
    have hother : ¬label.isLoop = true := hloop
    simp [nestedLoops, hscope, hother, children]

theorem Within.nestedLoops_le {n m : Node} (h : Within n m) : m.nestedLoops ≤ n.nestedLoops := by
  induction h with
  | self n => exact le_rfl
  | child hn hk _ ih => exact ih.trans ((nestedLoops_le_among hk).trans (among_children_le hn))

/-- No chain is longer than the loops are deep. -/
theorem LoopChain.length_le {ns chain : List Node} (h : LoopChain ns chain) :
    chain.length ≤ nestedLoopsAmong ns := by
  induction h with
  | nil ns => exact Nat.zero_le _
  | @cons ns n loop rest hn hwithin hloop _ ih =>
      calc rest.length + 1 ≤ nestedLoopsAmong loop.children + 1 := Nat.succ_le_succ ih
        _ = loop.nestedLoops := (nestedLoops_of_isLoop hloop).symm
        _ ≤ n.nestedLoops := hwithin.nestedLoops_le
        _ ≤ nestedLoopsAmong ns := nestedLoops_le_among hn

theorem LoopChain.mono {ns ms chain : List Node} (h : LoopChain ns chain) (hsub : ns ⊆ ms) :
    LoopChain ms chain := by
  cases h with
  | nil => exact .nil ms
  | cons hn hwithin hloop hrest => exact .cons (hsub hn) hwithin hloop hrest

theorem LoopChain.of_children {n : Node} {chain : List Node} (hn : n.label.isScope = false)
    (h : LoopChain n.children chain) : LoopChain [n] chain := by
  cases h with
  | nil => exact .nil _
  | cons hk hwithin hloop hrest => exact .cons List.mem_cons_self (.child hn hk hwithin) hloop hrest

mutual

theorem exists_loopChain : ∀ n : Node, ∃ chain, LoopChain [n] chain ∧ chain.length = n.nestedLoops
  | mk role label a b children => by
      obtain ⟨chain, hchain, hlength⟩ := exists_loopChain_among children
      -- a loop comes before the longest chain of its children; any other node has their chain,
      -- unless it is a scope
      rw [nestedLoops]
      split
      · exact ⟨[], .nil _, rfl⟩
      · rename_i hscope
        split
        · rename_i hloop
          exact ⟨_ :: chain, .cons List.mem_cons_self (.self _) hloop hchain,
            congrArg Nat.succ hlength⟩
        · exact ⟨chain, hchain.of_children (Bool.eq_false_iff.mpr hscope), hlength⟩

theorem exists_loopChain_among : ∀ ns : List Node, ∃ chain, LoopChain ns chain ∧
    chain.length = nestedLoopsAmong ns
  | [] => ⟨[], .nil _, rfl⟩
  | n :: rest => by
      -- the longer of the two chains is one in the larger list
      rw [nestedLoopsAmong]
      rcases max_choice n.nestedLoops (nestedLoopsAmong rest) with hmax | hmax
      · obtain ⟨chain, hchain, hlength⟩ := exists_loopChain n
        exact ⟨chain, hchain.mono (List.cons_subset_cons n (List.nil_subset rest)),
          hlength.trans hmax.symm⟩
      · obtain ⟨chain, hchain, hlength⟩ := exists_loopChain_among rest
        exact ⟨chain, hchain.mono (List.subset_cons_self n rest), hlength.trans hmax.symm⟩

end

/-- **The depth of a function is the length of its longest chain of loops.** -/
theorem isGreatest_loopDepth (n : Node) :
    IsGreatest {k | ∃ chain, LoopChain (n.part .body) chain ∧ chain.length = k} n.loopDepth := by
  constructor
  · exact exists_loopChain_among _
  · rintro k ⟨chain, hchain, rfl⟩
    exact hchain.length_le

/-! ## Complexity -/

theorem complexity_eq (n : Node) : n.complexity = 1 + (n.walk.map decisions).sum := by
  rw [complexity, foldl_decisions]

/-- A function is at least as complex as every function inside it. -/
theorem complexity_le_of_mem_walk {n m : Node} (h : m ∈ n.walk) : m.complexity ≤ n.complexity := by
  rw [complexity_eq, complexity_eq]
  exact Nat.add_le_add_left (((walk_sublist h).map decisions).sum_le_sum fun _ _ => Nat.zero_le _) 1

mutual

-- a loop is a decision of its own, and the deepest of its children has no more loops than all of
-- them have decisions
theorem nestedLoops_le_decisions : ∀ n : Node, n.nestedLoops ≤ (n.walk.map decisions).sum
  | mk role label a b children => by
      have hchildren := nestedLoopsAmong_le_decisions children
      rw [walk, List.map_cons, List.sum_cons, nestedLoops]
      split
      · exact Nat.zero_le _
      · split
        · rename_i hloop
          have hown : (mk role label a b children).decisions = 1 := by
            cases label with
            | forLoop isAsync => rfl
            | whileLoop => rfl
            | _ => cases hloop
          omega
        · omega

theorem nestedLoopsAmong_le_decisions :
    ∀ ns : List Node, nestedLoopsAmong ns ≤ ((walkAll ns).map decisions).sum
  | [] => Nat.zero_le _
  | n :: rest => by
      have hn := nestedLoops_le_decisions n
      have hrest := nestedLoopsAmong_le_decisions rest
      rw [walkAll, List.map_append, List.sum_append, nestedLoopsAmong]
      omega

end

theorem loopDepth_lt_complexity (n : Node) : n.loopDepth < n.complexity := by
  obtain ⟨role, label, a, b, children⟩ := n
  -- the body is only some of the children, and the loops in it are some of the decisions
  have hbody : (mk role label a b children).loopDepth ≤ nestedLoopsAmong children :=
    nestedLoopsAmong_le_iff.mpr fun m hm => nestedLoops_le_among (List.mem_of_mem_filter hm)
  have hchildren := nestedLoopsAmong_le_decisions children
  rw [complexity_eq, walk, List.map_cons, List.sum_cons]
  omega

/-! ## Texts built in loops -/

theorem self_mem_walk (n : Node) : n ∈ n.walk := by
  cases n
  rw [walk]
  exact List.mem_cons_self

theorem mem_walk_of_mem_children {n m : Node} (h : m ∈ n.children) : m ∈ n.walk := by
  cases n
  rw [walk]
  exact List.mem_cons_of_mem _ (mem_walkAll.mpr ⟨m, h, self_mem_walk m⟩)

/-- What a loop in the body of another one does to a text, the outer one does as well. -/
theorem concatenatesText_of_inner {outer inner stmt : Node} (hstmt : stmt ∈ outer.part .body)
    (hinner : inner ∈ stmt.walk) (h : inner.concatenatesText = true) :
    outer.concatenatesText = true := by
  unfold concatenatesText at h ⊢
  obtain ⟨t, ht, h⟩ := List.any_eq_true.mp h
  obtain ⟨d, hd, happends⟩ := List.any_eq_true.mp h
  -- the statement that appends is found again, since the inner loop is walked as a part of the
  -- outer one
  have hmem : d ∈ stmt.walk := by
    have hwalk : t ∈ inner.walk := mem_walk_of_mem_children (List.mem_of_mem_filter ht)
    exact (walk_sublist hinner).subset ((walk_sublist hwalk).subset hd)
  exact List.any_eq_true.mpr ⟨stmt, hstmt, List.any_eq_true.mpr ⟨d, hmem, happends⟩⟩

/-! ## Facts -/

/-- Of the facts of a node exactly one is of a kind, and it has a value. -/
def Reports (s : Setting) (n : Node) (kind : String) (value : FactValue) : Prop :=
  ∃ found, n.ownFacts s = .ok found ∧ (found.filter (·.kind = kind)).map (·.value) = [value]

theorem Reports.unique {s : Setting} {n : Node} {kind : String} {v w : FactValue}
    (hv : n.Reports s kind v) (hw : n.Reports s kind w) : v = w := by
  obtain ⟨found, hfound, hv⟩ := hv
  obtain ⟨found', hfound', hw⟩ := hw
  obtain rfl : found = found' := Except.ok.inj (hfound.symm.trans hfound')
  exact List.singleton_injective (hv.symm.trans hw)

/-- What a node reports is among the facts that a visit of its module emits. -/
theorem Reports.exists_mem_facts {tree : Node} (hglobals : tree.GlobalsAreLeaves) {path : String}
    {isTest : Bool} {found : List Fact} (hfacts : tree.facts path isTest = .ok found)
    {place : List Node × Node} (hplace : place ∈ tree.places []) {kind : String} {value : FactValue}
    (h : place.2.Reports (.at path isTest place.1) kind value) :
    ∃ f ∈ found, f.kind = kind ∧ f.value = value := by
  obtain ⟨part, hpart, hvalues⟩ := h
  -- a visit emits the facts of all places, one after the other
  obtain ⟨parts, hparts, rfl⟩ := (facts_eq_ok_iff path isTest hglobals).mp hfacts
  obtain ⟨part', hmem, hpart'⟩ := exists_of_mem_forall₂ hparts.flip hplace
  obtain rfl : part = part' := Except.ok.inj (hpart.symm.trans hpart')
  obtain ⟨f, hf, hvalue⟩ := List.mem_map.mp (hvalues ▸ List.mem_singleton_self value)
  obtain ⟨hf, hkind⟩ := List.mem_filter.mp hf
  exact ⟨f, List.mem_flatten.mpr ⟨part, hmem, hf⟩, of_decide_eq_true hkind, hvalue⟩

/-- A function reports each of its measures once. -/
theorem reports_function (s : Setting) {f : Node} (h : f.label.isFunction = true) {kind : String}
    {value : FactValue}
    (hmeasure : (kind, value) ∈ [(Kind.functionComplexity, .int f.complexity),
      (Kind.loopDepth, .int f.loopDepth)]) :
    f.Reports s kind value := by
  obtain ⟨name, isAsync, hlabel⟩ : ∃ name isAsync, f.label = .functionDef name isAsync := by
    cases hlabel : f.label with
    | functionDef name isAsync => exact ⟨name, isAsync, rfl⟩
    | _ => rw [hlabel] at h; cases h
  refine ⟨f.functionFacts s name, by rw [ownFacts, hlabel], ?_⟩
  simp only [List.mem_cons, Prod.mk.injEq, List.not_mem_nil, or_false] at hmeasure
  unfold functionFacts
  dsimp only
  generalize f.countedParameters s.inClass ++ f.variadicParameters = parameters
  -- the facts about parameters have a kind of their own
  have hparameters :
      (parameters.map fun p => s.fact Kind.argumentName p (.text p.parameterName)
        (s.qualify name)).filter
      (·.kind = kind) = [] := by
    refine List.filter_eq_nil_iff.mpr (List.forall_mem_map.mpr fun p _ heq => ?_)
    have hkind : Kind.argumentName = kind := of_decide_eq_true heq
    rcases hmeasure with ⟨rfl, -⟩ | ⟨rfl, -⟩ <;> exact absurd hkind (by decide)
  rw [List.filter_append, List.filter_append, hparameters]
  rcases hmeasure with ⟨rfl, rfl⟩ | ⟨rfl, rfl⟩ <;> split <;> rfl

theorem reports_loop (s : Setting) {n : Node} (h : n.label.isLoop = true) :
    n.Reports s Kind.loopStringConcat (.bool n.concatenatesText) := by
  obtain ⟨role, label, a, b, ns⟩ := n
  cases label with
  | forLoop isAsync => exact ⟨_, rfl, rfl⟩
  | whileLoop => exact ⟨_, rfl, rfl⟩
  | _ => cases h

end Node

end Source

open Source (Node)
open Source.Node

/-- **The measures of functions and loops agree.** What nodes report are facts of a visit of their
module. The depth that a function reports is the length of its longest chain of loops. It is below
the complexity of the function, and no function inside is more complex. If a loop in the body of
another one is reported to build a text piece by piece, so is the outer one. -/
theorem function_metrics_consistent :
    (∀ (s : Setting) (f : Node), f.label.isFunction = true →
      ∃ complexity depth : ℕ, f.Reports s Kind.functionComplexity (.int complexity) ∧
        f.Reports s Kind.loopDepth (.int depth) ∧ depth < complexity ∧
        IsGreatest {k | ∃ chain, LoopChain (f.part .body) chain ∧ chain.length = k} depth ∧
        ∀ (s' : Setting), ∀ g ∈ f.walk, g.label.isFunction = true →
          ∃ inner : ℕ, g.Reports s' Kind.functionComplexity (.int inner) ∧ inner ≤ complexity) ∧
    (∀ (s s' : Setting) (outer inner : Node), outer.label.isLoop = true →
      inner.label.isLoop = true →
      (∃ stmt ∈ outer.part .body, inner ∈ stmt.walk) →
      inner.Reports s Kind.loopStringConcat (.bool true) →
      outer.Reports s' Kind.loopStringConcat (.bool true)) ∧
    ∀ (tree : Node) (path : String) (isTest : Bool) (found : List Fact), tree.GlobalsAreLeaves →
      tree.facts path isTest = .ok found →
      ∀ place ∈ tree.places [], ∀ kind value, place.2.Reports (.at path isTest place.1) kind value →
        ∃ f ∈ found, f.kind = kind ∧ f.value = value := by
  refine ⟨?_, ?_, fun tree path isTest found hglobals hfacts place hplace kind value h =>
    h.exists_mem_facts hglobals hfacts hplace⟩
  · intro s f hf
    refine ⟨f.complexity, f.loopDepth, reports_function s hf (by simp),
      reports_function s hf (by simp), f.loopDepth_lt_complexity,
      f.isGreatest_loopDepth, fun s' g hg hfunction => ?_⟩
    exact ⟨g.complexity, reports_function s' hfunction (by simp), complexity_le_of_mem_walk hg⟩
  · rintro s s' outer inner houter hinner ⟨stmt, hstmt, hwalk⟩ hreports
    -- a loop has one fact of this kind, so its value is that of the report
    have hconcat : inner.concatenatesText = true :=
      FactValue.bool.inj ((reports_loop s hinner).unique hreports)
    rw [← concatenatesText_of_inner hstmt hwalk hconcat]
    exact reports_loop s' houter

/-- A loop that adds a text to a variable. -/
def appendingLoop : Node :=
  .mk .body (.forLoop false) 3 4
    [.mk .target (.name "i") 3 3 [], .mk .iterable (.name "items") 3 3 [],
     .mk .body (.augAssign .add) 4 4 [.mk .target (.name "s") 4 4 [],
       .mk .value (.constant (.text "x" false)) 4 4 []]]

/-- A loop around it. -/
def outerLoop : Node :=
  .mk .body .whileLoop 2 4 [.mk .condition (.name "more") 2 2 [], appendingLoop]

/-- A function with both loops, and with a function inside that has one loop of its own. -/
def loopingFunction : Node :=
  .mk .body (.functionDef "f" false) 1 7
    [.mk .arguments (.parameters []) 1 1 [], outerLoop,
     .mk .body (.functionDef "g" false) 5 7
       [.mk .arguments (.parameters []) 5 5 [],
        .mk .body .whileLoop 6 7 [.mk .condition (.name "more") 6 6 [],
          .mk .body .passStmt 7 7 []]]]

/-- The loop of the inner function counts for the complexity and not for the depth. -/
theorem function_metrics_consistent_nested :
    (∃ complexity depth : ℕ,
      loopingFunction.Reports ⟨"a.py", false, []⟩ Kind.functionComplexity (.int complexity) ∧
      complexity = 4 ∧
      loopingFunction.Reports ⟨"a.py", false, []⟩ Kind.loopDepth (.int depth) ∧ depth = 2 ∧
      ∀ chain, LoopChain (loopingFunction.part .body) chain → chain.length ≤ 2) ∧
    outerLoop.Reports ⟨"a.py", false, []⟩ Kind.loopStringConcat (.bool true) ∧
    ∃ found, loopingFunction.facts "a.py" false = .ok found ∧
      ∃ f ∈ found, f.kind = Kind.loopDepth ∧ f.value = .int 2 := by
  obtain ⟨hfunctions, hloops, hfacts⟩ := function_metrics_consistent
  obtain ⟨complexity, depth, hcomplexity, hdepth, -, ⟨-, hlongest⟩, -⟩ :=
    hfunctions ⟨"a.py", false, []⟩ loopingFunction rfl
  have hfour : (complexity : Int) = 4 := FactValue.int.inj (hcomplexity.unique ⟨_, rfl, by decide⟩)
  have htwo : (depth : Int) = 2 := FactValue.int.inj (hdepth.unique ⟨_, rfl, by decide⟩)
  refine ⟨⟨complexity, depth, hcomplexity, by omega, hdepth, by omega, fun chain hchain => ?_⟩,
    ?_, ?_⟩
  · have hle : chain.length ≤ depth := hlongest ⟨chain, hchain, rfl⟩
    omega
  · refine hloops ⟨"a.py", false, []⟩ _ outerLoop appendingLoop rfl rfl
      ⟨appendingLoop, ?_, self_mem_walk _⟩ ⟨_, rfl, by decide⟩
    exact List.mem_singleton_self appendingLoop
  · have hglobals : loopingFunction.GlobalsAreLeaves := by
      simp [GlobalsAreLeaves, loopingFunction, outerLoop, appendingLoop, walk, walkAll, label,
        children]
    obtain ⟨found, hfound⟩ : ∃ found, loopingFunction.facts "a.py" false = .ok found := ⟨_, rfl⟩
    refine ⟨found, hfound, hfacts loopingFunction "a.py" false found hglobals hfound
      ([], loopingFunction) ?_ _ _ ⟨_, rfl, by decide⟩⟩
    exact List.mem_cons_self

end Scorecard
