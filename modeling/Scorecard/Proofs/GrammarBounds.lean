import Scorecard.Proofs.ExpressionBounds
import Scorecard.Source.Grammar.Statement

set_option autoImplicit false

/-! # How large a syntax tree is

The rules for patterns and statements build at most as much as they take tokens for, as those for
expressions do (`Proofs/ExpressionBounds.lean`). So the tree of a module has at most eight nodes for
each character of its text, and lies on the lines of the text (`parse_bounds`).
-/

namespace Scorecard.Source.Grammar

open Reader
open Node (Costs AllCost)

variable {bottom : Nat}

/-! ## Patterns -/

/-- A reader of patterns, each of which leaves one over. -/
abbrev ReadsPattern (bottom : Nat) (r : Reader Node) : Prop := Yields bottom r (Costs bottom 1)

theorem ReadsExpression.pattern {r : Reader Node} (h : ReadsExpression bottom r) :
    ReadsPattern bottom r :=
  h.mono fun _ _ hn => hn.mono (by omega)

/-- An expression alone in a node leaves five over. -/
theorem yields_wrapped {start k : Nat} {label : Label} {role : Role} {value : Node}
    {Q : Nat → Node → Prop} (hlabel : label.mayBranch = true) (hstart : start ≤ bottom)
    (hvalue : value.Costs bottom 6 k) (hpost : ∀ n : Node, n.Costs bottom 5 k → Q 0 n) :
    Yields bottom (node label start [value.as role]) Q := by
  refine yields_node_of_size hlabel hstart (hvalue.child role .nil).fits fun n hfits hsize => ?_
  refine hpost n ⟨hfits, ?_⟩
  have hle := hvalue.size_le
  rw [hsize, Node.sizeAll_cons, Node.size_as, Node.sizeAll_nil]
  omega

theorem readsExpression_signedNumber {isKind : Constant → Bool} :
    ReadsExpression bottom (signedNumber isKind) := by
  refine yields_line_bind fun start hstart => yields_anyway fun p negative => ?_
  refine yields_line_bind fun inner hinner => yields_next.bind fun k found hk => ?_
  split
  · have hk : k = 8 := hk
    split
    · refine yields_node_bind rfl hinner .nil fun n hn => ?_
      split
      · exact yields_node rfl hstart (hn.child _ .nil) fun n hn => hn.mono (by omega)
      · exact yields_pure (hn.mono (by omega))
    · exact yields_failure
  · exact yields_failure

theorem readsExpression_complexNumber : ReadsExpression bottom complexNumber := by
  have hop : Yields bottom signOp fun k _ => k = 8 := by
    refine yields_next.bind fun k found hk => ?_
    split
    · exact yields_pure hk
    · exact yields_pure hk
    · exact yields_failure
  refine yields_line_bind fun start hstart =>
    readsExpression_signedNumber.bind fun k first hfirst => hop.bind fun p op hp => ?_
  refine yields_line_bind fun inner hinner => yields_next.bind fun q found hq => ?_
  split
  · have hq : q = 8 := hq
    split
    · refine yields_node_bind rfl hinner .nil fun second hsecond => ?_
      exact yields_node rfl hstart (hfirst.child _ (hsecond.child _ .nil)) fun n hn =>
        hn.mono (by omega)
    · exact yields_failure
  · exact yields_failure

theorem yields_captureTarget : Yields bottom captureTarget fun k _ => k = 8 := by
  refine yields_identifier.bind fun k name hk => ?_
  split
  · exact yields_failure
  · refine yields_peek_bind fun kind => ?_
    split
    · exact yields_failure _
    · exact yields_failure _
    · exact yields_failure _
    · exact yieldsAt_pure hk

theorem readsExpression_dottedValue : ReadsExpression bottom dottedValue := by
  refine yields_line_bind fun start hstart => yields_identifier.bind fun k name hk => ?_
  refine yields_node_bind rfl hstart .nil fun first hfirst => ?_
  refine yields_iterate (P := fun m n => Costs bottom 6 (k + m) n)
    (hfirst.mono (by omega)) fun m value hvalue => ?_
  refine yields_symbol_bind (yields_identifier.bind fun p name hp => ?_)
  exact yields_node rfl hstart (hvalue.child _ .nil) fun n hn => hn.mono (by omega)

theorem readsExpression_starPattern : ReadsExpression bottom starPattern := by
  refine yields_line_bind fun start hstart => yields_symbol_bind (yields_peek_bind fun kind => ?_)
  split
  · exact (yieldsAt_leaf rfl hstart).mono fun k n hn => hn.mono (by omega)
  · refine (yields_captureTarget.bind fun k name hk => ?_) _
    exact yields_leaf hstart fun n hn => hn.mono (by omega)

theorem yields_lastComma_bind {β : Type} {isEmpty : Bool} {r : Reader β} {Q : Nat → β → Prop}
    (h : ∀ k, Yields bottom r fun m b => Q (k + m) b) :
    Yields bottom (lastComma isEmpty >>= fun _ => r) Q := by
  have hcomma : Yields bottom (lastComma isEmpty) fun _ _ => True := by
    unfold lastComma
    split
    · exact yields_pure trivial
    · have haccept :
          Yields bottom (discard (acceptSymbol ",") >>= fun _ => pure ()) fun _ _ => True :=
        yields_discard_anyway fun _ => yields_pure trivial
      simpa using haccept
  exact hcomma.bind fun k _ _ => h k

/-- The keys and patterns of some entries cost at most `k`. -/
def EntriesCost (bottom k : Nat) (items : List (Node × Node)) : Prop :=
  AllCost bottom 0 k (items.map (·.1.as .key) ++ items.map (·.2.as .pattern))

theorem entriesCost_cons {k m : Nat} {item : Node × Node} {items : List (Node × Node)}
    (h : AllCost bottom 0 k [item.1, item.2]) (hs : EntriesCost bottom m items) :
    EntriesCost bottom (k + m) (item :: items) := by
  have hitem : AllCost bottom 0 k [item.1.as .key, item.2.as .pattern] :=
    ⟨by simpa using h.fits, by simpa using h.size_le⟩
  refine (hitem.append hs).perm ?_
  simp only [List.map_cons, List.cons_append, List.nil_append]
  exact List.perm_middle.symm.cons _

section Patterns

variable {g : Grammar} (hg : g.Bounded bottom)

include hg

theorem readsPattern_maybeStarPattern : ReadsPattern bottom (maybeStarPattern g) :=
  (isQuestion_atSymbol _).ite (readsExpression_starPattern.pattern) hg.pattern

theorem yields_classItem : Yields bottom (classItem g) fun k item => item.2.Costs bottom 1 k := by
  refine yields_peek_bind fun kind => yieldsAt_peek_bind fun after => ?_
  split
  · refine yieldsAt_take_bind rfl (yields_discard_next fun p => hg.pattern.bind fun k n hn =>
      yields_pure ?_)
    exact hn.mono (by omega)
  · refine hg.pattern.bind (fun k n hn => yields_pure ?_) _
    exact hn

theorem yields_sequenceItems : Yields bottom (sequenceItems g) (AllCost bottom 0) :=
  (readsPattern_maybeStarPattern hg).separatedNodes.bind fun k items hitems =>
    yields_discard_anyway fun p => yields_pure ((hitems.1.children _).mono (by omega))

theorem yields_classPattern {start k : Nat} {cls : Node} (hstart : start ≤ bottom)
    (hcls : cls.Costs bottom 6 k) :
    Yields bottom (classPattern g start cls) fun m n => n.Costs bottom 1 (k + m) := by
  have hitems : Yields bottom (Reader.optional (separated "," (classItem g)))
      fun k items => AllCost bottom 1 k ((items.getD []).map (·.2)) :=
    (((yields_classItem hg).separated (Q := fun k items => AllCost bottom 1 k (items.map (·.2)))
      (fun _ _ h => h.mono (by omega)) .nil fun _ _ _ _ => .cons).mono fun _ _ =>
        And.left).optional .nil
  refine yields_symbol_bind (hitems.bind fun m found hfound => yields_lastComma_bind fun p =>
    yields_symbol_bind ?_)
  dsimp only
  split
  · exact yields_failure
  · have hall : AllCost bottom 1 m (((found.getD []).takeWhile (·.1.isNone)).map (·.2) ++
        ((found.getD []).dropWhile (·.1.isNone)).map (·.2)) := by
      rwa [← List.map_append, List.takeWhile_append_dropWhile]
    have hparts := hall.roles .pattern .keywordPattern
    rw [List.map_map, List.map_map] at hparts
    exact yields_node rfl hstart (hcls.child _ hparts) fun n hn => hn.mono (by omega)

theorem yields_moreItems :
    Yields bottom (Reader.optional (sequenceItems g)) fun k items => AllCost bottom 0 k
    (items.getD []) :=
  (yields_sequenceItems hg).optional .nil

theorem readsPattern_namePattern : ReadsPattern bottom (namePattern g) := by
  refine yields_line_bind fun start hstart => yields_peek_bind fun kind =>
    yieldsAt_peek_bind fun after => ?_
  have hvalue : ReadsPattern bottom (do
      let value ← dottedValue
      if ← atSymbol "(" then classPattern g start value
      else if ← atSymbol "=" then failure
      else node .matchValue start [value.as .value]) := by
    refine readsExpression_dottedValue.bind fun k value hvalue => (isQuestion_atSymbol _).ite ?_ ?_
    · exact yields_classPattern hg hstart hvalue
    · refine (isQuestion_atSymbol _).ite yields_failure ?_
      exact yields_wrapped rfl hstart hvalue fun n hn => hn.mono (by omega)
  split
  · exact (yieldsAt_leaf rfl hstart).mono fun k n hn => hn.mono (by omega)
  · exact hvalue _
  · exact hvalue _
  · refine (yields_captureTarget.bind fun k name hk => ?_) _
    exact yields_leaf hstart fun n hn => hn.mono (by omega)

theorem readsPattern_groupPattern : ReadsPattern bottom (groupPattern g) := by
  refine yields_line_bind fun start hstart => yields_symbol_bind (yields_acceptSymbol_ite ?_ ?_)
  · exact yields_leaf hstart fun n hn => hn.mono (by omega)
  · refine (readsPattern_maybeStarPattern hg).bind fun k first hfirst =>
      yields_acceptSymbol_ite ?_ ?_
    · refine (yields_moreItems hg).bind fun m more hmore => yields_symbol_bind ?_
      exact yields_node rfl hstart (hfirst.child _ hmore) fun n hn => hn.mono (by omega)
    · refine yields_symbol_bind ?_
      split
      · exact yields_failure
      · exact yields_pure (hfirst.mono (by omega))

theorem readsPattern_bracketPattern : ReadsPattern bottom (bracketPattern g) := by
  refine yields_line_bind fun start hstart => yields_symbol_bind
    ((yields_moreItems hg).bind fun k items hitems => yields_symbol_bind ?_)
  exact yields_node rfl hstart hitems fun n hn => hn.mono (by omega)

theorem readsPattern_topPattern : ReadsPattern bottom (topPattern g) := by
  refine yields_line_bind fun start hstart =>
    (readsPattern_maybeStarPattern hg).bind fun k first hfirst => yields_acceptSymbol_ite ?_ ?_
  · refine (yields_moreItems hg).bind fun m more hmore => ?_
    exact yields_node rfl hstart (hfirst.child _ hmore) fun n hn => hn.mono (by omega)
  · split
    · exact yields_failure
    · exact yields_pure hfirst

variable [Text.CharacterNames]

theorem readsExpression_literalExpr : ReadsExpression bottom (literalExpr g) := by
  refine yields_line_bind fun start hstart => yields_peek_bind fun kind => ?_
  split
  · exact (readsExpression_complexNumber.orElse readsExpression_signedNumber) _
  · exact (readsExpression_complexNumber.orElse readsExpression_signedNumber) _
  · exact readsExpression_literal (readsField_fieldNode hg) _
  · exact yieldsAt_leaf rfl hstart
  · exact yieldsAt_leaf rfl hstart
  · exact yieldsAt_leaf rfl hstart
  · exact yields_failure _

theorem readsExpression_mappingKey : ReadsExpression bottom (mappingKey g) := by
  refine (readsExpression_literalExpr hg).orElse (readsExpression_dottedValue.bind fun k n hn => ?_)
  split
  · exact yields_pure hn
  · exact yields_failure

theorem readsPattern_mappingPattern : ReadsPattern bottom (mappingPattern g) := by
  have hentry : Yields bottom (mappingEntry g) fun k item => AllCost bottom 0 k [item.1, item.2] :=
    (readsExpression_mappingKey hg).bind fun k key hkey => yields_symbol_bind <|
      hg.pattern.bind fun m pattern hpattern => yields_pure
        ((hkey.alone.append hpattern.alone).mono (by omega))
  have hentries :
      Yields bottom (Reader.optional (separated "," (mappingEntry g))) fun k items =>
        EntriesCost bottom k (items.getD []) :=
    ((hentry.separated (fun _ _ h => h.mono (by omega)) .nil fun _ _ _ _ => entriesCost_cons).mono
      fun _ _ => And.left).optional .nil
  have hrest : ∀ {isFirst : Bool}, Yields bottom (Reader.optional (mappingRest isFirst)) fun _ _ =>
      True := by
    intro isFirst
    refine Yields.optional ?_ trivial
    unfold mappingRest
    split
    · exact yields_symbol_bind (yields_captureTarget.mono fun _ _ _ => trivial)
    · exact yields_symbol_bind (yields_symbol_bind (yields_captureTarget.mono fun _ _ _ => trivial))
  refine yields_line_bind fun start hstart => yields_symbol_bind
    (hentries.bind fun k items hitems => ?_)
  refine hrest.bind fun m name _ => yields_lastComma_bind fun p => yields_symbol_bind ?_
  exact yields_node rfl hstart hitems fun n hn => hn.mono (by omega)

theorem readsPattern_closedPattern : ReadsPattern bottom (closedPattern g) := by
  refine yields_line_bind fun start hstart => yields_peek_bind fun kind => ?_
  split
  · exact readsPattern_namePattern hg _
  · exact readsPattern_groupPattern hg _
  · exact readsPattern_bracketPattern hg _
  · exact readsPattern_mappingPattern hg _
  · refine ((readsExpression_literalExpr hg).bind fun k n hn => ?_) _
    split
    · have hsize := hn.size_le
      exact yields_leaf hstart fun n hn => hn.mono (by omega)
    · exact yields_failure
  · refine ((readsExpression_literalExpr hg).bind fun k value hvalue => ?_) _
    exact yields_wrapped rfl hstart hvalue fun n hn => hn.mono (by omega)

theorem readsPattern_alternatives : ReadsPattern bottom (alternatives g) := by
  refine yields_line_bind fun start hstart =>
    (readsPattern_closedPattern hg).separatedNodes.bind fun k options hoptions => ?_
  obtain ⟨hoptions, hne⟩ := hoptions
  split
  · exact yields_pure hoptions.head
  · rename_i hsingle
    exact yields_group rfl hstart hoptions (le_refl _) (two_le_length hne hsingle) fun n hn => hn

theorem readsPattern_patternRule : ReadsPattern bottom (patternRule g) := by
  have hname : Yields bottom (Reader.optional (do keyword "as"; captureTarget)) fun k name =>
      name.isSome → 8 ≤ k :=
    Yields.optional (yields_keyword_bind (yields_captureTarget.mono fun k _ _ _ =>
      Nat.le_add_right 8 k)) nofun
  refine yields_line_bind fun start hstart =>
    (readsPattern_alternatives hg).bind fun k value hvalue => hname.bind fun m name hm => ?_
  split
  · have hm := hm rfl
    exact yields_node rfl hstart (hvalue.child _ .nil) fun n hn => hn.mono (by omega)
  · exact yields_pure (hvalue.mono (by omega))

end Patterns

/-! ## Simple statements -/

/-- A reader of statements, which leave nothing over. -/
abbrev ReadsStatement (bottom : Nat) (r : Reader Node) : Prop := Yields bottom r (Costs bottom 0)

/-- A reader that is free to take tokens for a result without nodes. -/
abbrev ReadsText {α : Type} (bottom : Nat) (r : Reader α) : Prop := Yields bottom r fun _ _ => True

theorem readsText_identifier : ReadsText bottom identifier :=
  yields_identifier.mono fun _ _ _ => trivial

theorem readsText_separated {α : Type} {separator : String} {r : Reader α}
    (h : ReadsText bottom r) : ReadsText bottom (separated separator r) :=
  (h.separated (Q := fun _ _ => True) (fun _ _ _ => trivial) trivial fun _ _ _ _ _ _ =>
    trivial).mono fun _ _ _ => trivial

theorem yields_dottedName : Yields bottom dottedName fun k _ => 8 ≤ k := by
  have hnames : Yields bottom (separated "." identifier) fun k names => 8 * names.length ≤ k ∧
      names ≠ [] := by
    refine (yields_identifier.mono fun k _ hk => Nat.le_of_eq hk.symm).separated
      (fun k _ hk => by omega) (le_refl _) fun k m name names hk hm => ?_
    rw [List.length_cons]
    omega
  refine hnames.bind fun k names hnames => yields_pure ?_
  have hlength := List.length_pos_iff.mpr hnames.2
  omega

theorem readsText_asName : ReadsText bottom asName :=
  yields_accept_bind rfl (readsText_identifier.map fun _ _ _ => trivial) (yields_pure trivial)

theorem readsStatement_importAlias {name : Reader String}
    (hname : Yields bottom name fun k _ => 8 ≤ k) : ReadsStatement bottom (importAlias name) := by
  refine yields_line_bind fun start hstart => hname.bind fun k id hk =>
    readsText_asName.bind fun m other _ => ?_
  exact yields_leaf hstart fun n hn => hn.mono (by omega)

theorem readsStatement_importRule : ReadsStatement bottom importRule := by
  refine yields_line_bind fun start hstart => yields_keyword_bind ?_
  refine (readsStatement_importAlias yields_dottedName).separatedNodes.bind fun k names hnames => ?_
  exact yields_node rfl hstart (hnames.1.children _) fun n hn => hn.mono (by omega)

theorem yields_importTargets : Yields bottom importTargets (AllCost bottom 0) := by
  have halias : ReadsStatement bottom (importAlias identifier) :=
    readsStatement_importAlias (yields_identifier.mono fun _ _ hk => Nat.le_of_eq hk.symm)
  refine (isQuestion_atSymbol _).ite ?_ (yields_acceptSymbol_ite ?_ ?_)
  · refine yields_line_bind fun start hstart => yields_symbol_bind
      (yields_node_bind rfl hstart .nil fun n hn => yields_pure ?_)
    exact hn.single.mono (by omega)
  · refine halias.separatedNodes.bind fun k names hnames => yields_discard_anyway fun p =>
      yields_symbol_bind (yields_pure ?_)
    exact hnames.1.mono (by omega)
  · refine halias.separatedNodes.bind fun k names hnames =>
      (isQuestion_atSymbol _).ite yields_failure (yields_pure ?_)
    exact hnames.1

theorem readsStatement_importFromRule : ReadsStatement bottom importFromRule := by
  have hdots : ReadsText bottom (many (do
      if ← acceptSymbol "." then return 1
      else
        symbol "..."
        return 3)) :=
    (yields_acceptSymbol_ite (Q := fun _ _ => True) (yields_pure trivial)
      (yields_symbol_bind (yields_pure trivial))).many trivial
      fun _ _ _ _ _ _ => trivial
  have hsource : ∀ {level : Nat}, ReadsText bottom (sourceName level) := by
    intro level
    unfold sourceName
    split
    · exact yields_dottedName.map fun _ _ _ => trivial
    · exact Yields.optional (yields_dottedName.mono fun _ _ _ => trivial) trivial
  refine yields_line_bind fun start hstart => yields_keyword_bind
    (hdots.bind fun k dots _ => hsource.bind fun m source _ => ?_)
  refine yields_keyword_bind (yields_importTargets.bind fun p names hnames => ?_)
  exact yields_node rfl hstart (hnames.children _) fun n hn => hn.mono (by omega)

theorem readsStatement_bareRule {word : String} {label : Label} :
    ReadsStatement bottom (bareRule word label) :=
  yields_line_bind fun start hstart => yields_keyword_bind <|
    yields_leaf hstart fun n hn => hn.mono (by omega)

theorem readsStatement_namesRule {word : String} {label : List String → Label} :
    ReadsStatement bottom (namesRule word label) :=
  yields_line_bind fun start hstart => yields_keyword_bind <|
    (readsText_separated readsText_identifier).bind fun k names _ =>
    yields_leaf hstart fun n hn => hn.mono (by omega)

section Statements

variable {g : Grammar} (hg : g.Bounded bottom)

include hg

theorem yields_assignChain {k : Nat} {targets : List Node} (h : AllCost bottom 0 k targets) :
    Yields bottom (assignChain g targets) fun m found => AllCost bottom 0 (k + m) found := by
  refine yields_iterate h fun m found hfound => ?_
  split
  · refine yields_symbol_bind ?_
    split
    · refine (readsExpression_assigned hg).bind fun p value hvalue => yields_pure ?_
      exact (hfound.append hvalue.alone).mono (by omega)
    · exact yields_failure
  · exact yields_failure

theorem yields_annotated {start k : Nat} {target : Node} (hstart : start ≤ bottom)
    (htarget : target.Costs bottom 6 k) :
    Yields bottom (annotated g start target) fun m n => n.Costs bottom 0 (k + m) := by
  unfold annotated
  split
  · refine yields_symbol_bind (hg.expression.bind fun m note hnote => ?_)
    refine (readsExpression_assigned hg).followingNodes.bind fun p value hvalue => ?_
    exact yields_node rfl hstart (htarget.child _ (hnote.child _ (hvalue.children _))) fun n hn =>
      hn.mono (by omega)
  · exact yields_failure

theorem readsStatement_raiseRule : ReadsStatement bottom (raiseRule g) := by
  refine yields_line_bind fun start hstart => yields_keyword_bind
    (hg.expression.optionalNodes.bind fun k exception hexception => ?_)
  split
  · exact yields_leaf hstart fun n hn => hn.mono (by omega)
  · refine hg.expression.followingNodes.bind fun m cause hcause => ?_
    exact yields_node rfl hstart (hexception.head.child _ (hcause.children _)) fun n hn =>
      hn.mono (by omega)

theorem readsStatement_assertRule : ReadsStatement bottom (assertRule g) := by
  refine yields_line_bind fun start hstart => yields_keyword_bind
    (hg.expression.bind fun k test htest => ?_)
  refine hg.expression.followingNodes.bind fun m message hmessage => ?_
  exact yields_node rfl hstart (htest.child _ (hmessage.children _)) fun n hn => hn.mono (by omega)

theorem readsStatement_returnRule : ReadsStatement bottom (returnRule g) := by
  refine yields_line_bind fun start hstart => yields_keyword_bind
    ((readsExpression_starExpressions hg).optionalNodes.bind fun k value hvalue => ?_)
  exact yields_node rfl hstart (hvalue.children _) fun n hn => hn.mono (by omega)

theorem readsStatement_yieldRule : ReadsStatement bottom (yieldRule g) :=
  yields_line_bind fun start hstart => (readsExpression_yieldExpression hg).bind
    fun k value hvalue =>
    yields_wrapped rfl hstart hvalue fun n hn => hn.mono (by omega)

theorem readsStatement_expressionStatement : ReadsStatement bottom (expressionStatement g) := by
  refine yields_line_bind fun start hstart =>
    (readsExpression_starExpressions hg).bind fun k first hfirst => yields_peek_bind fun kind => ?_
  have halone : Yields bottom (node .exprStmt start [first.as .value]) fun m n =>
      n.Costs bottom 0 (k + m) :=
    yields_wrapped rfl hstart hfirst fun n hn => hn.mono (by omega)
  split
  · exact yields_annotated hg hstart hfirst _
  · -- what the first expression leaves over pays for the statement
    have hsize := hfirst.size_le
    have htargets : AllCost bottom 0 (k - 6) [first] := Costs.single ⟨hfirst.fits, by omega⟩
    refine ((yields_assignChain hg htargets).bind fun m chain hchain =>
      (isQuestion_atSymbol _).ite yields_failure ?_) _
    split
    · rename_i value hvalue
      rw [← List.dropLast_append_getLast? value hvalue] at hchain
      exact yields_node rfl hstart (hchain.roles .target .value) fun n hn => hn.mono (by omega)
    · exact yields_failure
  · split
    · split
      · refine yieldsAt_take_bind rfl ((readsExpression_assigned hg).bind fun m value hvalue => ?_)
        exact yields_node rfl hstart (hfirst.child _ (hvalue.child _ .nil)) fun n hn =>
          hn.mono (by omega)
      · exact yields_failure _
    · exact halone _
  · exact halone _

variable [Text.CharacterNames]

theorem readsStatement_deleteRule : ReadsStatement bottom (deleteRule g) := by
  have htarget : ReadsExpression bottom (deleteTarget g) := by
    refine (readsExpression_primaryRule hg).bind fun k n hn => ?_
    split
    · exact yields_pure hn
    · exact yields_failure
  refine yields_line_bind fun start hstart => yields_keyword_bind
    (htarget.separatedNodes.bind fun k targets htargets => ?_)
  have hnode : ∀ p, Yields bottom (node .deleteStmt start (targets.map (·.as .target))) fun m n =>
      n.Costs bottom 0 (8 + (k + (p + m))) :=
    fun p => yields_node rfl hstart (htargets.1.children _) fun n hn => hn.mono (by omega)
  refine yields_discard_anyway fun p => yields_peek_bind fun kind => ?_
  split
  · exact hnode p _
  · exact hnode p _
  · exact yields_failure _

theorem readsStatement_simpleStatement : ReadsStatement bottom (simpleStatement g) := by
  refine yields_peek_bind fun kind => ?_
  split
  · exact readsStatement_returnRule hg _
  · exact readsStatement_importRule _
  · exact readsStatement_importFromRule _
  · exact readsStatement_raiseRule hg _
  · exact readsStatement_bareRule _
  · exact readsStatement_deleteRule hg _
  · exact readsStatement_yieldRule hg _
  · exact readsStatement_assertRule hg _
  · exact readsStatement_bareRule _
  · exact readsStatement_bareRule _
  · exact readsStatement_namesRule _
  · exact readsStatement_namesRule _
  · exact readsStatement_expressionStatement hg _

theorem yields_simpleStatements : Yields bottom (simpleStatements g) (AllCost bottom 0) :=
  (readsStatement_simpleStatement hg).separatedNodes.bind fun k found hfound =>
    yields_discard_anyway fun p => yields_expect_bind rfl (yields_pure (hfound.1.mono (by omega)))

end Statements

/-! ## Compound statements -/

/-- The bases of a class and its keywords are apart from each other. -/
theorem bases_allCost {k : Nat} {found : List Node} (h : AllCost bottom 0 k found) :
    AllCost bottom 0 k
      ((found.filter (·.role = .argument)).map (·.as .base) ++
      found.filter (·.role = .keyword)) := by
  have hsub :
      (found.filter (·.role = .keyword)).Sublist
        (found.filter fun n => !decide (n.role = .argument)) := by
    refine List.monotone_filter_right found fun n hn => ?_
    have hrole : n.role = .keyword := of_decide_eq_true hn
    simp [hrole]
  have hparts :=
    h.perm (List.filter_append_perm (fun n : Node => decide (n.role = .argument)) found).symm
  have hapart := hparts.sublist (hsub.append_left _)
  refine ⟨?_, ?_⟩
  · have hfits := hapart.fits
    simp only [List.forall_mem_append, List.forall_mem_map, Node.fits_as_iff] at hfits ⊢
    exact hfits
  · have hsize := hapart.size_le
    simp only [Node.sizeAll_append, Node.sizeAll_map_as, Nat.zero_mul, Nat.add_zero] at hsize ⊢
    exact hsize

section Compound

variable {g : Grammar} (hg : g.Bounded bottom)

include hg

theorem readsStatement_withItem : ReadsStatement bottom (withItem g) := by
  refine yields_line_bind fun start hstart => hg.expression.bind fun k context hcontext => ?_
  have hoptional : ∀ {r : Reader Node}, ReadsExpression bottom r →
      Yields bottom (Reader.optional r) fun m n => AllCost bottom 6 m n.toList :=
    fun h => h.optionalNodes
  refine (hoptional ?binding).bind fun m binding hbinding => ?item
  case binding =>
    refine yields_keyword_bind ((readsExpression_starTarget hg).bind fun k target htarget =>
      yields_peek_bind fun kind => ?_)
    have htarget : target.Costs bottom 6 (8 + (k + 0)) := htarget.mono (by omega)
    split
    · exact yieldsAt_pure htarget
    · exact yieldsAt_pure htarget
    · exact yieldsAt_pure htarget
    · exact yields_failure _
  case item =>
    -- what the expression leaves over pays for the item
    have hsize := hcontext.size_le
    have hcheap : context.Costs bottom 0 (k - 6) := ⟨hcontext.fits, by omega⟩
    exact yields_node rfl hstart (hcheap.child _ (hbinding.children _)) fun n hn =>
      hn.mono (by omega)

theorem yields_classArguments : Yields bottom (classArguments g) (AllCost bottom 0) := by
  refine yields_acceptSymbol_ite ((yields_arguments hg).bind fun k found hfound =>
    yields_symbol_bind (yields_pure ?_)) (yields_pure .nil)
  exact hfound.mono (by omega)

theorem yields_decorators : Yields bottom (many (decorator g)) (AllCost bottom 0) := by
  have hdecorator : ReadsStatement bottom (decorator g) :=
    yields_symbol_bind <| (readsExpression_namedExpression hg).bind fun k n hn =>
      yields_expect_bind rfl (yields_pure ((hn.as _).mono (by omega)))
  exact hdecorator.manyNodes

theorem readsExpression_subjectRule : ReadsExpression bottom (subjectRule g) := by
  have hmore : Yields bottom (Reader.optional (separated "," (starNamedExpression g))) fun k more =>
      AllCost bottom 6 k (more.getD []) :=
    ((readsExpression_starNamedExpression hg).separatedNodes.mono fun _ _ => And.left).optional .nil
  refine yields_line_bind fun start hstart =>
    (readsExpression_starNamedExpression hg).bind fun k first hfirst =>
      yields_acceptSymbol_ite ?_ ?_
  · refine hmore.bind fun m more hmore => yields_lastComma_bind fun p => ?_
    exact yields_node rfl hstart ((hmore.cons hfirst).children _) fun n hn => hn.mono (by omega)
  · split
    · exact yields_failure
    · exact yields_pure hfirst

theorem yields_withItems : Yields bottom (withItems g) (AllCost bottom 0) := by
  refine Yields.orElse ?_ ((readsStatement_withItem hg).separatedNodes.mono fun _ _ => And.left)
  refine yields_symbol_bind
    ((readsStatement_withItem hg).separatedNodes.bind fun k items hitems => ?_)
  refine yields_discard_anyway fun p => yields_symbol_bind
    ((isQuestion_atSymbol _).ite (yields_pure ?_) yields_failure)
  exact hitems.1.mono (by omega)

variable [Text.CharacterNames]

theorem yields_block : Yields bottom (block g) (AllCost bottom 0) := by
  have hlines : Yields bottom (many1 g.statement) fun k found => AllCost bottom 0 k found.flatten :=
    (hg.statement.many1 (Q := fun k found => AllCost bottom 0 k found.flatten) .nil fun _ _ _ _ =>
      .append).mono fun _ _ => And.left
  refine yields_peek_bind fun kind => ?_
  split
  · refine yields_expect_bind rfl
      (yields_expect_bind rfl (hlines.bind fun k found hfound => yields_expect_bind rfl ?_)) _
    exact yields_pure (hfound.mono (by omega))
  · exact yields_simpleStatements hg _

/-- The colon before a block is left over. -/
theorem yields_suite (role : Role) :
    Yields bottom (suite g role) fun k ns => ∃ m, AllCost bottom 0 m ns ∧ m + 8 ≤ k :=
  yields_symbol_bind <| (yields_block hg).bind fun k found hfound =>
    yields_pure ⟨k, hfound.children role, by omega⟩

theorem yields_elseSuite : Yields bottom (elseSuite g) (AllCost bottom 0) := by
  refine yields_acceptKeyword_ite ((yields_suite hg _).mono fun k ns h => ?_) (yields_pure .nil)
  obtain ⟨m, hns, hm⟩ := h
  exact hns.mono (by omega)

theorem readsStatement_ifBranches (word : String) (fuel : Nat) :
    ReadsStatement bottom (ifBranches g word fuel) := by
  induction fuel generalizing word with
  | zero => exact yields_failure
  | succ fuel ih =>
      have hrest : Yields bottom (ifRest g (ifBranches g "elif" fuel)) (AllCost bottom 0) := by
        refine (isQuestion_atKeyword _).ite ((ih "elif").bind fun k n hn => yields_pure ?_)
          (yields_elseSuite hg)
        exact (hn.as _).single
      refine yields_line_bind fun start hstart => yields_keyword_bind ?_
      refine (readsExpression_namedExpression hg).bind fun k test htest =>
        (yields_suite hg _).bind fun m body hbody => ?_
      obtain ⟨q, hbody, hq⟩ := hbody
      refine hrest.bind fun p other hother => ?_
      exact yields_node rfl hstart ((htest.child _ hbody).append hother) fun n hn =>
        hn.mono (by omega)

theorem readsStatement_ifRule : ReadsStatement bottom (ifRule g) :=
  yields_get_bind fun c _ => readsStatement_ifBranches hg "if" (c.tokens.length + 1)

theorem readsStatement_whileRule : ReadsStatement bottom (whileRule g) := by
  refine yields_line_bind fun start hstart => yields_keyword_bind ?_
  refine (readsExpression_namedExpression hg).bind fun k test htest =>
    (yields_suite hg _).bind fun m body hbody => ?_
  obtain ⟨q, hbody, hq⟩ := hbody
  refine (yields_elseSuite hg).bind fun p other hother => ?_
  exact yields_node rfl hstart ((htest.child _ hbody).append hother) fun n hn => hn.mono (by omega)

theorem readsStatement_forRule {start : Nat} {isAsync : Bool} (hstart : start ≤ bottom) :
    ReadsStatement bottom (forRule g start isAsync) := by
  refine yields_keyword_bind ((readsExpression_starTargets hg).bind fun k target htarget =>
    yields_keyword_bind ?_)
  refine (readsExpression_starExpressions hg).bind fun m iterable hiterable =>
    (yields_suite hg _).bind fun p body hbody => ?_
  obtain ⟨q, hbody, hq⟩ := hbody
  refine (yields_elseSuite hg).bind fun r other hother => ?_
  exact yields_node rfl hstart ((htarget.child _ (hiterable.child _ hbody)).append hother)
    fun n hn => hn.mono (by omega)

theorem readsStatement_withRule {start : Nat} {isAsync : Bool} (hstart : start ≤ bottom) :
    ReadsStatement bottom (withRule g start isAsync) := by
  refine yields_keyword_bind ((yields_withItems hg).bind fun k items hitems =>
    (yields_suite hg _).bind fun m body hbody => ?_)
  obtain ⟨q, hbody, hq⟩ := hbody
  exact yields_node rfl hstart ((hitems.children _).append hbody) fun n hn => hn.mono (by omega)

theorem yields_namedHandler {start : Nat} (hstart : start ≤ bottom) :
    ReadsStatement bottom (namedHandler g start) := by
  refine hg.expression.bind fun k kind hkind => readsText_asName.bind fun m name _ =>
    (yields_suite hg _).bind fun p body hbody => ?_
  obtain ⟨q, hbody, hq⟩ := hbody
  exact yields_node rfl hstart (hkind.child _ hbody) fun n hn => hn.mono (by omega)

theorem readsStatement_handlerRule (starred : Bool) :
    ReadsStatement bottom (handlerRule g starred) := by
  refine yields_line_bind fun start hstart => yields_keyword_bind ?_
  have hnamed : ∀ k, Yields bottom (namedHandler g start) fun m n => n.Costs bottom 0 (k + m) :=
    fun k => (yields_namedHandler hg hstart).mono fun m n hn => hn.mono (by omega)
  split
  · exact yields_symbol_bind ((yields_namedHandler hg hstart).mono fun m n hn => hn.mono (by omega))
  · refine (isQuestion_atSymbol _).ite ?_ (hnamed _)
    refine (yields_suite hg _).bind fun k body hbody => ?_
    obtain ⟨q, hbody, hq⟩ := hbody
    exact yields_node rfl hstart hbody fun n hn => hn.mono (by omega)

theorem yields_finallySuite : Yields bottom (finallySuite g) (AllCost bottom 0) := by
  refine yields_acceptKeyword_ite ((yields_suite hg _).mono fun k ns h => ?_) (yields_pure .nil)
  obtain ⟨m, hns, hm⟩ := h
  exact hns.mono (by omega)

theorem readsStatement_tryRule : ReadsStatement bottom (tryRule g) := by
  refine yields_line_bind fun start hstart => yields_keyword_bind
    ((yields_suite hg _).bind fun k body hbody => ?_)
  obtain ⟨q, hbody, hq⟩ := hbody
  refine (isQuestion_atKeyword _).ite ?_ ?_
  · refine (yields_finallySuite hg).bind fun m final hfinal => ?_
    exact yields_node rfl hstart (hbody.append hfinal) fun n hn => hn.mono (by omega)
  · refine fun kind => yieldsAt_peek_bind
      (fun found => Yields.bind ((readsStatement_handlerRule hg _).many1Nodes)
      (fun m handlers hhandlers => ?_) _)
    refine (yields_elseSuite hg).bind fun p other hother =>
      (yields_finallySuite hg).bind fun r final hfinal => ?_
    exact yields_node rfl hstart
      (((hbody.append (hhandlers.children _)).append hother).append hfinal) fun n hn =>
        hn.mono (by omega)

/-- The word before a function is left over. -/
theorem yields_functionRule {start : Nat} {isAsync : Bool} {decorators : List Node} {k : Nat}
    (hstart : start ≤ bottom) (hdecorators : AllCost bottom 0 k decorators) :
    Yields bottom (functionRule g decorators start isAsync) fun m n => n.Costs bottom 0 (k + m) ∧
      8 ≤ m := by
  refine yields_keyword_bind (yields_identifier.bind fun p name hp => yields_symbol_bind ?_)
  refine (yields_parameterList hg (readsExpression_starExpression hg)).bind
    fun m parameters hparameters => yields_symbol_bind ?_
  refine hg.expression.followingNodes.bind fun r returns hreturns =>
    (yields_suite hg _).bind fun t body hbody => ?_
  obtain ⟨q, hbody, hq⟩ := hbody
  exact yields_node rfl hstart (((hparameters.child _ hbody).append hdecorators).append
    (hreturns.children _)) fun n hn =>
    ⟨hn.mono (by omega), by omega⟩

theorem yields_classRule {decorators : List Node} {k : Nat}
    (hdecorators : AllCost bottom 0 k decorators) :
    Yields bottom (classRule g decorators) fun m n => n.Costs bottom 0 (k + m) ∧ 8 ≤ m := by
  refine yields_line_bind fun start hstart => yields_keyword_bind
    (yields_identifier.bind fun p name hp => ?_)
  refine (yields_classArguments hg).bind fun m found hfound =>
    (yields_suite hg _).bind fun t body hbody => ?_
  obtain ⟨q, hbody, hq⟩ := hbody
  exact yields_node rfl hstart (((bases_allCost hfound).append hbody).append hdecorators)
    fun n hn => ⟨hn.mono (by omega), by omega⟩

/-- What stands after decorators. -/
theorem yieldsAt_definition {start k : Nat} {decorators : List Node} (hstart : start ≤ bottom)
    (hdecorators : AllCost bottom 0 k decorators) (kind : TokenKind) :
    YieldsAt bottom kind (definition g decorators start kind) fun m n => n.Costs bottom 0 (k + m) ∧
    8 ≤ m := by
  unfold definition
  split
  · exact yields_functionRule hg hstart hdecorators _
  · exact yieldsAt_take_bind rfl ((yields_functionRule hg hstart hdecorators).mono fun m n hn =>
      ⟨hn.1.mono (by omega), by omega⟩)
  · exact yields_classRule hg hdecorators _
  · exact yields_failure _

theorem readsStatement_decorated : ReadsStatement bottom (decorated g) :=
  (yields_decorators hg).bind fun _ _ hdecorators => yields_line_bind fun _ hstart =>
    yields_peek_bind fun kind =>
    (yieldsAt_definition hg hstart hdecorators kind).mono fun _ _ => And.left

theorem readsStatement_asyncRule : ReadsStatement bottom (asyncRule g) := by
  refine yields_line_bind fun start hstart => yields_keyword_bind (yields_peek_bind fun kind => ?_)
  split
  · exact ((yields_functionRule hg hstart .nil).mono fun m n hn => hn.1.mono (by omega)) _
  · exact ((readsStatement_withRule hg hstart).mono fun m n hn => hn.mono (by omega)) _
  · exact ((readsStatement_forRule hg hstart).mono fun m n hn => hn.mono (by omega)) _
  · exact yields_failure _

theorem readsStatement_caseRule : ReadsStatement bottom (caseRule g) := by
  refine yields_line_bind fun start hstart => yields_expect_bind rfl
    ((readsPattern_topPattern hg).bind fun k pattern hpattern => ?_)
  refine (readsExpression_namedExpression hg).followingNodes.bind fun m guard hguard =>
    (yields_suite hg _).bind fun p body hbody => ?_
  obtain ⟨q, hbody, hq⟩ := hbody
  exact yields_node rfl hstart ((hpattern.child _ (hguard.children _)).append hbody) fun n hn =>
    hn.mono (by omega)

theorem readsStatement_matchRule : ReadsStatement bottom (matchRule g) := by
  refine yields_line_bind fun start hstart => yields_expect_bind rfl
    ((readsExpression_subjectRule hg).bind fun k subject hsubject => ?_)
  refine yields_symbol_bind (yields_expect_bind rfl (yields_expect_bind rfl ?_))
  refine (readsStatement_caseRule hg).many1Nodes.bind fun m cases hcases =>
    yields_expect_bind rfl ?_
  exact yields_node rfl hstart (hsubject.child _ (hcases.children _)) fun n hn => hn.mono (by omega)

theorem yields_statementRule : Yields bottom (statementRule g) (AllCost bottom 0) := by
  have hsingle : ∀ {r : Reader Node}, ReadsStatement bottom r →
      Yields bottom (do return [← r]) (AllCost bottom 0) :=
    fun h => h.bind fun k n hn => yields_pure hn.single
  refine yields_line_bind fun start hstart => yields_peek_bind fun kind => ?_
  dsimp only
  split
  · exact hsingle (readsStatement_decorated hg) _
  · exact hsingle (readsStatement_decorated hg) _
  · exact hsingle (readsStatement_decorated hg) _
  · exact hsingle (readsStatement_asyncRule hg) _
  · exact hsingle (readsStatement_ifRule hg) _
  · exact hsingle (readsStatement_withRule hg hstart) _
  · exact hsingle (readsStatement_forRule hg hstart) _
  · exact hsingle (readsStatement_tryRule hg) _
  · exact hsingle (readsStatement_whileRule hg) _
  · exact ((hsingle (readsStatement_matchRule hg)).orElse (yields_simpleStatements hg)) _
  · exact yields_simpleStatements hg _

end Compound

/-! ## The whole grammar -/

variable [Text.CharacterNames]

/-- The grammar is bounded, however deep it refers to itself. -/
theorem bounded_upTo (bottom fuel : Nat) : (upTo fuel).Bounded bottom := by
  induction fuel with
  | zero =>
      exact ⟨yields_failure, yields_failure, yields_failure, yields_failure, yields_failure,
        yields_failure, yields_failure, yields_failure⟩
  | succ fuel ih =>
      -- each rule refers to the grammar of depth `fuel` only
      exact
        { expression := readsExpression_expressionRule ih
          condition := readsExpression_disjunction ih
          inversion := readsExpression_inversionRule ih
          operand := readsExpression_bitOr ih
          factor := readsExpression_factorRule ih
          primary := readsExpression_primaryRule ih
          pattern := readsPattern_patternRule ih
          statement := yields_statementRule ih }

theorem yields_program (bottom fuel : Nat) :
    Yields bottom (program fuel) fun k n => n.Costs bottom 0 (k + 1) := by
  have hlines : Yields bottom (many (statementRule (upTo fuel))) fun k found =>
      AllCost bottom 0 k found.flatten :=
    (yields_statementRule (bounded_upTo bottom fuel)).many .nil fun _ _ _ _ => .append
  refine hlines.bind fun k found hfound => yields_expect_bind rfl (yields_pure ?_)
  have hchildren := hfound.children .body
  have hsize := hchildren.size_le
  refine ⟨Node.fits_mk rfl (Nat.zero_le _) (Nat.zero_le _) hchildren.fits, ?_⟩
  rw [Node.size_mk]
  omega

end Scorecard.Source.Grammar

namespace Scorecard.Source

variable [Text.CharacterNames]

/-- **The tree of a module** has at most eight nodes for each character of its text, and lies on the
lines of the text. -/
theorem parse_bounds {text : String} {tree : Node} (h : parse text = some tree) :
    tree.Fits (lineBreaks (closeLastLine text.toList)) ∧
      tree.size ≤ 8 * text.toList.length + 1 := by
  obtain ⟨tokens, htokens, h⟩ := Option.bind_eq_some_iff.mp h
  obtain ⟨⟨found, c'⟩, hrun, heq⟩ := Option.bind_eq_some_iff.mp h
  cases heq
  have hprices := (tokens?_bounds htokens).2
  obtain ⟨k, hk, hcosts⟩ := (Grammar.yields_program _ _).run (Cursor.within_of_tokens? htokens) hrun
  have hfunds : prices tokens = k + c'.funds := hk.funds_eq
  have hsize := hcosts.size_le
  exact ⟨hcosts.fits, by omega⟩

end Scorecard.Source
