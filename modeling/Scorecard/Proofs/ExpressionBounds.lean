import Scorecard.Proofs.LiteralBounds
import Scorecard.Proofs.ReaderBounds
import Scorecard.Source.Grammar.Expression

set_option autoImplicit false

/-! # What expressions cost

Every rule of the expression grammar builds at most as much as it takes tokens for, provided that
the rules it refers to do.
-/

namespace Scorecard.Source.Grammar

open Reader
open Node (Costs AllCost)

variable {bottom : Nat}

/-- A reader of expressions, each of which leaves six over. -/
abbrev ReadsExpression (bottom : Nat) (r : Reader Node) : Prop := Yields bottom r (Costs bottom 6)

/-- A grammar whose trees cost no more than their tokens. -/
structure Bounded (bottom : Nat) (g : Grammar) : Prop where
  expression : ReadsExpression bottom g.expression
  condition : ReadsExpression bottom g.condition
  inversion : ReadsExpression bottom g.inversion
  operand : ReadsExpression bottom g.operand
  factor : ReadsExpression bottom g.factor
  primary : ReadsExpression bottom g.primary
  pattern : Yields bottom g.pattern (Costs bottom 1)
  statement : Yields bottom g.statement (AllCost bottom 0)

/-! ## Operators -/

/-- An expression after a word. -/
theorem readsExpression_after_keyword {w : String} {r : Reader Node}
    (h : ReadsExpression bottom r) :
    ReadsExpression bottom (do keyword w; r) :=
  yields_keyword_bind (h.mono fun _ _ hn => hn.mono (by omega))

theorem readsExpression_after_symbol {s : String} {r : Reader Node} (h : ReadsExpression bottom r) :
    ReadsExpression bottom (do symbol s; r) :=
  yields_symbol_bind (h.mono fun _ _ hn => hn.mono (by omega))

theorem readsExpression_binaryLevel {operators : List (String × BinaryOp)} {operand : Reader Node}
    (h : ReadsExpression bottom operand) :
    ReadsExpression bottom (binaryLevel operators operand) := by
  refine yields_line_bind fun start hstart => h.bind fun k first hfirst => ?_
  refine yields_iterate hfirst fun m left hleft => ?_
  refine yields_next.bind fun p found hp => ?_
  split
  · have hp : p = 8 := hp
    split
    · exact h.bind fun q right hright => yields_node rfl hstart
        (hleft.child _ (hright.child _ .nil)) fun n hn => hn.mono (by omega)
    · exact yields_failure
  · exact yields_failure

theorem readsExpression_joined {word : String} {op : BoolOp} {operand : Reader Node}
    (h : ReadsExpression bottom operand) : ReadsExpression bottom (joined word op operand) := by
  refine yields_line_bind fun start hstart => h.bind fun k first hfirst => ?_
  refine (readsExpression_after_keyword h).manyNodes.bind fun m more hmore => ?_
  split
  · exact yields_pure (hfirst.mono (by omega))
  · rename_i hne
    have hlong : 2 ≤ (first :: more).length :=
      Nat.succ_le_succ (List.length_pos_iff.mpr (by simpa using hne))
    exact yields_group rfl hstart (hmore.cons hfirst) (by omega) hlong fun n hn =>
      hn.mono (by omega)

/-! ## Lists of expressions -/

/-- A list that is neither empty nor of one item has two. -/
theorem two_le_length {α : Type} {items : List α} (hne : items ≠ []) (hsingle : ∀ a, items ≠ [a]) :
    2 ≤ items.length := by
  rcases items with _ | ⟨a, _ | ⟨b, items⟩⟩
  · exact absurd rfl hne
  · exact absurd rfl (hsingle a)
  · simp

theorem readsExpression_tupleOf {item : Reader Node} (h : ReadsExpression bottom item) :
    ReadsExpression bottom (tupleOf item) := by
  refine yields_line_bind fun start hstart => h.separatedNodes.bind fun k items hitems => ?_
  obtain ⟨hitems, hne⟩ := hitems
  refine yields_acceptSymbol_bind ?_ ?_
  · split
    · cases ‹true = false›
    · exact yields_node rfl hstart (hitems.children _) fun n hn => hn.mono (by omega)
  · split
    · exact yields_pure hitems.head
    · rename_i hsingle
      exact yields_group rfl hstart hitems (by omega)
        (two_le_length hne fun n hn => hsingle n hn rfl) fun n hn => hn

theorem isQuestion_atFor : IsQuestion bottom atFor := by
  refine yields_peek_bind fun kind => yieldsAt_peek_bind fun after => ?_
  split <;> exact yieldsAt_pure rfl

theorem isQuestion_atNamed : IsQuestion bottom atNamed := by
  refine yields_peek_bind fun kind => yieldsAt_peek_bind fun after => ?_
  split <;> exact yieldsAt_pure rfl

/-! ## Text literals -/

/-- The constants of a literal are merged at no cost. -/
theorem mergeConstants_allCost {k : Nat} {ns : List Node} (h : AllCost bottom 0 k ns) :
    AllCost bottom 0 k (mergeConstants ns) := by
  induction ns generalizing k with
  | nil => exact h
  | cons n rest ih =>
      obtain ⟨p, q, hn, hrest, hle⟩ := h.uncons
      have hmerged := ih hrest
      rw [mergeConstants]
      split
      · split
        · split
          · exact AllCost.nil.mono (by omega)
          · exact hn.single.mono (by omega)
        · rename_i m more heq
          rw [heq] at hmerged
          split
          · -- two neighbours become one node, so the one that is gone pays for what is left
            obtain ⟨p', q', -, hmore, hle'⟩ := hmerged.uncons
            have hplaced := hn.fits n (by cases n; rw [Node.walk]; exact List.mem_cons_self)
            have hsize := hn.size_le
            have hone := n.one_le_size
            refine AllCost.mono (hmore.cons (k := 1) ⟨?_, by simp⟩) (by omega)
            exact Node.fits_mk rfl hplaced.line hplaced.lastLine (by simp)
          · split
            · exact hmerged.mono (by omega)
            · exact (hmerged.cons hn).mono hle
      · exact (hmerged.cons hn).mono hle

mutual

theorem tidy_costs {spare : Nat} :
    ∀ (n : Node) (k : Nat), n.Costs bottom spare k → (tidy n).Costs bottom spare k
  | .mk role label a b children, k, h => by
      obtain ⟨hplaced, hchildren⟩ := Node.fits_mk_iff.mp h.fits
      have hsize := h.size_le
      rw [Node.size_mk] at hsize
      have hall := tidyAll_allCost children (Node.sizeAll children) ⟨hchildren, by omega⟩
      -- only joined literals change, and their parts do not grow
      unfold tidy
      split
      · have hmerged := mergeConstants_allCost hall
        have hle := hmerged.size_le
        refine ⟨Node.fits_mk rfl hplaced.line hplaced.lastLine hmerged.fits, ?_⟩
        rw [Node.size_mk]
        omega
      · have hle := hall.size_le
        refine ⟨Node.fits_mk rfl hplaced.line hplaced.lastLine hall.fits, ?_⟩
        rw [Node.size_mk]
        omega
      · exact h

theorem tidyAll_allCost : ∀ (ns : List Node) (k : Nat), AllCost bottom 0 k ns → AllCost bottom 0 k
    (tidyAll ns)
  | [], k, h => h
  | n :: rest, k, h => by
      obtain ⟨p, q, hn, hrest, hle⟩ := h.uncons
      rw [tidyAll]
      exact ((tidyAll_allCost rest q hrest).cons (tidy_costs n p hn)).mono hle

end

/-- A reader of the expressions in the fields of a literal. -/
def ReadsField (bottom : Nat) (readField : Nat → List Char → Option Node) : Prop :=
  ∀ line cs n, line + lineBreaks cs ≤ bottom → readField line cs = some n →
    n.Costs bottom 6 (8 * (cs.length + 2))

section Pieces

variable {readField : Nat → List Char → Option Node} {line first last breaks : Nat}

mutual

theorem pieceNodes_allCost (h : ReadsField bottom readField) (hfirst : first ≤ bottom)
    (hlast : last ≤ bottom) (hline : line + breaks ≤ bottom) :
    ∀ (ps : List Literal.Piece) (ns : List Node), Literal.PiecesWithin breaks ps →
      pieceNodes readField line first last ps = some ns → AllCost bottom 0
        (Literal.piecesPrice ps) ns
  | [], ns, _, hns => by
      rw [pieceNodes] at hns
      cases hns
      rw [Literal.piecesPrice]
      exact .nil
  | .text cs :: rest, ns, hwithin, hns => by
      rw [pieceNodes] at hns
      obtain ⟨more, hmore, heq⟩ := Option.bind_eq_some_iff.mp hns
      cases heq
      rw [Literal.PiecesWithin] at hwithin
      rw [Literal.piecesPrice]
      refine (pieceNodes_allCost h hfirst hlast hline rest more hwithin hmore).cons ⟨?_, by simp⟩
      exact Node.fits_mk rfl hfirst hlast (by simp)
  | .field expression below conversion format :: rest, ns, hwithin, hns => by
      rw [pieceNodes] at hns
      obtain ⟨value, hvalue, hns⟩ := Option.bind_eq_some_iff.mp hns
      obtain ⟨spec, hspec, hns⟩ := Option.bind_eq_some_iff.mp hns
      obtain ⟨more, hmore, heq⟩ := Option.bind_eq_some_iff.mp hns
      cases heq
      rw [Literal.PiecesWithin] at hwithin
      obtain ⟨hbelow, hformat, hrest⟩ := hwithin
      -- the field starts below the literal by no more lines than the literal has
      have hvalue := h _ _ _ (by omega) hvalue
      have hspec := formatNode_allCost h hfirst hlast hline format spec hformat hspec
      have hchildren := hvalue.child .value hspec
      rw [Literal.piecesPrice]
      refine (pieceNodes_allCost h hfirst hlast hline rest more hrest hmore).cons ⟨?_, ?_⟩
      · exact Node.fits_mk rfl hfirst hlast hchildren.fits
      · have hsize := hvalue.size_le
        have hspecSize := hspec.size_le
        rw [Node.size_mk, Node.sizeAll_cons, Node.size_as]
        omega

theorem formatNode_allCost (h : ReadsField bottom readField) (hfirst : first ≤ bottom)
    (hlast : last ≤ bottom) (hline : line + breaks ≤ bottom) :
    ∀ (format : Option (List Literal.Piece)) (ns : List Node), Literal.FormatWithin breaks format →
      formatNode readField line first last format = some ns → AllCost bottom 0
        (Literal.formatPrice format) ns
  | none, ns, _, hns => by
      rw [formatNode] at hns
      cases hns
      rw [Literal.formatPrice]
      exact .nil
  | some inner, ns, hwithin, hns => by
      rw [formatNode] at hns
      obtain ⟨nodes, hnodes, heq⟩ := Option.bind_eq_some_iff.mp hns
      cases heq
      rw [Literal.FormatWithin] at hwithin
      have hinner := pieceNodes_allCost h hfirst hlast hline inner nodes hwithin hnodes
      rw [Literal.formatPrice]
      refine Costs.single ⟨Node.fits_mk rfl hfirst hlast hinner.fits, ?_⟩
      have hsize := hinner.size_le
      rw [Node.size_mk]
      omega

end

end Pieces

/-- A part of a literal is worth what it pays for, and lies on the lines up to `bottom`. -/
structure PartCost (bottom k : Nat) (p : QuotedAt) : Prop where
  price : k = 8 * (p.quoted.body.length + 1)
  within : p.line + lineBreaks p.quoted.body ≤ bottom

theorem yields_quotedAt : Yields bottom quotedAt (PartCost bottom) := by
  intro kind c part c' hc hkind hrun
  obtain ⟨tokens, lastLine⟩ := c
  cases tokens with
  | nil => cases hrun
  | cons t rest =>
      obtain ⟨start, _, hline, hrun⟩ := bind_eq_some_iff.mp hrun
      obtain ⟨rfl, t', rest', htokens, -, rfl⟩ := line_eq_some_iff.mp hline
      cases htokens
      obtain ⟨found, _, hnext, hrun⟩ := bind_eq_some_iff.mp hrun
      -- the price of a quoted token is the price of its body, which was checked when it was read
      obtain ⟨k, hk, hfound, hprice⟩ := yieldsAt_next _ _ _ hc hkind hnext
      split at hrun
      · cases hrun
        refine ⟨k, hk, ?_, ?_⟩
        · rw [hprice, ← hfound]
          rfl
        · exact (hc.tokens t List.mem_cons_self).body _ (hkind.trans hfound.symm)
      · cases hrun

/-- What the parts of a literal may spend, before what is left over of each. -/
def partsPrice (parts : List QuotedAt) : Nat :=
  (parts.map fun p => 8 * p.quoted.body.length + 1).sum

/-- The parts of a literal with the tokens that they are worth. -/
structure PartsCost (bottom k : Nat) (parts : List QuotedAt) : Prop where
  price : partsPrice parts + 7 * parts.length ≤ k
  within : ∀ p ∈ parts, p.line + lineBreaks p.quoted.body ≤ bottom

theorem partsCost_nil : PartsCost bottom 0 [] := ⟨le_refl _, by simp⟩

theorem partsCost_cons {k m : Nat} {p : QuotedAt} {parts : List QuotedAt} (h : PartCost bottom k p)
    (hs : PartsCost bottom m parts) : PartsCost bottom (k + m) (p :: parts) where
  price := by
    have hk := h.price
    have hm := hs.price
    simp only [partsPrice, List.map_cons, List.sum_cons, List.length_cons] at hm ⊢
    omega
  within := List.forall_mem_cons.mpr ⟨h.within, hs.within⟩

section Parts

variable [Text.CharacterNames] {readField : Nat → List Char → Option Node} {first last : Nat}

theorem partNodes_allCost (h : ReadsField bottom readField) (hfirst : first ≤ bottom)
    (hlast : last ≤ bottom) {p : QuotedAt} {ns : List Node}
    (hp : p.line + lineBreaks p.quoted.body ≤ bottom)
    (hns : partNodes readField first last p = some ns) :
    AllCost bottom 0 (8 * p.quoted.body.length + 1) ns := by
  unfold partNodes at hns
  split at hns
  · obtain ⟨pieces, hpieces, hns⟩ := Option.bind_eq_some_iff.mp hns
    obtain ⟨hprice, hwithin⟩ := Literal.formattedPieces_bounds hpieces
    exact (pieceNodes_allCost h hfirst hlast hp pieces ns hwithin hns).mono hprice
  · obtain ⟨cs, -, heq⟩ := Option.bind_eq_some_iff.mp hns
    cases heq
    refine AllCost.mono (Costs.single (k := 1) ⟨?_, by simp⟩) (by omega)
    exact Node.fits_mk rfl hfirst hlast (by simp)

theorem parts_allCost (h : ReadsField bottom readField) (hfirst : first ≤ bottom)
    (hlast : last ≤ bottom) {parts : List QuotedAt} {nodes : List (List Node)}
    (hparts : ∀ p ∈ parts, p.line + lineBreaks p.quoted.body ≤ bottom)
    (hnodes : parts.mapM (partNodes readField first last) = some nodes) :
    AllCost bottom 0 (partsPrice parts) nodes.flatten := by
  induction parts generalizing nodes with
  | nil =>
      cases hnodes
      exact .nil
  | cons p parts ih =>
      rw [List.mapM_cons] at hnodes
      obtain ⟨ns, hns, hnodes⟩ := Option.bind_eq_some_iff.mp hnodes
      obtain ⟨more, hmore, heq⟩ := Option.bind_eq_some_iff.mp hnodes
      cases heq
      obtain ⟨hp, hrest⟩ := List.forall_mem_cons.mp hparts
      exact (partNodes_allCost h hfirst hlast hp hns).append (ih hrest hmore)

end Parts

theorem readsExpression_literal [Text.CharacterNames] {readField : Nat → List Char → Option Node}
    (h : ReadsField bottom readField) :
    ReadsExpression bottom (literal readField) := by
  refine yields_line_bind fun start hstart =>
    (yields_quotedAt.many1 partsCost_nil fun _ _ _ _ => partsCost_cons).bind
      fun k parts hparts => ?_
  obtain ⟨hparts, hne⟩ := hparts
  have hlength := List.length_pos_iff.mpr hne
  have hprice := hparts.price
  refine yields_get_bind fun c hstop => ?_
  dsimp only
  split
  · split
    · -- bytes hold no fields, so they are one leaf
      exact yields_leaf hstart fun n hn => hn.mono (by omega)
    · exact yields_failure
  · split
    · split
      · rename_i nodes heq
        -- the prices of the pieces pay for the nodes of the fields
        have hall := parts_allCost h hstart hstop hparts.within heq
        refine yields_pure (tidy_costs _ _ ⟨?_, ?_⟩)
        · exact Node.fits_mk rfl hstart hstop hall.fits
        · have hsize := hall.size_le
          rw [Node.size_mk]
          omega
      · exact yields_failure
    · split
      · exact yields_leaf hstart fun n hn => hn.mono (by omega)
      · exact yields_failure

/-! ## Arguments -/

/-- The arguments read so far cost at most `k`. -/
def ArgsCost (bottom k : Nat) (a : Args) : Prop := AllCost bottom 0 k (a.positional ++ a.keywords)

theorem argsCost_empty : ArgsCost bottom 0 {} := .nil

namespace ArgsCost

variable {k m spare : Nat} {a : Args} {n : Node}

theorem keyword (ha : ArgsCost bottom k a) (hn : n.Costs bottom spare m) :
    AllCost bottom 0 (k + m) (a.positional ++ (a.keywords ++ [n])) := by
  rw [← List.append_assoc]
  exact AllCost.append ha (Costs.single (hn.mono (by omega)))

theorem positional (ha : ArgsCost bottom k a) (hn : n.Costs bottom spare m) :
    AllCost bottom 0 (k + m) (a.positional ++ [n] ++ a.keywords) :=
  (ha.keyword hn).perm (by rw [List.append_assoc]; exact List.perm_append_comm.append_left _)

theorem nodes (ha : ArgsCost bottom k a) :
    AllCost bottom 0 k (a.positional.map (·.as .argument) ++ a.keywords.map (·.as .keyword)) :=
  AllCost.roles ha _ _

end ArgsCost

/-! ## Lists of parameters -/

/-- All nodes of a list of parameters. -/
def Params.nodes (p : Params) : List Node :=
  p.positionalOnly ++ p.positional ++ p.variadic.toList ++ p.keywordOnly ++
    p.keywordDefaults.filterMap id ++ p.keywordVariadic.toList ++ p.defaults

/-- The parameters read so far cost at most `k`. -/
def ParamsCost (bottom k : Nat) (p : Params) : Prop := AllCost bottom 0 k p.nodes

theorem paramsCost_empty : ParamsCost bottom 0 {} := .nil

/-- Parameters that some nodes were added to. -/
theorem ParamsCost.extend {k m : Nat} {p p' : Params} {new : List Node} (h : ParamsCost bottom k p)
    (hnew : AllCost bottom 0 m new) (hmem : ∀ n ∈ p'.nodes, n ∈ p.nodes ∨ n ∈ new)
    (hsize : Node.sizeAll p'.nodes ≤ Node.sizeAll p.nodes + Node.sizeAll new) :
    ParamsCost bottom (k + m) p' where
  fits n hn := (hmem n hn).elim (AllCost.fits h n) (hnew.fits n)
  size_le := by
    have hle := AllCost.size_le h
    have hnewLe := hnew.size_le
    omega

theorem ParamsCost.node {k line lastLine : Nat} {p : Params} (h : ParamsCost bottom k p)
    (hline : line ≤ bottom) (hlast : lastLine ≤ bottom) :
    (p.node line lastLine).Costs bottom 0 (k + 1) := by
  have hfits := AllCost.fits h
  have hsize := AllCost.size_le h
  simp only [Params.nodes, List.forall_mem_append, Node.sizeAll_append] at hfits hsize
  have hdefaults : p.keywordDefaults.filterMap (·.map (·.as .keywordDefault)) =
      (p.keywordDefaults.filterMap id).map (·.as .keywordDefault) := by
    rw [List.map_filterMap]
    rfl
  refine ⟨Node.fits_mk rfl hline hlast ?_, ?_⟩
  · simp only [hdefaults, List.forall_mem_append, List.forall_mem_map, Node.fits_as_iff]
    exact hfits
  · simp only [Params.node, hdefaults, Node.size_mk, Node.sizeAll_append, Node.sizeAll_map_as]
    omega

/-! ## Entries of dictionaries -/

/-- An entry costs at most `k`. -/
def ItemCost (bottom k : Nat) (item : Option Node × Node) : Prop :=
  AllCost bottom 0 k (item.1.toList ++ [item.2])

/-- The keys and values of some entries cost at most `k`. -/
def ItemsCost (bottom k : Nat) (items : List (Option Node × Node)) : Prop :=
  AllCost bottom 0 k (items.filterMap (·.1.map (·.as .key)) ++ items.map (·.2.as .value))

theorem itemsCost_cons {k m : Nat} {item : Option Node × Node} {items : List (Option Node × Node)}
    (h : ItemCost bottom k item) (hs : ItemsCost bottom m items) :
    ItemsCost bottom (k + m) (item :: items) := by
  obtain ⟨_ | key, value⟩ := item
  · have hitem : AllCost bottom 0 k [value.as .value] :=
      ⟨by simpa using h.fits, by simpa using h.size_le⟩
    refine (hitem.append hs).perm ?_
    simp only [List.filterMap_cons, Option.map_none, List.map_cons, List.singleton_append]
    exact List.perm_middle.symm
  · have hitem : AllCost bottom 0 k [key.as .key, value.as .value] :=
      ⟨by simpa using h.fits, by simpa using h.size_le⟩
    refine (hitem.append hs).perm ?_
    simp only [List.filterMap_cons, Option.map_some, List.map_cons, List.cons_append,
      List.nil_append]
    exact List.perm_middle.symm.cons _

theorem isQuestion_atPlainArgument : IsQuestion bottom atPlainArgument := by
  refine yields_peek_bind fun kind => yieldsAt_peek_bind fun after => ?_
  split <;> exact yieldsAt_pure rfl

theorem yields_compareOp : Yields bottom compareOp fun k _ => 8 ≤ k := by
  refine yields_next.bind fun k found hk => ?_
  split
  case h_8 => exact yields_keyword_bind (yields_pure (by omega))
  case h_9 =>
      have hk : k = 8 := hk
      exact yields_acceptKeyword_ite (yields_pure (by omega)) (yields_pure (by omega))
  case h_10 => exact yields_failure
  all_goals exact yields_pure (Nat.le_of_eq hk.symm)

section Expressions

variable {g : Grammar} (hg : g.Bounded bottom)

include hg

theorem readsExpression_namedExpression : ReadsExpression bottom (namedExpression g) := by
  refine yields_peek_bind fun kind => yieldsAt_peek_bind fun after => ?_
  split
  · refine yieldsAt_line_bind fun start hstart => yieldsAt_take_bind rfl ?_
    refine yields_node_bind rfl hstart .nil fun target htarget => yields_symbol_bind ?_
    refine hg.expression.bind fun k value hvalue => ?_
    exact yields_node rfl hstart (htarget.child _ (hvalue.child _ .nil)) fun n hn =>
      hn.mono (by omega)
  · exact hg.expression _

theorem readsExpression_starredOperand : ReadsExpression bottom (starredOperand g) := by
  refine yields_line_bind fun start hstart => yields_symbol_bind
    (hg.operand.bind fun k value hvalue => ?_)
  exact yields_node rfl hstart (hvalue.child _ .nil) fun n hn => hn.mono (by omega)

theorem readsExpression_starExpression : ReadsExpression bottom (starExpression g) :=
  (isQuestion_atSymbol _).ite (readsExpression_starredOperand hg) hg.expression

theorem readsExpression_starNamedExpression : ReadsExpression bottom (starNamedExpression g) :=
  (isQuestion_atSymbol _).ite (readsExpression_starredOperand hg)
    (readsExpression_namedExpression hg)

theorem readsExpression_starExpressions : ReadsExpression bottom (starExpressions g) :=
  readsExpression_tupleOf (readsExpression_starExpression hg)

theorem readsExpression_yieldExpression : ReadsExpression bottom (yieldExpression g) := by
  refine yields_line_bind fun start hstart => yields_keyword_bind (yields_acceptKeyword_ite ?_ ?_)
  · refine hg.expression.bind fun k value hvalue => ?_
    exact yields_node rfl hstart (hvalue.child _ .nil) fun n hn => hn.mono (by omega)
  · have hvalue :
        Yields bottom (Reader.optional (starExpressions g)) fun k value =>
          AllCost bottom 6 k value.toList :=
      ((readsExpression_starExpressions hg).mono fun _ _ hn => hn.single).optional .nil
    refine hvalue.bind fun k value hvalue => ?_
    exact yields_node rfl hstart (hvalue.children _) fun n hn => hn.mono (by omega)

theorem readsExpression_assigned : ReadsExpression bottom (assigned g) :=
  (isQuestion_atKeyword _).ite (readsExpression_yieldExpression hg)
    (readsExpression_starExpressions hg)

/-! ## Comprehensions -/

theorem readsExpression_starTarget : ReadsExpression bottom (starTarget g) := by
  refine yields_line_bind fun start hstart => yields_acceptSymbol_ite ?_ ?_
  · refine hg.primary.bind fun k n hn => ?_
    split
    · exact yields_node rfl hstart (hn.child _ .nil) fun n hn => hn.mono (by omega)
    · exact yields_failure
  · refine hg.primary.bind fun k n hn => ?_
    split
    · exact yields_pure hn
    · exact yields_failure

theorem readsExpression_starTargets : ReadsExpression bottom (starTargets g) :=
  readsExpression_tupleOf (readsExpression_starTarget hg)

theorem readsExpression_forClause : ReadsExpression bottom (forClause g) := by
  refine yields_line_bind fun start hstart => yields_anyway fun k isAsync => yields_keyword_bind ?_
  refine (readsExpression_starTargets hg).bind fun p target htarget => yields_keyword_bind ?_
  refine hg.condition.bind fun q iterable hiterable => ?_
  refine (readsExpression_after_keyword hg.condition).manyNodes.bind
    fun m conditions hconditions => ?_
  exact yields_node rfl hstart (htarget.child _ (hiterable.child _ (hconditions.children _)))
    fun n hn => hn.mono (by omega)

theorem yields_forClauses : Yields bottom (forClauses g) (AllCost bottom 0) :=
  (readsExpression_forClause hg).many1Nodes.bind fun _ _ hclauses =>
    yields_pure (hclauses.children _)

/-! ## Calls and subscripts -/

theorem yields_argument {k : Nat} {a : Args} (ha : ArgsCost bottom k a) :
    Yields bottom (argument g a) fun m a' => ArgsCost bottom (k + m) a' := by
  refine yields_line_bind fun start hstart => yields_peek_bind fun kind =>
    yieldsAt_peek_bind fun after => ?_
  split
  · refine yieldsAt_take_bind rfl (hg.expression.bind fun q value hvalue => ?_)
    refine yields_node_bind rfl hstart (hvalue.child _ .nil) fun n hn => yields_pure ?_
    exact (ha.keyword hn).mono (by omega)
  · split
    · exact yields_failure _
    · refine yieldsAt_take_bind rfl (hg.expression.bind fun q value hvalue => ?_)
      refine yields_node_bind rfl hstart (hvalue.child _ .nil) fun n hn => yields_pure ?_
      exact (ha.positional hn).mono (by omega)
  · refine yieldsAt_take_bind rfl (yields_discard_next fun p =>
      hg.expression.bind fun q value hvalue => ?_)
    refine yields_node_bind rfl hstart (hvalue.child _ .nil) fun n hn => yields_pure ?_
    exact (ha.keyword hn).mono (by omega)
  · split
    · exact yields_failure _
    · refine ((readsExpression_namedExpression hg).bind fun q n hn => ?_) _
      exact (isQuestion_atSymbol _).ite yields_failure (yields_pure (ha.positional hn))

theorem yields_moreArguments {k : Nat} {a : Args} (ha : ArgsCost bottom k a) :
    Yields bottom (iterate (fun a => do symbol ","; argument g a) a) fun m a' => ArgsCost bottom
      (k + m) a' := by
  refine yields_iterate ha fun m a ha => yields_symbol_bind ?_
  exact (yields_argument hg ha).mono fun p a' ha' => AllCost.mono ha' (by omega)

theorem yields_arguments : Yields bottom (arguments g) (AllCost bottom 0) := by
  refine (isQuestion_atSymbol _).ite (yields_pure .nil) ?_
  refine (yields_argument hg argsCost_empty).bind fun k first hfirst => ?_
  refine (yields_moreArguments hg hfirst).bind fun m all hall => yields_discard_anyway fun p => ?_
  refine (isQuestion_atSymbol _).ite (yields_pure ?_) yields_failure
  exact hall.nodes.mono (by omega)

theorem yields_callArguments :
    Yields bottom (callArguments g) fun k ns => ∃ m, AllCost bottom 0 m ns ∧ m + 8 ≤ k := by
  refine yields_line_bind fun start hstart => yields_symbol_bind
    (isQuestion_atPlainArgument.ite ?_ ?_)
  · refine (readsExpression_namedExpression hg).bind fun k first hfirst =>
      isQuestion_atFor.ite ?_ ?_
    · refine (yields_forClauses hg).bind fun m clauses hclauses => yields_symbol_bind ?_
      refine yields_node_bind rfl hstart (hfirst.child _ hclauses) fun n hn => ?_
      exact yields_pure ⟨_, (hn.child _ .nil), by omega⟩
    · refine (isQuestion_atSymbol _).ite yields_failure ?_
      have hargs : ArgsCost bottom k { positional := [first] } :=
        Costs.single (hfirst.mono (by omega))
      refine (yields_moreArguments hg hargs).bind fun m all hall => yields_discard_anyway fun p =>
        yields_symbol_bind ?_
      exact yields_pure ⟨_, hall.nodes, by omega⟩
  · refine (yields_arguments hg).bind fun k found hfound => yields_symbol_bind ?_
    exact yields_pure ⟨k, hfound, by omega⟩

theorem yields_bound (role : Role) : Yields bottom (bound g role) (AllCost bottom 0) := by
  refine hg.expression.optionalNodes.bind fun k n hn => yields_pure ?_
  rw [Option.toList_map]
  exact hn.children role

theorem yields_sliceFrom {start k : Nat} {lower : List Node} (hstart : start ≤ bottom)
    (hlower : AllCost bottom 0 k lower) :
    Yields bottom (sliceFrom g start lower) fun m n => n.Costs bottom 6 (k + m) := by
  refine yields_symbol_bind ((yields_bound hg .upper).bind fun p upper hupper => ?_)
  have hstep : Yields bottom (following (.op ":") (bound g .step)) fun m step =>
      AllCost bottom 0 m (step.getD []) :=
    yields_accept_bind rfl ((yields_bound hg .step).map fun _ _ hn => hn.mono (by omega))
      (yields_pure .nil)
  refine hstep.bind fun q step hstep => ?_
  exact yields_node rfl hstart ((hlower.append hupper).append hstep) fun n hn => hn.mono (by omega)

theorem readsExpression_sliceItem : ReadsExpression bottom (sliceItem g) := by
  refine yields_line_bind fun start hstart => (isQuestion_atSymbol _).ite ?_
    (isQuestion_atNamed.ite ?_ ?_)
  · exact (yields_sliceFrom hg hstart .nil).mono fun k n hn => hn.mono (by omega)
  · exact readsExpression_namedExpression hg
  · refine hg.expression.bind fun k first hfirst =>
      (isQuestion_atSymbol _).ite ?_ (yields_pure hfirst)
    exact yields_sliceFrom hg hstart (hfirst.child _ .nil)

theorem readsExpression_subscriptItem : ReadsExpression bottom (subscriptItem g) := by
  refine (isQuestion_atSymbol _).ite ?_ (readsExpression_sliceItem hg)
  refine yields_line_bind fun start hstart => yields_symbol_bind
    (hg.expression.bind fun k value hvalue => ?_)
  exact yields_node rfl hstart (hvalue.child _ .nil) fun n hn => hn.mono (by omega)

/-- The inside of a subscript; a starred item alone is put into a tuple. -/
theorem yields_slices : Yields bottom (slices g) (Costs bottom 5) := by
  refine yields_line_bind fun start hstart =>
    (readsExpression_subscriptItem hg).separatedNodes.bind fun k items hitems => ?_
  obtain ⟨hitems, hne⟩ := hitems
  refine yields_acceptSymbol_bind ?_ ?_
  · split
    · cases ‹true = false›
    · exact yields_node rfl hstart (hitems.children _) fun n hn => hn.mono (by omega)
  · split
    · rename_i single
      split
      · refine yields_node_of_size rfl hstart (hitems.children _).fits fun n hfits hsize =>
          ⟨hfits, ?_⟩
        have hle := hitems.size_le
        simp only [Node.sizeAll_cons, Node.sizeAll_nil, Node.size_as,
          List.length_singleton] at hle hsize
        omega
      · exact yields_pure (hitems.head.mono (by omega))
    · rename_i hsingle
      exact yields_group rfl hstart hitems (by omega)
        (two_le_length hne fun n hn => hsingle n hn rfl) fun n hn => hn.mono (by omega)

theorem yields_trailer {start k : Nat} {value : Node} (hstart : start ≤ bottom)
    (hvalue : value.Costs bottom 6 k) :
    Yields bottom (trailer g start value) fun m n => n.Costs bottom 6 (k + m) := by
  refine yields_peek_bind fun kind => ?_
  split
  · refine yieldsAt_take_bind rfl (yields_identifier.bind fun p name hp => ?_)
    exact yields_node rfl hstart (hvalue.child _ .nil) fun n hn => hn.mono (by omega)
  · refine ((yields_callArguments hg).bind fun p found hfound => ?_) _
    obtain ⟨m, hfound, hm⟩ := hfound
    exact yields_node rfl hstart (hvalue.child _ hfound) fun n hn => hn.mono (by omega)
  · refine yieldsAt_take_bind rfl ((yields_slices hg).bind fun p index hindex =>
      yields_symbol_bind ?_)
    exact yields_node rfl hstart (hvalue.child _ (hindex.child _ .nil)) fun n hn =>
      hn.mono (by omega)
  · exact yields_failure _

/-! ## Displays -/

theorem yields_moreElements : Yields bottom (many (do symbol ","; starNamedExpression g))
    (AllCost bottom 6) :=
  (readsExpression_after_symbol (readsExpression_starNamedExpression hg)).manyNodes

theorem readsExpression_parenthesised : ReadsExpression bottom (parenthesised g) := by
  refine yields_line_bind fun start hstart => yields_symbol_bind
    (yields_acceptSymbol_ite ?_ ((isQuestion_atKeyword _).ite ?_ ?_))
  · exact yields_leaf hstart fun n hn => hn.mono (by omega)
  · refine (readsExpression_yieldExpression hg).bind fun k n hn => yields_symbol_bind ?_
    exact yields_pure (hn.mono (by omega))
  · refine (readsExpression_starNamedExpression hg).bind fun k first hfirst =>
      (isQuestion_atSymbol _).ite ?_ (isQuestion_atFor.ite ?_ ?_)
    · refine (yields_moreElements hg).bind fun m more hmore => yields_discard_anyway fun p =>
        yields_symbol_bind ?_
      exact yields_node rfl hstart ((hmore.cons hfirst).children _) fun n hn => hn.mono (by omega)
    · split
      · exact yields_failure
      · refine (yields_forClauses hg).bind fun m clauses hclauses => yields_symbol_bind ?_
        exact yields_node rfl hstart (hfirst.child _ hclauses) fun n hn => hn.mono (by omega)
    · refine yields_symbol_bind ?_
      split
      · exact yields_failure
      · exact yields_pure (hfirst.mono (by omega))

theorem readsExpression_bracketed : ReadsExpression bottom (bracketed g) := by
  refine yields_line_bind fun start hstart => yields_symbol_bind (yields_acceptSymbol_ite ?_ ?_)
  · exact yields_leaf hstart fun n hn => hn.mono (by omega)
  · refine (readsExpression_starNamedExpression hg).bind fun k first hfirst =>
      isQuestion_atFor.ite ?_ ?_
    · split
      · exact yields_failure
      · refine (yields_forClauses hg).bind fun m clauses hclauses => yields_symbol_bind ?_
        exact yields_node rfl hstart (hfirst.child _ hclauses) fun n hn => hn.mono (by omega)
    · refine (yields_moreElements hg).bind fun m more hmore => yields_discard_anyway fun p =>
        yields_symbol_bind ?_
      exact yields_node rfl hstart ((hmore.cons hfirst).children _) fun n hn => hn.mono (by omega)

theorem yields_dictItem : Yields bottom (dictItem g) (ItemCost bottom) := by
  refine yields_acceptSymbol_ite ?_ ?_
  · exact hg.operand.bind fun k value hvalue => yields_pure (hvalue.alone.mono (by omega))
  · refine hg.expression.bind fun k key hkey => yields_symbol_bind
      (hg.expression.bind fun m value hvalue => yields_pure ?_)
    exact (hkey.alone.append hvalue.alone).mono (by omega)

theorem readsExpression_braced : ReadsExpression bottom (braced g) := by
  refine yields_line_bind fun start hstart => yields_symbol_bind
    (yields_acceptSymbol_ite ?_ ((isQuestion_atSymbol _).ite ?_ ?_))
  · exact yields_leaf hstart fun n hn => hn.mono (by omega)
  · have hitems :
        Yields bottom (separated "," (dictItem g)) fun k items => ItemsCost bottom k items ∧
          items ≠ [] :=
      (yields_dictItem hg).separated (fun _ _ h => AllCost.mono h (by omega)) .nil fun _ _ _ _ =>
        itemsCost_cons
    refine hitems.bind fun k items hitems => yields_discard_anyway fun p => yields_symbol_bind ?_
    exact yields_node rfl hstart hitems.1 fun n hn => hn.mono (by omega)
  · -- the first element decides between a dictionary and a set, each written out or with clauses
    refine isQuestion_atNamed.bind fun named => ?_
    refine (readsExpression_starNamedExpression hg).bind fun k first hfirst =>
      (isQuestion_atSymbol _).ite ?_ (isQuestion_atFor.ite ?_ ?_)
    · split
      · exact yields_failure
      · refine yields_symbol_bind (hg.expression.bind fun m value hvalue =>
          isQuestion_atFor.ite ?_ ?_)
        · refine (yields_forClauses hg).bind fun p clauses hclauses => yields_symbol_bind ?_
          exact yields_node rfl hstart (hfirst.child _ (hvalue.child _ hclauses)) fun n hn =>
            hn.mono (by omega)
        · have hitem : Yields bottom (do symbol ","; dictItem g) (ItemCost bottom) :=
            yields_symbol_bind ((yields_dictItem hg).mono fun _ _ h => AllCost.mono h (by omega))
          have hitems : Yields bottom (many (do symbol ","; dictItem g)) (ItemsCost bottom) :=
            hitem.many .nil fun _ _ _ _ => itemsCost_cons
          refine hitems.bind fun p more hmore => yields_discard_anyway fun q =>
            yields_symbol_bind ?_
          have hpair : ItemCost bottom (k + m) (some first, value) :=
            hfirst.alone.append hvalue.alone
          exact yields_node rfl hstart (itemsCost_cons hpair hmore) fun n hn => hn.mono (by omega)
    · split
      · exact yields_failure
      · refine (yields_forClauses hg).bind fun m clauses hclauses => yields_symbol_bind ?_
        exact yields_node rfl hstart (hfirst.child _ hclauses) fun n hn => hn.mono (by omega)
    · refine (yields_moreElements hg).bind fun m more hmore => yields_discard_anyway fun p =>
        yields_symbol_bind ?_
      exact yields_node rfl hstart ((hmore.cons hfirst).children _) fun n hn => hn.mono (by omega)

/-! ## Parameters -/

section Parameters

variable {annotated starrable : Bool} {starred : Reader Node}
  (hstarred : ReadsExpression bottom starred)

include hstarred

theorem readsExpression_parameterType :
    ReadsExpression bottom (parameterType g starrable starred) := by
  refine (isQuestion_atSymbol _).bind fun answer => ?_
  split
  · exact hstarred
  · exact hg.expression

theorem readsExpression_parameter :
    ReadsExpression bottom (parameter g annotated starrable starred) := by
  have hnote : Yields bottom (typeNote g annotated starrable starred) (AllCost bottom 0) := by
    refine (isQuestion_atSymbol _).bind fun answer => ?_
    split
    · refine yields_symbol_bind ((readsExpression_parameterType hg hstarred).bind fun k n hn =>
        yields_pure ?_)
      exact (hn.as _).alone.mono (by omega)
    · exact yields_pure .nil
  refine yields_line_bind fun start hstart => yields_identifier.bind fun p name hp =>
    hnote.bind fun k note hnote => ?_
  exact yields_node rfl hstart hnote fun n hn => hn.mono (by omega)

theorem yields_parameterItem {k : Nat} {p : Params} (hp : ParamsCost bottom k p) :
    Yields bottom (parameterItem g annotated starred p) fun m p' => ParamsCost bottom
      (k + m) p' := by
  have hparameter :
      ∀ {starrable : Bool}, ReadsExpression bottom (parameter g annotated starrable starred) :=
    readsExpression_parameter hg hstarred
  unfold parameterItem
  split
  · exact yields_failure
  refine yields_acceptSymbol_ite ?slash
    (yields_acceptSymbol_ite ?keywords (yields_acceptSymbol_ite ?star ?plain))
  case slash =>
      split
      · exact yields_failure
      · refine yields_pure (hp.extend (AllCost.nil.mono (Nat.zero_le _)) ?_ ?_)
        · intro n hn
          simp only [Params.nodes, List.mem_append, List.not_mem_nil] at hn ⊢
          grind
        · simp [Params.nodes]
  case keywords =>
      refine hparameter.bind fun m n hn => (isQuestion_atSymbol _).ite yields_failure
        (yields_pure ?_)
      refine hp.extend (hn.alone.mono (by omega)) ?_ ?_
      · intro n' hn'
        simp only [Params.nodes, List.mem_append, Option.toList_some] at hn' ⊢
        grind
      · simp [Params.nodes]
        omega
  case star =>
      split
      · exact yields_failure
      · refine (isQuestion_atSymbol _).ite (fun kind => yieldsAt_peek_bind fun found => ?_) ?_
        · split
          · exact yieldsAt_pure (AllCost.mono hp (Nat.le_add_right _ _))
          · exact yields_failure _
        · refine hparameter.bind fun m n hn => (isQuestion_atSymbol _).ite yields_failure
            (yields_pure ?_)
          refine hp.extend (hn.alone.mono (by omega)) ?_ ?_
          · intro n' hn'
            simp only [Params.nodes, List.mem_append, Option.toList_some] at hn' ⊢
            grind
          · simp [Params.nodes]
            omega
  case plain =>
      refine hparameter.bind fun m n hn => hg.expression.followingNodes.bind
        fun q default hdefault => ?_
      -- where the parameter goes depends on what came before it, what it costs does not
      have hnew := hn.alone.append hdefault.drop
      split
      · refine yields_pure (hp.extend hnew ?_ ?_)
        · intro n' hn'
          simp only [Params.nodes, List.filterMap_append, List.filterMap_cons,
            List.mem_append] at hn' ⊢
          cases default <;> simp at hn' ⊢ <;> grind
        · cases default <;> simp [Params.nodes] <;> omega
      · split
        · refine yields_pure (hp.extend hnew ?_ ?_)
          · intro n' hn'
            simp only [Params.nodes, List.mem_append, Option.toList_some] at hn' ⊢
            grind
          · simp [Params.nodes]
            omega
        · split
          · refine yields_pure (hp.extend hnew ?_ ?_)
            · intro n' hn'
              simp only [Params.nodes, List.mem_append] at hn' ⊢
              grind
            · simp [Params.nodes]
              omega
          · exact yields_failure

theorem yields_parameterList {close : String} :
    Yields bottom (parameterList g annotated starred close) fun k n => n.Costs bottom 0
      (k + 1) := by
  refine yields_line_bind fun start hstart => (isQuestion_atSymbol _).ite ?_ ?_
  · exact yields_pure (paramsCost_empty.node hstart hstart)
  · refine (yields_parameterItem hg hstarred paramsCost_empty).bind fun k first hfirst => ?_
    have hmore :
        Yields bottom (iterate (fun p => do symbol ","; parameterItem g annotated starred p) first)
        fun m p => ParamsCost bottom (k + m) p :=
      yields_iterate (by simpa using hfirst) fun m p hp =>
        yields_symbol_bind ((yields_parameterItem hg hstarred hp).mono fun q p' hp' =>
          AllCost.mono hp' (by omega))
    refine hmore.bind fun m all hall => yields_discard_anyway fun q =>
      (isQuestion_atSymbol _).ite ?_ yields_failure
    refine yields_get_bind fun c hlast => yields_pure ?_
    exact (hall.node hstart hlast).mono (by omega)

end Parameters

theorem readsExpression_lambdaRule : ReadsExpression bottom (lambdaRule g) := by
  refine yields_line_bind fun start hstart => yields_keyword_bind ?_
  refine (yields_parameterList hg yields_failure).bind fun k parameters hparameters =>
    yields_symbol_bind ?_
  refine hg.expression.bind fun m body hbody => ?_
  exact yields_node rfl hstart (hparameters.child _ (hbody.child _ .nil)) fun n hn =>
    hn.mono (by omega)

theorem yieldsAt_signedFactor {kind : TokenKind} {start : Nat} {op : UnaryOp}
    (hkind : kind.price = 8) (hstart : start ≤ bottom) :
    YieldsAt bottom kind (signedFactor g start op) (Costs bottom 6) := by
  refine yieldsAt_take_bind hkind (hg.factor.bind fun k operand hoperand => ?_)
  exact yields_node rfl hstart (hoperand.child _ .nil) fun n hn => hn.mono (by omega)

/-! ## Atoms -/

/-- The expression of a field is read from its own text. -/
theorem readsField_fieldNode : ReadsField bottom (fieldNode g) := by
  intro line cs n hline hn
  unfold fieldNode at hn
  obtain ⟨tokens, htokens, hn⟩ := Option.bind_eq_some_iff.mp hn
  obtain ⟨⟨n', c'⟩, hrun, heq⟩ := Option.bind_eq_some_iff.mp hn
  cases heq
  obtain ⟨hlexed, hprices⟩ := tokens?_bounds htokens
  have hbreaks : lineBreaks ('(' :: cs ++ [')']) = lineBreaks cs := by
    simp [lineBreaks]
  have hclosed := lineBreaks_closeLastLine ('(' :: cs ++ [')'])
  have hc : Cursor.Within bottom { tokens, lastLine := line } :=
    ⟨fun t ht => (hlexed.within t ht).mono (by dsimp only; omega), hlexed.inOrder,
      hlexed.below, by dsimp only; omega⟩
  obtain ⟨k, hk, hcosts⟩ := (readsExpression_starExpressions hg).run hc hrun
  refine hcosts.mono ?_
  have hfunds : prices tokens = k + c'.funds := hk.funds_eq
  simp only [List.length_append, List.length_cons, List.length_nil] at hprices
  omega

variable [Text.CharacterNames]

theorem readsExpression_atom : ReadsExpression bottom (atom g) := by
  refine yields_line_bind fun start hstart => yields_peek_bind fun kind => ?_
  split
  case h_7 => exact readsExpression_literal (readsField_fieldNode hg) _
  case h_8 => exact readsExpression_parenthesised hg _
  case h_9 => exact readsExpression_bracketed hg _
  case h_10 => exact readsExpression_braced hg _
  case h_11 => exact yields_failure _
  all_goals exact yieldsAt_leaf rfl hstart

theorem readsExpression_primaryRule : ReadsExpression bottom (primaryRule g) := by
  refine yields_line_bind fun start hstart =>
    (readsExpression_atom hg).bind fun k first hfirst => ?_
  refine yields_iterate hfirst fun m value hvalue => ?_
  exact (yields_trailer hg hstart hvalue).mono fun q n hn => hn.mono (by omega)

/-! ## The levels of an expression -/

theorem readsExpression_awaited : ReadsExpression bottom (awaited g) := by
  refine yields_line_bind fun start hstart => yields_acceptKeyword_ite ?_
    (readsExpression_primaryRule hg)
  refine (readsExpression_primaryRule hg).bind fun k value hvalue => ?_
  exact yields_node rfl hstart (hvalue.child _ .nil) fun n hn => hn.mono (by omega)

theorem readsExpression_power : ReadsExpression bottom (power g) := by
  refine yields_line_bind fun start hstart => (readsExpression_awaited hg).bind fun k base hbase =>
    yields_acceptSymbol_ite ?_ ?_
  · refine hg.factor.bind fun m exponent hexponent => ?_
    exact yields_node rfl hstart (hbase.child _ (hexponent.child _ .nil)) fun n hn =>
      hn.mono (by omega)
  · exact yields_pure hbase

theorem readsExpression_factorRule : ReadsExpression bottom (factorRule g) := by
  refine yields_line_bind fun start hstart => yields_peek_bind fun kind => ?_
  split
  · exact yieldsAt_signedFactor hg rfl hstart
  · exact yieldsAt_signedFactor hg rfl hstart
  · exact yieldsAt_signedFactor hg rfl hstart
  · exact readsExpression_power hg _

theorem readsExpression_bitOr : ReadsExpression bottom (bitOr g) :=
  readsExpression_binaryLevel <| readsExpression_binaryLevel <| readsExpression_binaryLevel <|
    readsExpression_binaryLevel <|
    readsExpression_binaryLevel <| readsExpression_binaryLevel <| readsExpression_factorRule hg

theorem readsExpression_comparison : ReadsExpression bottom (comparison g) := by
  have hpair : Yields bottom (do let op ← compareOp; return (op, ← bitOr g)) fun k pair =>
      pair.2.Costs bottom 14 k :=
    yields_compareOp.bind fun k op hk => (readsExpression_bitOr hg).bind fun m n hn =>
      yields_pure (hn.mono (by omega))
  have hpairs : Yields bottom (many (do let op ← compareOp; return (op, ← bitOr g))) fun k pairs =>
      AllCost bottom 14 k (pairs.map (·.2)) :=
    hpair.many .nil fun _ _ _ _ => .cons
  refine yields_line_bind fun start hstart => (readsExpression_bitOr hg).bind fun k first hfirst =>
    hpairs.bind fun m pairs hpairs => ?_
  split
  · exact yields_pure (hfirst.mono (by omega))
  · rename_i hne
    have hlength : 1 ≤ pairs.length := List.length_pos_iff.mpr (by simpa using hne)
    have hle := hpairs.size_le
    rw [List.length_map] at hle
    -- the operators pay for the node
    have hcheap : AllCost bottom 0 (m - 14) (pairs.map (·.2)) := ⟨hpairs.fits, by omega⟩
    have hchildren := hfirst.child .left (hcheap.children .comparator)
    rw [List.map_map] at hchildren
    exact yields_node rfl hstart hchildren fun n hn => hn.mono (by omega)

theorem readsExpression_inversionRule : ReadsExpression bottom (inversionRule g) := by
  refine yields_line_bind fun start hstart => yields_acceptKeyword_ite ?_
    (readsExpression_comparison hg)
  refine hg.inversion.bind fun k operand hoperand => ?_
  exact yields_node rfl hstart (hoperand.child _ .nil) fun n hn => hn.mono (by omega)

theorem readsExpression_disjunction : ReadsExpression bottom (disjunction g) :=
  readsExpression_joined (readsExpression_joined (readsExpression_inversionRule hg))

theorem readsExpression_expressionRule : ReadsExpression bottom (expressionRule g) := by
  refine (isQuestion_atKeyword _).ite (readsExpression_lambdaRule hg) ?_
  refine yields_line_bind fun start hstart =>
    (readsExpression_disjunction hg).bind fun k value hvalue => yields_acceptKeyword_ite ?_ ?_
  · refine (readsExpression_disjunction hg).bind fun m test htest => yields_keyword_bind ?_
    refine hg.expression.bind fun q other hother => ?_
    exact yields_node rfl hstart (htest.child _ (hvalue.child _ (hother.child _ .nil))) fun n hn =>
      hn.mono (by omega)
  · exact yields_pure hvalue

end Expressions

end Scorecard.Source.Grammar
