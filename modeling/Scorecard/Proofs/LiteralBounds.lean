import Scorecard.Proofs.TokenBounds
import Scorecard.Source.Literal

set_option autoImplicit false

/-! # How much a formatted literal holds

The pieces of a formatted literal are read from its body, field after field. The expressions of the
fields stand apart from each other in the body, so what the pieces cost is bounded by its length,
and each expression lies on the lines of the literal (`formattedPieces_bounds`).
-/

namespace Scorecard.Source.Literal

mutual

/-- What the nodes of some pieces cost. An expression is read with parentheses around it, and what
is read leaves six over. -/
def piecesPrice : List Piece → Nat
  | [] => 0
  | .text _ :: rest => 1 + piecesPrice rest
  | .field expression _ _ format :: rest =>
      8 * expression.length + 11 + formatPrice format + piecesPrice rest

/-- What the node of a format costs. -/
def formatPrice : Option (List Piece) → Nat
  | none => 0
  | some inner => 1 + piecesPrice inner

end

mutual

/-- The expressions of the fields of a literal with `breaks` line ends lie on its lines. -/
def PiecesWithin (breaks : Nat) : List Piece → Prop
  | [] => True
  | .text _ :: rest => PiecesWithin breaks rest
  | .field expression below _ format :: rest =>
    below + lineBreaks expression ≤ breaks ∧ FormatWithin breaks format ∧ PiecesWithin breaks rest

def FormatWithin (breaks : Nat) : Option (List Piece) → Prop
  | none => True
  | some inner => PiecesWithin breaks inner

end

theorem piecesPrice_append (ps qs : List Piece) :
    piecesPrice (ps ++ qs) = piecesPrice ps + piecesPrice qs := by
  induction ps with
  | nil => simp [piecesPrice]
  | cons p ps ih =>
      cases p with
      | text cs => simp only [List.cons_append, piecesPrice, ih, Nat.add_assoc]
      | field e below conversion format =>
          simp only [List.cons_append, piecesPrice, ih, Nat.add_assoc]

theorem piecesWithin_append {breaks : Nat} {ps qs : List Piece} (hp : PiecesWithin breaks ps)
    (hq : PiecesWithin breaks qs) : PiecesWithin breaks (ps ++ qs) := by
  induction ps with
  | nil => exact hq
  | cons p ps ih =>
      cases p with
      | text cs =>
          simp only [List.cons_append, PiecesWithin] at hp ⊢
          exact ih hp
      | field e below conversion format =>
          simp only [List.cons_append, PiecesWithin] at hp ⊢
          exact ⟨hp.1, hp.2.1, ih hp.2.2⟩

/-! ## Parts of a literal -/

/-- What is left after a run of literal text. A doubled brace is taken. -/
structure RunOf (cs : List Char) (run : LiteralRun) : Prop where
  suffix : run.rest <:+ cs
  closed : run.closed = true → run.rest.length + 2 ≤ cs.length

theorem RunOf.cons {c : Char} {cs : List Char} {run : LiteralRun} (h : RunOf cs run) :
    RunOf (c :: cs) run where
  suffix := h.suffix.trans (List.suffix_cons _ _)
  closed hclosed := (h.closed hclosed).trans (Nat.le_succ _)

theorem atBrace_runOf {inFormat : Bool} {done cs : List Char} {c : Char} {run : LiteralRun}
    (h : atBrace inFormat done c cs = some run) : RunOf (c :: cs) run := by
  unfold atBrace at h
  split at h
  · cases h
    exact ⟨List.suffix_refl _, by simp⟩
  · split at h
    · cases h
      cases cs with
      | nil => simp at *
      | cons d cs => exact ⟨(List.suffix_cons _ _).trans (List.suffix_cons _ _), fun _ => le_refl _⟩
    · split at h <;> cases h
      exact ⟨List.suffix_refl _, by simp⟩

theorem literalRun_runOf {isRaw inFormat naming : Bool} {done cs : List Char} {run : LiteralRun}
    (h : literalRun isRaw inFormat naming done cs = some run) : RunOf cs run := by
  fun_induction literalRun isRaw inFormat naming done cs with
  | case1 =>
      cases h
      exact ⟨List.suffix_refl _, by simp⟩
  | case2 => exact atBrace_runOf h
  | case3 =>
      cases h
      exact ⟨List.nil_suffix, by simp⟩
  | case4 =>
      rename_i ih
      exact (ih h).cons
  | case5 =>
      rename_i ih
      exact (ih h).cons.cons
  | case6 => exact (atBrace_runOf h).cons
  | case7 =>
      rename_i ih
      exact (ih h).cons.cons
  | case8 => exact atBrace_runOf h
  | case9 =>
      rename_i ih
      exact (ih h).cons

/-- The expression of a field stands at its front. -/
theorem fieldExpression_eq {skip : Nat} {quote : Option (Char × Bool)}
    {brackets done cs expression rest : List Char}
    (h : fieldExpression skip quote brackets done cs = some (expression, rest)) :
    done.reverse ++ cs = expression ++ rest := by
  induction cs generalizing skip quote brackets done with
  | nil => cases h
  | cons c cs ih =>
      have hgo : ∀ {skip : Nat} {quote : Option (Char × Bool)} {brackets : List Char},
          fieldExpression skip quote brackets (c :: done) cs = some (expression, rest) →
            done.reverse ++ c :: cs = expression ++ rest :=
        fun hmore => by simpa using ih hmore
      -- every branch takes `c` and goes on, ends before it, or fails
      rw [fieldExpression.eq_def] at h
      dsimp only at h
      repeat' split at h
      all_goals first
        | exact hgo h
        | cases h
      rfl

theorem conversion?_suffix {cs rest : List Char} {conversion : Option Char}
    (h : conversion? cs = some (conversion, rest)) : rest <:+ cs := by
  unfold conversion? at h
  split at h
  · split at h <;> cases h
    exact (List.suffix_cons _ _).trans (List.suffix_cons _ _)
  · cases h
  · cases h
    exact List.suffix_refl _

/-! ## Pieces -/

/-- Some pieces cost no more than the text they were read from and a few nodes around them. -/
structure PiecesFrom (breaks around : Nat) (cs : List Char) (ps : List Piece) (rest : List Char) :
    Prop where
  suffix : rest <:+ cs
  price : piecesPrice ps + 8 * rest.length ≤ 8 * cs.length + around
  within : PiecesWithin breaks ps

/-- A reader of pieces, which get at most `around` nodes around what is read from the text. -/
def ReadsPieces (breaks around : Nat) (read : List Char → Option (List Piece × List Char)) : Prop :=
  ∀ cs ps rest, lineBreaks cs ≤ breaks → read cs = some (ps, rest) →
    PiecesFrom breaks around cs ps rest

theorem shownText_price (expression cs : List Char) :
    (shownText expression cs).2 <:+ cs ∧
      piecesPrice ((shownText expression cs).1.toList.map Piece.text) +
        8 * (shownText expression cs).2.length ≤ 8 * cs.length := by
  unfold shownText
  split
  · rename_i after
    have hafter := List.dropWhile_suffix (l := after) isSpacing
    have hlength := hafter.length_le
    refine ⟨hafter.trans (List.suffix_cons _ _), ?_⟩
    simp only [Option.toList, List.map_cons, List.map_nil, piecesPrice, List.length_cons]
    omega
  · exact ⟨List.suffix_refl _, by simp [piecesPrice]⟩

theorem fieldFormat_price {breaks : Nat} {inner : List Char → Option (List Piece × List Char)}
    {cs rest : List Char} {format : Option (List Piece)} (hinner : ReadsPieces breaks 1 inner)
    (hbreaks : lineBreaks cs ≤ breaks) (h : fieldFormat inner cs = some (format, rest)) :
    rest <:+ cs ∧ formatPrice format + 8 * rest.length ≤ 8 * cs.length ∧
      FormatWithin breaks format := by
  unfold fieldFormat at h
  split at h
  · rename_i after
    obtain ⟨⟨found, last⟩, hfound, heq⟩ := Option.map_eq_some_iff.mp h
    cases heq
    have hafter := List.suffix_cons ':' after
    have hfrom := hinner _ _ _ ((lineBreaks_le_of_suffix hafter).trans hbreaks) hfound
    have hprice := hfrom.price
    refine ⟨hfrom.suffix.trans hafter, ?_, ?_⟩
    · rw [formatPrice, List.length_cons]
      dsimp only
      omega
    · rw [FormatWithin]
      exact hfrom.within
  · cases h
    refine ⟨List.suffix_refl _, ?_, ?_⟩
    · rw [formatPrice, Nat.zero_add]
    · rw [FormatWithin]
      trivial

theorem piecesWithin_map_text (breaks : Nat) (texts : List (List Char)) :
    PiecesWithin breaks (texts.map Piece.text) := by
  induction texts with
  | nil => simp only [List.map_nil, PiecesWithin]
  | cons text texts ih => simpa only [List.map_cons, PiecesWithin] using ih

variable [Text.CharacterNames]

theorem readsPieces_pieces_succ {fuel : Nat} {isRaw : Bool} {breaks level : Nat}
    (hpieces : ReadsPieces breaks 1 (pieces fuel isRaw breaks level))
    (hfield : ReadsPieces breaks 3 (fieldPieces fuel isRaw breaks level)) :
    ReadsPieces breaks 1 (pieces (fuel + 1) isRaw breaks level) := by
  intro cs ps rest hbreaks h
  rw [pieces] at h
  obtain ⟨run, hrun, h⟩ := Option.bind_eq_some_iff.mp h
  obtain ⟨text, -, h⟩ := Option.bind_eq_some_iff.mp h
  have hof := literalRun_runOf hrun
  have hlength := hof.suffix.length_le
  have hrest := (lineBreaks_le_of_suffix hof.suffix).trans hbreaks
  split at h
  · rename_i hclosed
    obtain ⟨⟨more, after⟩, hmore, heq⟩ := Option.bind_eq_some_iff.mp h
    cases heq
    -- a brace that stands for itself: the two braces that were taken pay for the text
    have hfrom := hpieces _ _ _ hrest hmore
    have hprice := hfrom.price
    have htaken := hof.closed hclosed
    refine ⟨hfrom.suffix.trans hof.suffix, ?_, ?_⟩
    · rw [piecesPrice]
      omega
    · simp only [PiecesWithin]
      exact hfrom.within
  · split at h
    · rename_i inside heq
      rw [heq] at hlength hrest
      have hinside : inside <:+ cs := (List.suffix_cons _ _).trans (heq ▸ hof.suffix)
      obtain ⟨⟨field, after⟩, hread, h⟩ := Option.bind_eq_some_iff.mp h
      obtain ⟨⟨more, last⟩, hmore, heq⟩ := Option.bind_eq_some_iff.mp h
      cases heq
      -- a field: its opening brace pays for the text before it
      have hfirst := hfield _ _ _ ((lineBreaks_le_of_suffix hinside).trans hbreaks) hread
      have hlast :=
        hpieces _ _ _ ((lineBreaks_le_of_suffix (hfirst.suffix.trans hinside)).trans hbreaks) hmore
      have hprice := hfirst.price
      have hprice' := hlast.price
      refine ⟨hlast.suffix.trans (hfirst.suffix.trans hinside), ?_, ?_⟩
      · rw [List.cons_append, piecesPrice, piecesPrice_append]
        rw [List.length_cons] at hlength
        omega
      · simp only [List.cons_append, PiecesWithin]
        exact piecesWithin_append hfirst.within hlast.within
    · cases h
      refine ⟨hof.suffix, ?_, ?_⟩
      · simp only [piecesPrice]
        omega
      · simp only [PiecesWithin]

theorem readsPieces_fieldPieces_succ {fuel : Nat} {isRaw : Bool} {breaks level : Nat}
    (hpieces : ReadsPieces breaks 1 (pieces fuel isRaw breaks (level + 1))) :
    ReadsPieces breaks 3 (fieldPieces (fuel + 1) isRaw breaks level) := by
  intro cs ps rest hbreaks h
  rw [fieldPieces] at h
  split at h
  · cases h
  obtain ⟨⟨expression, after⟩, hexpression, h⟩ := Option.bind_eq_some_iff.mp h
  have hcs : cs = expression ++ after := by simpa using fieldExpression_eq hexpression
  dsimp only at h
  split at h
  · cases h
  obtain ⟨⟨conversion, afterConversion⟩, hconversion, h⟩ := Option.bind_eq_some_iff.mp h
  obtain ⟨⟨format, afterFormat⟩, hformat, h⟩ := Option.bind_eq_some_iff.mp h
  obtain ⟨hshown, hshownPrice⟩ := shownText_price expression after
  have hconversion := conversion?_suffix hconversion
  have hbefore : afterConversion <:+ cs :=
    hconversion.trans (hshown.trans (hcs ▸ List.suffix_append _ _))
  obtain ⟨hafter, hformatPrice, hformatWithin⟩ :=
    fieldFormat_price hpieces ((lineBreaks_le_of_suffix hbefore).trans hbreaks) hformat
  have hlength := hconversion.length_le
  have hcsLength := congrArg List.length hcs
  -- the breaks before the field and those in its expression are together no more than the literal
  -- has
  have hcsBreaks := congrArg lineBreaks hcs
  rw [List.length_append] at hcsLength
  rw [lineBreaks_append] at hcsBreaks
  unfold closeField at h
  dsimp only at h
  split at h <;> cases h
  refine ⟨(List.suffix_cons _ _).trans (hafter.trans hbefore), ?_, ?_⟩
  · simp only [piecesPrice_append, piecesPrice]
    rw [List.length_cons] at hformatPrice
    omega
  · refine piecesWithin_append (piecesWithin_map_text _ _) ?_
    simp only [PiecesWithin]
    exact ⟨by omega, hformatWithin, trivial⟩

theorem readsPieces (fuel : Nat) (isRaw : Bool) (breaks level : Nat) :
    ReadsPieces breaks 1 (pieces fuel isRaw breaks level) ∧ ReadsPieces breaks 3
      (fieldPieces fuel isRaw breaks level) := by
  induction fuel generalizing level with
  | zero =>
      refine ⟨fun cs ps rest _ h => ?_, fun cs ps rest _ h => ?_⟩
      · rw [pieces] at h
        cases h
      · rw [fieldPieces] at h
        cases h
  -- the format of a field holds pieces one level deeper, which is why the level is general
  | succ fuel ih =>
      exact ⟨readsPieces_pieces_succ (ih level).1 (ih level).2,
        readsPieces_fieldPieces_succ (ih (level + 1)).1⟩

/-- **The pieces of a formatted literal** cost no more than its body and one node, and lie on its
lines. -/
theorem formattedPieces_bounds {q : Quoted} {ps : List Piece} (h : formattedPieces q = some ps) :
    piecesPrice ps ≤ 8 * q.body.length + 1 ∧ PiecesWithin (lineBreaks q.body) ps := by
  obtain ⟨⟨found, rest⟩, hfound, h⟩ := Option.bind_eq_some_iff.mp h
  dsimp only at h
  split at h <;> cases h
  have hfrom := (readsPieces _ _ _ _).1 _ _ _ (le_refl _) hfound
  exact ⟨(Nat.le_add_right _ _).trans hfrom.price, hfrom.within⟩

end Scorecard.Source.Literal
