import Scorecard.Proofs.Aggregation
import Scorecard.Proofs.Lines
import Scorecard.Proofs.RuleScores
import Scorecard.Proofs.Sections

set_option autoImplicit false

/-! # Renderings of a report

A report is rendered as plain text, as coloured text and as a document. The plain text splits into
blocks of lines at its empty lines (`textBlocks_text`), and each line of a block shows an entry of
the document. Colours only add escape sequences: if these are taken out of the coloured text, the
plain text is left (`withoutEscapes_text`).
-/

namespace Scorecard

/-! ## Escape sequences -/

/-- A character of the parameters of an escape sequence. -/
def isParameter (c : Char) : Bool := c.isDigit || c == ';'

/-- What follows the escape sequence at the start of a text: an escape character, a bracket,
parameters and the letter `m`. -/
def afterEscape? : List Char → Option (List Char)
  | '\x1b' :: '[' :: cs =>
    match cs.dropWhile isParameter with
    | 'm' :: rest => some rest
    | _ => none
  | _ => none

theorem length_afterEscape? {cs rest : List Char} (h : afterEscape? cs = some rest) :
    rest.length < cs.length := by
  unfold afterEscape? at h
  split at h
  · rename_i cs
    split at h
    · rename_i after hafter
      have hle := (List.dropWhile_sublist isParameter (l := cs)).length_le
      rw [hafter, List.length_cons] at hle
      obtain rfl := Option.some.inj h
      simp only [List.length_cons]
      omega
    · cases h
  · cases h

/-- The characters of a text that are not part of an escape sequence. -/
def dropEscapes : List Char → List Char
  | [] => []
  | c :: cs =>
    match _ : afterEscape? (c :: cs) with
    | some rest => dropEscapes rest
    | none => c :: dropEscapes cs
termination_by cs => cs.length
decreasing_by
  · exact length_afterEscape? ‹_›
  · exact Nat.lt_succ_self cs.length

/-- A text without its escape sequences. -/
def withoutEscapes (s : String) : String := String.ofList (dropEscapes s.toList)

theorem dropEscapes_of_afterEscape? {cs rest : List Char} (h : afterEscape? cs = some rest) :
    dropEscapes cs = dropEscapes rest := by
  cases cs with
  | nil => cases h
  | cons c cs =>
      rw [dropEscapes]
      split
      · rename_i after hafter
        rw [Option.some.inj (hafter.symm.trans h)]
      · rename_i hnone
        cases hnone.symm.trans h

theorem dropEscapes_cons {c : Char} (h : c ≠ '\x1b') (cs : List Char) :
    dropEscapes (c :: cs) = c :: dropEscapes cs := by
  have hnone : afterEscape? (c :: cs) = none := by
    unfold afterEscape?
    split
    · rename_i heq
      exact absurd (List.cons.inj heq).1 h
    · rfl
  rw [dropEscapes]
  split
  · rename_i rest hrest
    cases hnone.symm.trans hrest
  · rfl

/-- Without the escape sequences of a text, another one is left, whatever follows. -/
def Strips (coloured plain : String) : Prop :=
  ∀ rest, dropEscapes (coloured.toList ++ rest) = plain.toList ++ dropEscapes rest

theorem Strips.append {s s' t t' : String} (h : Strips s t) (h' : Strips s' t') :
    Strips (s ++ s') (t ++ t') := by
  intro rest
  rw [String.toList_append, String.toList_append, List.append_assoc, h, h', List.append_assoc]

theorem Strips.withoutEscapes_eq {s t : String} (h : Strips s t) : withoutEscapes s = t := by
  have hall := h []
  rw [List.append_nil, dropEscapes, List.append_nil] at hall
  rw [withoutEscapes, hall, String.ofList_toList]

theorem dropEscapes_append {cs : List Char} (h : '\x1b' ∉ cs) (rest : List Char) :
    dropEscapes (cs ++ rest) = cs ++ dropEscapes rest := by
  induction cs with
  | nil => rfl
  | cons c cs ih =>
      have hc : c ≠ '\x1b' := fun heq => h (heq ▸ List.mem_cons_self)
      rw [List.cons_append, dropEscapes_cons hc, ih fun hmem => h (List.mem_cons_of_mem c hmem),
        List.cons_append]

theorem strips_self {s : String} (h : '\x1b' ∉ s.toList) : Strips s s :=
  fun rest => dropEscapes_append h rest

theorem strips_escapeSequence {parameters : String} (h : parameters.toList.all isParameter = true) :
    Strips (escapeSequence parameters) "" := by
  intro rest
  have hdrop : (parameters.toList ++ 'm' :: rest).dropWhile isParameter = 'm' :: rest := by
    rw [List.dropWhile_append_of_pos (List.all_eq_true.mp h)]
    rfl
  have htext :
      (escapeSequence parameters).toList ++ rest =
        '\x1b' :: '[' :: (parameters.toList ++ 'm' :: rest) := by
    simp [escapeSequence, String.toList_append]
  rw [htext]
  apply dropEscapes_of_afterEscape?
  rw [afterEscape?, hdrop]
  rfl

/-- Emphasis only adds escape sequences. -/
theorem strips_emphasised (colour : Option Colour) {s : String} (h : '\x1b' ∉ s.toList) :
    Strips (emphasised colour s) s := by
  have hcolour : Strips (String.join (colour.toList.map fun c => escapeSequence c.code)) "" := by
    cases colour with
    | none => exact strips_self (by decide)
    | some c =>
        have hcode : c.code.toList.all isParameter = true := by cases c <;> decide
        simpa using strips_escapeSequence hcode
  have hbold : Strips (escapeSequence "1") "" := strips_escapeSequence (by decide)
  have hend : Strips (escapeSequence "0") "" := strips_escapeSequence (by decide)
  simpa [emphasised] using ((hcolour.append hbold).append (strips_self h)).append hend

/-- Lines can be stripped one by one. -/
theorem strips_intercalate {coloured plain : List String} (h : List.Forall₂ Strips coloured plain) :
    Strips ("\n".intercalate coloured) ("\n".intercalate plain) := by
  have hnewline : Strips "\n" "\n" := strips_self (by decide)
  induction h with
  | nil => exact strips_self (by decide)
  | cons hline hlines ih =>
      cases hlines with
      | nil => simpa using hline
      | cons hnext hrest =>
          rw [String.intercalate_cons_cons, String.intercalate_cons_cons]
          exact (hline.append hnewline).append ih

/-! ## Lines -/

/-- A text on one line without escape characters. -/
def IsPlain (s : String) : Prop := '\n' ∉ s.toList ∧ '\x1b' ∉ s.toList

instance (s : String) : Decidable (IsPlain s) := by
  unfold IsPlain
  infer_instance

theorem IsPlain.append {s t : String} (hs : IsPlain s) (ht : IsPlain t) : IsPlain (s ++ t) := by
  simp only [IsPlain, String.toList_append, List.mem_append]
  exact ⟨not_or.mpr ⟨hs.1, ht.1⟩, not_or.mpr ⟨hs.2, ht.2⟩⟩

theorem isPlain_of_digits {s : String} (h : ∀ c ∈ s.toList, c.isDigit = true) : IsPlain s :=
  ⟨fun hmem => absurd (h _ hmem) (by decide), fun hmem => absurd (h _ hmem) (by decide)⟩

theorem isDigit_of_mem_repr {n : ℕ} {c : Char} (h : c ∈ (Nat.repr n).toList) :
    c.isDigit = true := by
  rw [Nat.toList_repr] at h
  exact Nat.isDigit_of_mem_toDigits (by decide) (by decide) h

theorem isDigit_of_mem_padded {width n : ℕ} {c : Char} (h : c ∈ (Decimal.padded width n).toList) :
    c.isDigit = true := by
  rw [Decimal.padded, String.toList_append, List.mem_append] at h
  rcases h with h | h
  · rw [Decimal.zeros, String.toList_ofList] at h
    rw [List.eq_of_mem_replicate h]
    rfl
  · exact isDigit_of_mem_repr h

theorem isPlain_fixed (places : ℕ) (x : Number) : IsPlain (x.fixed places) := by
  have hsign : IsPlain x.signText := by
    unfold Number.signText
    split <;> decide
  have hdigits : ∀ {cs : List Char} {width n : ℕ}, cs ⊆ (Decimal.padded width n).toList →
      IsPlain (String.ofList cs) :=
    fun hsub => isPlain_of_digits fun c hc => isDigit_of_mem_padded
      (hsub (by rwa [String.toList_ofList] at hc))
  -- with and without a point there are only digits around it
  have hbody : ∀ k width, IsPlain
      (let digits := (Decimal.padded width k).toList
       let whole := digits.length - places
       if places = 0 then String.ofList digits
       else String.ofList (digits.take whole) ++ "." ++ String.ofList (digits.drop whole)) := by
    intro k width
    dsimp only
    split
    · exact hdigits (List.Subset.refl _)
    · exact ((hdigits (List.take_subset _ _)).append (by decide)).append
        (hdigits (List.drop_subset _ _))
  cases x with
  | finite x => exact hsign.append (hbody _ _)
  | negZero => exact hsign.append (hbody _ _)
  | infinite negative => exact hsign.append (by decide)
  | nan => exact (by decide : IsPlain "nan")

theorem isPlain_label (c : Category) : IsPlain c.label := by
  cases c <;> decide

/-- A line with something on it. -/
structure IsEntry (line : String) : Prop where
  plain : IsPlain line
  ne_empty : line ≠ ""

theorem isEntry_scoreLine (ρ : Rounding) (s : CategoryScore) : IsEntry (scoreLine ρ s) where
  plain :=
    (((IsPlain.append (by decide) (isPlain_label s.category)).append (by decide)).append
    (isPlain_fixed 1 _)).append (by decide)
  ne_empty := by simp [scoreLine]

theorem isEntry_recommendationLine {r : Recommendation} (h : IsPlain r.text) (n : ℕ) :
    IsEntry (recommendationLine r n) where
  plain := by
    have hnumber : IsPlain (Nat.repr n) := isPlain_of_digits fun _ => isDigit_of_mem_repr
    exact (((hnumber.append (by decide)).append (isPlain_label r.category)).append
      (by decide)).append h
  ne_empty := by simp [recommendationLine]

/-! ## Blocks -/

/-- The blocks of lines of a text: they are separated by empty lines. -/
def textBlocks (s : String) : List (List String) := (Text.splitOn '\n' s).splitOn ""

/-- Two texts can be compared block by block. -/
theorem forall₂_intercalate {R : String → String → Prop} (hempty : R "" "")
    {blocks blocks' : List (List String)} (h : List.Forall₂ (List.Forall₂ R) blocks blocks') :
    List.Forall₂ R ([""].intercalate blocks) ([""].intercalate blocks') := by
  induction h with
  | nil => exact .nil
  | cons hblock hblocks ih =>
      cases hblocks with
      | nil => simpa using hblock
      | cons hnext hrest =>
          rw [List.intercalate_cons_cons, List.intercalate_cons_cons]
          exact List.rel_append (List.rel_append hblock (.cons hempty .nil)) ih

/-- What holds of the empty line and of the lines of all blocks holds of the lines of a text. -/
theorem forall_mem_intercalate {p : String → Prop} (hempty : p "") {blocks : List (List String)}
    (h : ∀ block ∈ blocks, ∀ line ∈ block, p line) : ∀ line ∈ [""].intercalate blocks, p line := by
  have hsame : List.Forall₂ (List.Forall₂ fun line _ => p line) blocks blocks :=
    List.forall₂_same.mpr fun block hblock => List.forall₂_same.mpr (h block hblock)
  have hlines := List.forall₂_same.mp (forall₂_intercalate (R := fun line _ => p line) hempty hsame)
  exact hlines

/-- Blocks of lines with something on them are told apart by the empty lines between them. -/
theorem textBlocks_intercalate {blocks : List (List String)}
    (h : ∀ block ∈ blocks, ∀ line ∈ block, IsEntry line) (hne : [""].intercalate blocks ≠ []) :
    textBlocks ("\n".intercalate ([""].intercalate blocks)) = blocks := by
  have hlines : ∀ line ∈ [""].intercalate blocks, '\n' ∉ line.toList :=
    forall_mem_intercalate (by decide) fun block hblock line hline =>
      (h block hblock line hline).plain.1
  rw [textBlocks, Text.splitOn_intercalate rfl hlines hne]
  apply List.splitOn_intercalate
  · intro block hblock hmem
    exact (h block hblock "" hmem).ne_empty rfl
  · rintro rfl
    exact hne rfl

/-- The blocks of the text of a report, in which what stands out is shown by `title` and
`heading`. -/
def Report.blocks (ρ : Rounding) (title heading : String → String) (r : Report) :
    List (List String) :=
  [[title ("Overall Score: " ++ r.overall.fixed 1 ++ "/10")],
   heading "Category Scores:" :: r.scores.map (scoreLine ρ),
   heading "Top Strengths:" :: orNone (r.strengths.map (scoreLine ρ)),
   heading "Key Weaknesses:" :: orNone (r.weaknesses.map (scoreLine ρ)),
   heading "Recommendations:" :: orNone ((r.recommendations.zipIdx 1).map fun entry =>
     recommendationLine entry.1 entry.2)]

section Text

variable {ρ : Rounding} {r : Report}

theorem Report.lines_plain : r.lines ρ false = [""].intercalate (r.blocks ρ id id) := by
  simp [Report.lines, Report.blocks, List.intercalate_cons_cons]

theorem Report.lines_coloured :
    r.lines ρ true = [""].intercalate
      (r.blocks ρ (emphasised (some (scoreColour r.overall))) (emphasised none)) := by
  simp [Report.lines, Report.blocks, List.intercalate_cons_cons]

theorem forall_mem_orNone {p : String → Prop} (hnone : p "- None") {lines : List String}
    (h : ∀ line ∈ lines, p line) : ∀ line ∈ orNone lines, p line := by
  unfold orNone
  split
  · exact List.forall_mem_singleton.mpr hnone
  · exact h

/-- Every line of a block has something on it. -/
theorem isEntry_blocks (h : ∀ rec ∈ r.recommendations, IsPlain rec.text) :
    ∀ block ∈ r.blocks ρ id id, ∀ line ∈ block, IsEntry line := by
  have hoverall : IsEntry ("Overall Score: " ++ r.overall.fixed 1 ++ "/10") :=
    ⟨(IsPlain.append (by decide) (isPlain_fixed 1 _)).append (by decide), by simp⟩
  have hnone : IsEntry "- None" := ⟨by decide, by decide⟩
  have hscores : ∀ scores : List CategoryScore, ∀ line ∈ scores.map (scoreLine ρ), IsEntry line :=
    fun scores => List.forall_mem_map.mpr fun s _ => isEntry_scoreLine ρ s
  have hrecommendations :
      ∀ line ∈ (r.recommendations.zipIdx 1).map fun entry => recommendationLine entry.1 entry.2,
        IsEntry line :=
    List.forall_mem_map.mpr fun entry hentry => isEntry_recommendationLine
      (h _ (List.fst_mem_of_mem_zipIdx hentry)) _
  simp only [Report.blocks, List.forall_mem_cons, List.not_mem_nil, false_implies, implies_true,
    and_true, id]
  exact ⟨hoverall, ⟨⟨by decide, by decide⟩, hscores _⟩,
    ⟨⟨by decide, by decide⟩, forall_mem_orNone hnone (hscores _)⟩,
    ⟨⟨by decide, by decide⟩, forall_mem_orNone hnone (hscores _)⟩, ⟨by decide, by decide⟩,
      forall_mem_orNone hnone hrecommendations⟩

theorem textBlocks_text (h : ∀ rec ∈ r.recommendations, IsPlain rec.text) :
    textBlocks (r.text ρ false) = r.blocks ρ id id := by
  rw [Report.text, Report.lines_plain]
  exact textBlocks_intercalate (isEntry_blocks h)
    (by simp [Report.blocks, List.intercalate_cons_cons])

/-- **Colours only add escape sequences.** -/
theorem withoutEscapes_text (h : ∀ rec ∈ r.recommendations, IsPlain rec.text) :
    withoutEscapes (r.text ρ true) = r.text ρ false := by
  have hplain : ∀ block ∈ r.blocks ρ id id, ∀ line ∈ block, IsEntry line := isEntry_blocks h
  simp only [Report.blocks, List.forall_mem_cons, List.not_mem_nil, false_implies, implies_true,
    and_true, id] at hplain
  obtain ⟨hoverall, ⟨hcategory, hscores⟩, ⟨hstrength, hstrengths⟩, ⟨hweakness, hweaknesses⟩,
    hrecommendation, hrecommendations⟩ :=
    hplain
  have hsame : ∀ {lines : List String}, (∀ line ∈ lines, IsEntry line) →
      List.Forall₂ Strips lines lines :=
    fun hlines => List.forall₂_same.mpr fun line hline => strips_self (hlines line hline).plain.2
  have hbold : ∀ colour {line : String}, IsEntry line → Strips (emphasised colour line) line :=
    fun colour _ hline => strips_emphasised colour hline.plain.2
  rw [Report.text, Report.text, Report.lines_plain, Report.lines_coloured]
  apply Strips.withoutEscapes_eq
  apply strips_intercalate
  refine forall₂_intercalate (strips_self (by decide)) ?_
  exact .cons (.cons (hbold _ hoverall) .nil) (.cons (.cons (hbold _ hcategory) (hsame hscores))
    (.cons (.cons (hbold _ hstrength) (hsame hstrengths))
      (.cons (.cons (hbold _ hweakness) (hsame hweaknesses))
      (.cons (.cons (hbold _ hrecommendation) (hsame hrecommendations)) .nil))))

end Text

/-! ## Documents -/

/-- A line shows the entry of a category in a document: its name, and its score with one decimal
place. -/
def ShowsScore (entry : Value) (line : String) : Prop :=
  ∃ name score, entry.at "name" = .text name ∧ entry.at "score" = .number score ∧
    line = "- " ++ name ++ ": " ++ score.fixed 1 ++ "/10"

/-- A line shows the entry of the category with a slug. -/
def ShowsCategory (entries : List Value) (slug : Value) (line : String) : Prop :=
  ∃ entry ∈ entries, entry.at "category" = slug ∧ ShowsScore entry line

/-- A line shows a recommendation and its number: the name of its category and its text. -/
def ShowsRecommendation (entries : List Value) (item : Value × ℕ) (line : String) : Prop :=
  ∃ entry ∈ entries, entry.at "category" = item.1.at "category" ∧
    ∃ name text, entry.at "name" = .text name ∧
    item.1.at "text" = .text text ∧ line = Nat.repr item.2 ++ ". [" ++ name ++ "] " ++ text

/-- Lines list some items: each line shows one of them, in their order, or one line says that there
are none. -/
structure Lists {α : Type} (Shows : α → String → Prop) (items : List α) (lines : List String) :
    Prop where
  none_iff : lines = ["- None"] ↔ items = []
  each : items ≠ [] → List.Forall₂ Shows items lines

theorem lists_orNone {α : Type} {Shows : α → String → Prop} {items : List α} {lines : List String}
    (h : List.Forall₂ Shows items lines) (hne : ∀ line ∈ lines, line ≠ "- None") :
    Lists Shows items (orNone lines) := by
  cases h with
  | nil => exact ⟨iff_of_true rfl rfl, fun hnil => absurd rfl hnil⟩
  | cons hfirst hrest =>
      refine ⟨iff_of_false ?_ (List.cons_ne_nil _ _), fun _ => .cons hfirst hrest⟩
      intro hnone
      exact hne _ List.mem_cons_self (List.cons.inj hnone).1

theorem scoreLine_ne_none (ρ : Rounding) (s : CategoryScore) : scoreLine ρ s ≠ "- None" := by
  intro heq
  have hlast : (scoreLine ρ s).toList.getLast? = some '0' := by
    rw [scoreLine, String.toList_append, List.getLast?_append]
    rfl
  rw [heq] at hlast
  revert hlast
  decide

theorem recommendationLine_ne_none (r : Recommendation) (n : ℕ) :
    recommendationLine r n ≠ "- None" := by
  intro heq
  obtain ⟨c, cs, hcs⟩ := List.exists_cons_of_ne_nil (Nat.toDigits_ne_nil (n := n) (b := 10))
  have hdigit : c.isDigit = true :=
    isDigit_of_mem_repr (n := n) (by rw [Nat.toList_repr, hcs]; exact List.mem_cons_self)
  have hfirst := congrArg (fun line => line.toList.head?) heq
  simp [recommendationLine, String.toList_append, Nat.toList_repr, hcs] at hfirst
  rw [hfirst] at hdigit
  cases hdigit

section Document

variable (ρ : Rounding) (scores listed : List CategoryScore)

/-- The entries of scores in a document. -/
def documentEntries (ρ : Rounding) (scores : List CategoryScore) : List Value :=
  scores.map fun s => .table (s.toFields ρ)

theorem showsScore_scoreLine (s : CategoryScore) :
    ShowsScore (.table (s.toFields ρ)) (scoreLine ρ s) :=
  ⟨s.category.label, s.score ρ, rfl, rfl, rfl⟩

theorem forall₂_showsScore : List.Forall₂ ShowsScore (documentEntries ρ scores)
    (scores.map (scoreLine ρ)) := by
  rw [documentEntries, List.forall₂_map_left_iff, List.forall₂_map_right_iff]
  exact List.forall₂_same.mpr fun s _ => showsScore_scoreLine ρ s

variable {scores listed}

theorem lists_section (h : ∀ s ∈ listed, s ∈ scores) :
    Lists (ShowsCategory (documentEntries ρ scores)) (listed.map fun s => .text s.category.slug)
      (orNone (listed.map (scoreLine ρ))) := by
  refine lists_orNone ?_ (List.forall_mem_map.mpr fun s _ => scoreLine_ne_none ρ s)
  rw [List.forall₂_map_left_iff, List.forall₂_map_right_iff]
  exact List.forall₂_same.mpr fun s hs =>
    ⟨_, List.mem_map_of_mem (h s hs), rfl, showsScore_scoreLine ρ s⟩

theorem lists_recommendations (h : ∀ c, ∃ s ∈ scores, s.category = c) (recs : List Recommendation) :
    Lists (ShowsRecommendation (documentEntries ρ scores))
      ((recs.map Recommendation.toValue).zipIdx 1)
      (orNone ((recs.zipIdx 1).map fun entry => recommendationLine entry.1 entry.2)) := by
  refine lists_orNone ?_ (List.forall_mem_map.mpr fun entry _ =>
    recommendationLine_ne_none entry.1 entry.2)
  rw [List.zipIdx_map, List.forall₂_map_left_iff, List.forall₂_map_right_iff]
  refine List.forall₂_same.mpr fun entry _ => ?_
  obtain ⟨s, hs, hcategory⟩ := h entry.1.category
  refine ⟨_, List.mem_map_of_mem hs, ?_, s.category.label, entry.1.text, rfl, rfl, ?_⟩
  · show Value.text s.category.slug = .text entry.1.category.slug
    rw [hcategory]
  · rw [recommendationLine, hcategory]
    rfl

end Document

/-- What the document of a report has in its fields. There is one entry for each category, in their
order, with its slug and its name. -/
structure HasParts (document : Value) (overall : Number) (entries strong weak recs : List Value) :
    Prop where
  overall_score : document.at "overall_score" = .number overall
  categories : document.at "categories" = .list entries
  strengths : document.at "strengths" = .list strong
  weaknesses : document.at "weaknesses" = .list weak
  recommendations : document.at "recommendations" = .list recs
  names :
      entries.map (fun entry => (entry.at "category", entry.at "name")) = Category.all.map fun c =>
        (.text c.slug, .text c.label)

theorem hasParts_toValue {ρ : Rounding} {r : Report} (h : r.scores.map (·.category) = Category.all)
    (source : String) (time : Option String) :
    HasParts (r.toValue ρ source time) r.overall (documentEntries ρ r.scores)
      (r.strengths.map fun s => .text s.category.slug)
      (r.weaknesses.map fun s => .text s.category.slug)
        (r.recommendations.map Recommendation.toValue) where
  overall_score := rfl
  categories := rfl
  strengths := rfl
  weaknesses := rfl
  recommendations := rfl
  names := by
    rw [← h, documentEntries, List.map_map, List.map_map]
    rfl

/-- **The renderings of a report agree.** The plain text has five blocks of lines: the overall
score, the ten categories, the strengths, the weaknesses and the recommendations. A line of the
categories shows the name and the score of the entry of the document in the same place. The lines of
the strengths show the entries of the categories that the document lists there, in the same order,
and one line says that there are none exactly if it lists none; so do those of the weaknesses. The
recommendations are those of the document, in their order, numbered from one, each with the name of
its category. The coloured text without its escape sequences is the plain text. -/
theorem renderings_agree (ρ : Rounding) (scores : List CategoryScore) (overrides : Weights)
    (bounds : ReportBounds) (r : Report) (h : aggregate ρ scores overrides bounds = .ok r)
    (htexts : ∀ rec ∈ r.recommendations, IsPlain rec.text) (source : String)
    (time : Option String) :
    (∃ overall entries strong weak recs,
      HasParts (r.toValue ρ source time) overall entries strong weak recs ∧
      ∃ categories strengths weaknesses recommendations : List String,
        textBlocks (r.text ρ false) =
          [["Overall Score: " ++ overall.fixed 1 ++ "/10"],
           "Category Scores:" :: categories, "Top Strengths:" :: strengths,
           "Key Weaknesses:" :: weaknesses, "Recommendations:" :: recommendations] ∧
        categories.length = 10 ∧ List.Forall₂ ShowsScore entries categories ∧
        Lists (ShowsCategory entries) strong strengths ∧
        Lists (ShowsCategory entries) weak weaknesses ∧
        Lists (ShowsRecommendation entries) (recs.zipIdx 1) recommendations) ∧
    withoutEscapes (r.text ρ true) = r.text ρ false := by
  have hcategories := aggregate_categories h
  obtain ⟨weights, -, hreport⟩ := aggregate_reportOf h
  obtain ⟨hstrong, hweak⟩ := List.forall_mem_append.mp (mem_of_mem_section hreport)
  -- every category has an entry, so the names of the lists can be looked up
  have hscore : ∀ c, ∃ s ∈ r.scores, s.category = c := by
    intro c
    have hmem : c ∈ r.scores.map (·.category) := hcategories ▸ Category.mem_all c
    exact List.mem_map.mp hmem
  have hten : (r.scores.map (scoreLine ρ)).length = 10 := by
    rw [List.length_map, ← List.length_map (·.category), hcategories]
    rfl
  exact ⟨⟨_, _, _, _, _, hasParts_toValue hcategories source time, _, _, _, _,
    textBlocks_text htexts, hten, forall₂_showsScore ρ r.scores,
    lists_section ρ hstrong, lists_section ρ hweak,
      lists_recommendations ρ hscore r.recommendations⟩, withoutEscapes_text htexts⟩

/-- A finding on the name of a class. -/
def nameFinding : Finding where
  ruleId := "naming.class_names"
  kind := "naming.class_names"
  message := ""
  location := ⟨"a.py", .int 3, .int 3⟩
  suggestion := "Rename classes to CapWords."

/-- Scores that are neither high nor low, with two findings on names. -/
def middlingScores : List CategoryScore :=
  Category.all.map fun c =>
    { category := c, rawScore := .finite 7
      findings := if c = .naming then [nameFinding, nameFinding] else [] }

theorem exists_middlingReport :
    ∃ r, aggregate .nearest middlingScores [] {} = .ok r ∧ r.strengths = [] ∧ r.recommendations =
      [⟨.naming, "naming.class_names", "Rename classes to CapWords (2 findings, first at a.py:3).",
        2⟩] := by
  have hcomplete : CompleteScores middlingScores := List.Perm.of_eq (by decide)
  have hsorted : middlingScores.Pairwise fun a b => inOrder a b = true := by decide
  have hfilter :
      middlingScores.filter (fun s => Number.le (.finite 9) (s.score .nearest)) = [] := by
        decide +kernel
  -- the scores are in order already, which saves to evaluate the sort
  have hrecommended : recommendations 5 middlingScores =
      .ok [⟨.naming, "naming.class_names",
        "Rename classes to CapWords (2 findings, first at a.py:3).", 2⟩] := by
    rw [recommendations, if_neg (by decide), List.mergeSort_of_pairwise hsorted]
    decide +kernel
  have hwritable : AreWritable ({} : ReportBounds).most middlingScores :=
    exists_recommendations_iff.mp ⟨_, hrecommended⟩
  obtain ⟨scoreOf, r, -, -, -, hreport, -⟩ := hcomplete.exists_report Rounding.isMonotone_nearest
    (by decide +kernel) Weights.resolve_nil (Weights.resolve_eq_ok Weights.resolve_nil).1 hwritable
  have hof := hreport
  rw [aggregate_eq_reportOf hcomplete Weights.resolve_nil, filterMap_scoreOf? (by decide)] at hof
  obtain ⟨rs, hrs, rfl⟩ := eq_of_reportOf hof
  refine ⟨_, hreport, ?_, Except.ok.inj (hrs.symm.trans hrecommended)⟩
  · show (middlingScores.filter fun s => Number.le (.finite 9) (s.score .nearest)).mergeSort
      (strongerFirst .nearest) = []
    rw [hfilter, List.mergeSort_nil]

/-- A report without strengths and with one recommendation. -/
theorem renderings_agree_middling :
    ∃ r, aggregate .nearest middlingScores [] {} = .ok r ∧
      (∀ rec ∈ r.recommendations, IsPlain rec.text) ∧
      (∃ title categories weaknesses, textBlocks (r.text .nearest false) =
        [[title], "Category Scores:" :: categories, ["Top Strengths:", "- None"],
          "Key Weaknesses:" :: weaknesses,
         ["Recommendations:",
           "1. [Naming] Rename classes to CapWords (2 findings, first at a.py:3)."]]) ∧
      withoutEscapes (r.text .nearest true) = r.text .nearest false := by
  obtain ⟨r, hreport, hstrengths, hrecs⟩ := exists_middlingReport
  have hplain : ∀ rec ∈ r.recommendations, IsPlain rec.text := by
    rw [hrecs]
    decide +kernel
  obtain ⟨⟨overall, entries, strong, weak, recs, hparts, categories, strengths, weaknesses, lines,
    hblocks, -, -, hstrong, -, hlines⟩,
    hstripped⟩ := renderings_agree .nearest middlingScores [] {} r hreport hplain "." none
  have hempty : Value.list strong = slugs r.strengths := hparts.strengths.symm.trans rfl
  rw [hstrengths] at hempty
  have hsingle : Value.list recs = .list (r.recommendations.map Recommendation.toValue) :=
    hparts.recommendations.symm.trans rfl
  rw [hrecs] at hsingle
  obtain rfl := Value.list.inj hsingle
  obtain ⟨line, rest, ⟨entry, hentry, hslug, name, text, hname, htext, rfl⟩, hrest, rfl⟩ :=
    List.forall₂_cons_left_iff.mp (hlines.each (List.cons_ne_nil _ _))
  obtain rfl := List.forall₂_nil_left_iff.mp hrest
  obtain rfl := Value.text.inj htext
  -- the slug of the recommendation is that of one category only
  have hentries :
      (entry.at "category", entry.at "name") ∈ Category.all.map fun c =>
        (Value.text c.slug, Value.text c.label) :=
    hparts.names ▸ List.mem_map_of_mem hentry
  obtain ⟨c, -, hc⟩ := List.mem_map.mp hentries
  obtain ⟨hc, hlabel⟩ := Prod.mk.inj hc
  obtain rfl := Value.text.inj (hname.symm.trans hlabel.symm)
  have hnaming : c = .naming := by
    have hof : Category.ofSlug? c.slug = some c := by cases c <;> decide
    rw [Value.text.inj (hc.trans hslug)] at hof
    exact Option.some.inj (hof.symm.trans (by decide))
  rw [hstrong.none_iff.mpr (Value.list.inj hempty), hnaming] at hblocks
  exact ⟨r, hreport, hplain, ⟨_, categories, weaknesses, hblocks⟩, hstripped⟩

end Scorecard
