import Mathlib.Data.List.Basic
import Mathlib.Order.Nat
import Scorecard.Text.Blank

set_option autoImplicit false

/-! # Lines of a text

Two ways to divide a text into lines: at newlines only (`newlineLines`), and at every character that
ends a line (`lines`). In a text without carriage returns the second way divides the lines of the
first further, at the other line ends in them (`linesFrom_nil_eq`). So it counts one line more for
each of them that is not at the very end of the text (`length_lines_eq`), and both ways agree if
there are none (`lines_eq_newlineLines_iff`).
-/

namespace Scorecard.Text

/-! ## Parts between separators -/

section

variable {p q : Char → Bool} {cs : List Char}

theorem splitOnP_congr (h : ∀ c ∈ cs, p c = q c) : cs.splitOnP p = cs.splitOnP q := by
  induction cs with
  | nil => rfl
  | cons c cs ih =>
      obtain ⟨hc, hcs⟩ := List.forall_mem_cons.mp h
      rw [List.splitOnP_cons_eq_if_modifyHead, List.splitOnP_cons_eq_if_modifyHead, hc, ih hcs]

/-- Separators of two sorts: the parts between those of the first sort are divided at those of the
second. -/
theorem splitOnP_or (p q : Char → Bool) (cs : List Char) :
    cs.splitOnP (fun c => p c || q c) = (cs.splitOnP p).flatMap (·.splitOnP q) := by
  induction cs with
  | nil => rfl
  | cons c cs ih =>
      by_cases hp : p c = true
      · rw [List.splitOnP_cons_eq_if_modifyHead, List.splitOnP_cons_eq_if_modifyHead, if_pos hp,
          if_pos (by rw [hp]; rfl), ih]
        rfl
      · obtain ⟨first, more, hparts⟩ := List.exists_cons_of_ne_nil (List.splitOnP_ne_nil p cs)
        rw [List.splitOnP_cons_eq_if_modifyHead, List.splitOnP_cons_eq_if_modifyHead, if_neg hp, ih,
          hparts, List.modifyHead_cons,
          List.flatMap_cons, List.flatMap_cons, List.splitOnP_cons_eq_if_modifyHead]
        by_cases hq : q c = true
        · rw [if_pos (by rw [hq, Bool.or_true]), if_pos hq]
          rfl
        · obtain ⟨first', more', hinner⟩ :=
            List.exists_cons_of_ne_nil (List.splitOnP_ne_nil q first)
          rw [if_neg (by simp [hp, hq]), if_neg hq, hinner]
          rfl

/-- What has no separators in it stands in front of the first part. -/
theorem splitOnP_append {before : List Char} (h : ∀ c ∈ before, p c = false) (cs : List Char) :
    (before ++ cs).splitOnP p = (cs.splitOnP p).modifyHead (before ++ ·) := by
  induction before with
  | nil =>
      rw [List.nil_append]
      obtain ⟨first, more, hparts⟩ := List.exists_cons_of_ne_nil (List.splitOnP_ne_nil p cs)
      rw [hparts]
      rfl
  | cons c before ih =>
      obtain ⟨hc, hbefore⟩ := List.forall_mem_cons.mp h
      obtain ⟨first, more, hparts⟩ := List.exists_cons_of_ne_nil (List.splitOnP_ne_nil p cs)
      rw [List.cons_append, List.splitOnP_cons_eq_if_modifyHead, hc, ih hbefore, hparts]
      rfl

/-- The first part is the whole text only if there is no separator. -/
theorem forall_not_of_splitOnP {more : List (List Char)} (h : cs.splitOnP p = cs :: more) :
    ∀ c ∈ cs, p c = false := by
  -- `first` is what is left of the text after the characters seen so far
  have key : ∀ (cs : List Char) (first : List Char) (more : List (List Char)),
      cs.splitOnP p = first :: more → cs.length ≤ first.length → ∀ c ∈ cs, p c = false := by
    intro cs
    induction cs with
    | nil => exact fun _ _ _ _ c hc => absurd hc List.not_mem_nil
    | cons c cs ih =>
        intro first more h hle
        by_cases hp : p c = true
        · rw [List.splitOnP_cons_eq_if_modifyHead, if_pos hp] at h
          obtain ⟨rfl, -⟩ := List.cons.inj h
          simp at hle
        · obtain ⟨first', more', hparts⟩ := List.exists_cons_of_ne_nil (List.splitOnP_ne_nil p cs)
          rw [List.splitOnP_cons_eq_if_modifyHead, if_neg hp, hparts, List.modifyHead_cons] at h
          obtain ⟨rfl, -⟩ := List.cons.inj h
          exact List.forall_mem_cons.mpr ⟨Bool.eq_false_iff.mpr hp,
            ih first' more' hparts (by simpa using hle)⟩
  exact key cs cs more h (Nat.le_refl _)

/-- The parts hold what is no separator. -/
theorem flatten_splitOnP (p : Char → Bool) (cs : List Char) :
    (cs.splitOnP p).flatten = cs.filter (!p ·) := by
  induction cs with
  | nil => rfl
  | cons c cs ih =>
      rw [List.splitOnP_cons_eq_if_modifyHead]
      by_cases hp : p c = true
      · rw [if_pos hp, List.flatten_cons, List.nil_append, ih,
          List.filter_cons_of_neg (by simp [hp])]
      · obtain ⟨first, more, hparts⟩ := List.exists_cons_of_ne_nil (List.splitOnP_ne_nil p cs)
        rw [if_neg hp, List.filter_cons_of_pos (by simp [hp]), ← ih, hparts]
        rfl

theorem splitOnP_ne_singleton_nil (hcs : cs ≠ []) : cs.splitOnP p ≠ [[]] := by
  obtain ⟨c, cs, rfl⟩ := List.exists_cons_of_ne_nil hcs
  obtain ⟨first, more, hparts⟩ := List.exists_cons_of_ne_nil (List.splitOnP_ne_nil p cs)
  rw [List.splitOnP_cons_eq_if_modifyHead, hparts]
  split <;> simp

end

/-- Parts that do not hold the separator are found again between its occurrences. -/
theorem splitOn_intercalate {separator : Char} {between : String}
    (hbetween : between.toList = [separator]) {parts : List String}
    (h : ∀ part ∈ parts, separator ∉ part.toList) (hne : parts ≠ []) :
    splitOn separator (between.intercalate parts) = parts := by
  have hlists : ∀ cs ∈ parts.map String.toList, separator ∉ cs := List.forall_mem_map.mpr h
  rw [splitOn, String.toList_intercalate, hbetween,
    List.splitOn_intercalate separator hlists (by simpa using hne), List.map_map]
  exact List.map_id'' (fun part => String.ofList_toList) parts

/-- Parts of a text without the last one, if that is empty: a line end at the very end opens no
further line. -/
def closeParts (parts : List (List Char)) : List (List Char) :=
  if parts.getLast? = some [] then parts.dropLast else parts

theorem closeParts_cons {part : List Char} {parts : List (List Char)} (h : parts ≠ []) :
    closeParts (part :: parts) = part :: closeParts parts := by
  obtain ⟨next, more, rfl⟩ := List.exists_cons_of_ne_nil h
  rw [closeParts, closeParts, List.getLast?_cons_cons, List.dropLast_cons_cons]
  split <;> rfl

theorem closeParts_concat (parts : List (List Char)) : closeParts (parts ++ [[]]) = parts := by
  rw [closeParts, List.getLast?_concat, if_pos rfl, List.dropLast_concat]

theorem flatten_closeParts (parts : List (List Char)) :
    (closeParts parts).flatten = parts.flatten := by
  rw [closeParts]
  split
  · rename_i hlast
    obtain ⟨before, rfl⟩ := List.getLast?_eq_some_iff.mp hlast
    rw [List.dropLast_concat, List.flatten_concat, List.append_nil]
  · rfl

/-- There are as many parts as there are separators before the last character, and one more. -/
theorem length_closeParts (p : Char → Bool) {cs : List Char} (hcs : cs ≠ []) :
    (closeParts (cs.splitOnP p)).length = cs.dropLast.countP p + 1 := by
  induction cs with
  | nil => exact absurd rfl hcs
  | cons c cs ih =>
      cases cs with
      | nil =>
          by_cases hp : p c = true
          · simp [List.splitOnP_cons_eq_if_modifyHead, hp, closeParts]
          · simp [List.splitOnP_cons_eq_if_modifyHead, hp, closeParts]
      | cons d cs =>
          have ih := ih (List.cons_ne_nil d cs)
          rw [List.dropLast_cons_cons, List.countP_cons, List.splitOnP_cons_eq_if_modifyHead]
          by_cases hp : p c = true
          · rw [if_pos hp, if_pos hp, closeParts_cons (List.splitOnP_ne_nil p _),
              List.length_cons, ih]
          · -- the first part gets longer, which does not matter as it is not the empty last one
            have hlength : ∀ parts : List (List Char), parts ≠ [[]] →
                (closeParts (parts.modifyHead (c :: ·))).length = (closeParts parts).length := by
              intro parts hparts
              rcases parts with _ | ⟨part, _ | ⟨next, more⟩⟩
              · rfl
              · simp [closeParts, show part ≠ [] from fun h => hparts (by rw [h])]
              · rw [List.modifyHead_cons, closeParts_cons (List.cons_ne_nil _ _),
                  closeParts_cons (List.cons_ne_nil _ _)]
                rfl
            rw [if_neg hp, if_neg hp, hlength _ (splitOnP_ne_singleton_nil (List.cons_ne_nil d cs)),
              ih]

/-! ## Two ways to divide a text -/

/-- A character that ends a line and is no newline. -/
def isOtherEnd (c : Char) : Bool := isLineEnd c && c != '\n'

theorem isLineEnd_eq (c : Char) : isLineEnd c = (c == '\n' || isOtherEnd c) := by
  by_cases hc : c = '\n'
  · rw [hc]
    rfl
  · rw [isOtherEnd, beq_false_of_ne hc, bne, beq_false_of_ne hc, Bool.false_or, Bool.not_false,
      Bool.and_true]

theorem isLineEnd_eq_false_iff (c : Char) :
    isLineEnd c = false ↔ c ≠ '\n' ∧ isOtherEnd c = false := by
  rw [isLineEnd_eq, Bool.or_eq_false_iff, beq_eq_false_iff_ne]

/-- The lines of a text that only newlines end. -/
def newlineLines (s : String) : List String :=
  (closeParts (s.toList.splitOn '\n')).map String.ofList

theorem linesFrom_eq {line cs : List Char} (h : '\r' ∉ cs) :
    linesFrom line cs = closeParts (cs.splitOnPPrepend isLineEnd line) := by
  fun_induction linesFrom line cs with
  | case1 line hline =>
      rw [List.splitOnPPrepend_nil, List.isEmpty_iff.mp hline]
      rfl
  | case2 line hline =>
      have hne : line.reverse ≠ [] := by simpa using hline
      simp [List.splitOnPPrepend_nil, closeParts, hne]
  -- a carriage return, which is the only end of two characters
  | case3 => exact absurd List.mem_cons_self h
  | case4 line c cs _ hc ih =>
      have hcs : '\r' ∉ cs := fun hmem => h (List.mem_cons_of_mem _ hmem)
      have hne : cs.splitOnPPrepend isLineEnd [] ≠ [] := by
        rw [← List.splitOnP_eq_splitOnPPrepend]
        exact List.splitOnP_ne_nil _ _
      rw [List.splitOnPPrepend, if_pos hc, closeParts_cons hne, ih hcs]
  | case5 line c cs _ hc ih =>
      have hcs : '\r' ∉ cs := fun hmem => h (List.mem_cons_of_mem _ hmem)
      rw [List.splitOnPPrepend, if_neg hc, ih hcs]

/-- Every line end divides a text, where a line that newlines end is divided at the other line ends
in it. -/
theorem linesFrom_nil_eq {cs : List Char} (h : '\r' ∉ cs) :
    linesFrom [] cs = closeParts ((cs.splitOn '\n').flatMap (·.splitOnP isOtherEnd)) := by
  have hends : isLineEnd = fun c => c == '\n' || isOtherEnd c := funext isLineEnd_eq
  calc linesFrom [] cs = closeParts (cs.splitOnP isLineEnd) := linesFrom_eq h
    _ = closeParts ((cs.splitOnP (· == '\n')).flatMap (·.splitOnP isOtherEnd)) := by
        rw [hends, splitOnP_or]

/-- Texts that are ended by newlines, one after the other. -/
theorem linesFrom_flatMap {items : List (List Char)} (hnewline : ∀ item ∈ items, '\n' ∉ item)
    (hreturn : ∀ item ∈ items, '\r' ∉ item) :
    linesFrom [] (items.flatMap (· ++ ['\n'])) = items.flatMap (·.splitOnP isOtherEnd) := by
  -- the newlines part the text into the items, with nothing after the last one
  have hparts : (items.flatMap (· ++ ['\n'])).splitOn '\n' = items ++ [[]] := by
    clear hreturn
    induction items with
    | nil => rfl
    | cons item items ih =>
        obtain ⟨hitem, hitems⟩ := List.forall_mem_cons.mp hnewline
        rw [List.flatMap_cons, List.append_assoc, List.singleton_append,
          List.splitOn_append_cons_self_of_not_mem hitem, ih hitems]
        rfl
  have hnone : '\r' ∉ items.flatMap (· ++ ['\n']) := by
    intro hmem
    obtain ⟨item, hitem, hmem⟩ := List.mem_flatMap.mp hmem
    rcases List.mem_append.mp hmem with hmem | hmem
    · exact hreturn item hitem hmem
    · exact absurd (List.mem_singleton.mp hmem) (by decide)
  rw [linesFrom_nil_eq hnone, hparts, List.flatMap_append]
  exact closeParts_concat _

/-- **One line more** for each line end that is neither a newline nor at the end of the text. -/
theorem length_lines_eq {s : String} (h : '\r' ∉ s.toList) :
    (lines s).length = (newlineLines s).length + s.toList.dropLast.countP isOtherEnd := by
  rw [lines, newlineLines, List.length_map, List.length_map, linesFrom_eq h]
  by_cases hs : s.toList = []
  · rw [hs]
    rfl
  · have hcount :
        ∀ cs : List Char, cs.countP isLineEnd = cs.countP (· == '\n') + cs.countP isOtherEnd := by
      intro cs
      induction cs with
      | nil => rfl
      | cons c cs ih =>
          rw [List.countP_cons, List.countP_cons, List.countP_cons, ih, isLineEnd_eq]
          by_cases hc : c = '\n'
          · simp [hc, show isOtherEnd '\n' = false from rfl]
            omega
          · simp [hc]
            omega
    have hlines := length_closeParts isLineEnd hs
    have hnewlines := length_closeParts (· == '\n') hs
    rw [hcount] at hlines
    rw [← List.splitOnP_eq_splitOnPPrepend, hlines, List.splitOn, hnewlines]
    omega

theorem lines_eq_nil_iff {s : String} (h : '\r' ∉ s.toList) :
    lines s = [] ↔ newlineLines s = [] := by
  rw [← List.length_eq_zero_iff, ← List.length_eq_zero_iff (l := newlineLines s), length_lines_eq h]
  by_cases hs : s.toList = []
  · rw [hs]
    rfl
  · have hlines := length_closeParts (· == '\n') hs
    rw [newlineLines, List.length_map, List.splitOn]
    omega

/-- The lines are the same only if newlines are the only line ends. -/
theorem lines_eq_newlineLines_iff {s : String} (h : '\r' ∉ s.toList) :
    lines s = newlineLines s ↔ ∀ c ∈ s.toList, isOtherEnd c = false := by
  rw [lines, newlineLines, linesFrom_eq h, ← List.splitOnP_eq_splitOnPPrepend]
  constructor
  · intro heq c hc
    have hparts := List.map_injective_iff.mpr (fun _ _ => String.ofList_inj.mp) heq
    -- a line end other than a newline stands in a line that newlines end, but in no other
    have hfilter : s.toList.filter (!isLineEnd ·) = s.toList.filter fun c => !(c == '\n') := by
      rw [← flatten_splitOnP, ← flatten_splitOnP, ← flatten_closeParts, hparts, flatten_closeParts]
      rfl
    by_contra hother
    obtain ⟨hend, hnewline⟩ := Bool.and_eq_true_iff.mp (Bool.of_not_eq_false hother)
    have hmem : c ∈ s.toList.filter (!isLineEnd ·) := hfilter ▸ List.mem_filter.mpr ⟨hc, hnewline⟩
    have hnone := (List.mem_filter.mp hmem).2
    rw [hend] at hnone
    exact Bool.false_ne_true hnone
  · intro hothers
    have hsame : ∀ c ∈ s.toList, isLineEnd c = (c == '\n') :=
      fun c hc => by rw [isLineEnd_eq, hothers c hc, Bool.or_false]
    rw [splitOnP_congr hsame]
    rfl

theorem not_mem_normalizeNewlines (cs : List Char) : '\r' ∉ normalizeNewlines cs := by
  fun_induction normalizeNewlines cs with
  | case1 => exact List.not_mem_nil
  | case2 cs ih => exact List.not_mem_cons_of_ne_of_not_mem (by decide) ih
  | case3 c cs _ ih =>
      refine List.not_mem_cons_of_ne_of_not_mem ?_ ih
      split
      · decide
      · rename_i hc
        exact fun heq => hc (by rw [← heq]; rfl)

/-! ## Sizes -/

/-- Some lines that are not more than `n`, and not longer. -/
def LinesWithin (n : Nat) (ls : List (List Char)) : Prop := ls.length ≤ n ∧ ∀ l ∈ ls, l.length ≤ n

theorem LinesWithin.mono {n k : Nat} {ls : List (List Char)} (h : LinesWithin k ls) (hle : k ≤ n) :
    LinesWithin n ls :=
  ⟨h.1.trans hle, fun l hl => (h.2 l hl).trans hle⟩

theorem LinesWithin.cons {n k : Nat} {l : List Char} {ls : List (List Char)} (hl : l.length ≤ n)
    (h : LinesWithin k ls) (hlt : k < n) : LinesWithin n (l :: ls) :=
  ⟨Nat.succ_le_of_lt (h.1.trans_lt hlt), List.forall_mem_cons.mpr ⟨hl, (h.mono hlt.le).2⟩⟩

theorem linesWithin_linesFrom (line cs : List Char) :
    LinesWithin (line.length + cs.length) (linesFrom line cs) := by
  fun_induction linesFrom line cs with
  | case1 line h => exact ⟨Nat.zero_le _, nofun⟩
  | case2 line h =>
      have hpos : 0 < line.length := List.length_pos_iff.mpr (by simpa using h)
      exact .cons (by simp) ⟨Nat.le_refl 0, nofun⟩ hpos
  | case3 line cs ih => exact .cons (by simp) ih (by simp; omega)
  | case4 line c cs _ _ ih => exact .cons (by simp) ih (by simp; omega)
  | case5 line c cs _ _ ih => exact ih.mono (by simp; omega)

/-- A text has no more lines than characters. -/
theorem length_lines (s : String) : (lines s).length ≤ s.toList.length := by
  rw [lines, List.length_map]
  simpa using (linesWithin_linesFrom [] s.toList).1

/-- A line is not longer than the text. -/
theorem length_le_of_mem_lines {s line : String} (h : line ∈ lines s) :
    line.length ≤ s.toList.length := by
  obtain ⟨l, hl, rfl⟩ := List.mem_map.mp h
  rw [String.length_ofList]
  simpa using (linesWithin_linesFrom [] s.toList).2 l hl

end Scorecard.Text
