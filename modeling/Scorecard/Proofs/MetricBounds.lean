import Scorecard.Codebase.Extract
import Scorecard.Proofs.Except
import Scorecard.Proofs.GrammarBounds
import Scorecard.Proofs.Lines

set_option autoImplicit false

/-! # How large counts get

What is counted in a source file is bounded by the number of its bytes. A text has no more
characters than bytes, its lines are parts of it, and the measures of a syntax tree count its nodes
or its lines (`parse_slight`).
-/

namespace Scorecard

/-! ## Texts -/

namespace Text

theorem length_decodeFrom {repair : Utf8Error → Except Utf8Error Char} {position skip : Nat}
    {bytes : List Nat} {cs : List Char} (h : decodeFrom repair position skip bytes = .ok cs) :
    cs.length ≤ bytes.length := by
  induction bytes generalizing position skip cs with
  | nil =>
      cases h
      exact le_refl _
  | cons b bs ih =>
      cases skip with
      | succ skip => exact (ih h).trans (Nat.le_succ _)
      | zero =>
          obtain ⟨⟨c, length⟩, -, h⟩ := bind_eq_ok_iff.mp h
          obtain ⟨rest, hrest, h⟩ := bind_eq_ok_iff.mp h
          cases h
          exact Nat.succ_le_succ (ih hrest)

theorem length_decodeLossy (bytes : List Nat) : (decodeLossy bytes).length ≤ bytes.length := by
  unfold decodeLossy
  split
  case h_1 cs h => exact length_decodeFrom h
  case h_2 => exact Nat.zero_le _

theorem length_normalizeNewlines (cs : List Char) : (normalizeNewlines cs).length ≤ cs.length := by
  fun_induction normalizeNewlines cs with
  | case1 => exact le_refl _
  | case2 cs ih => exact Nat.succ_le_succ (ih.trans (Nat.le_succ _))
  | case3 c cs _ ih => exact Nat.succ_le_succ ih

end Text

theorem length_sourceText (bytes : List Nat) : (sourceText bytes).toList.length ≤ bytes.length := by
  rw [sourceText, String.toList_ofList]
  exact (Text.length_normalizeNewlines _).trans (Text.length_decodeLossy bytes)

/-- What is longest among some lines is as long as one of them. -/
theorem longerLine_foldl {P : Nat → Prop} {items : List (String × Nat)}
    (hitems : ∀ item ∈ items, P item.1.length) {best : Option (Nat × Nat)}
    (hbest : ∀ found ∈ best, P found.2) : ∀ found ∈ items.foldl longerLine best, P found.2 := by
  induction items generalizing best with
  | nil => exact hbest
  | cons item items ih =>
      obtain ⟨hitem, hitems⟩ := List.forall_mem_cons.mp hitems
      refine ih hitems ?_
      -- the best after a line is that line or the best before it
      fun_cases longerLine best item with
      | case1 line number start length hlt => simpa using hitem
      | case2 line number start length hlt => exact hbest
      | case3 line number => simpa using hitem

theorem longestLine_le {text : String} {number length : Nat}
    (h : longestLine (Text.lines text) = some (number, length)) : length ≤ text.toList.length := by
  refine longerLine_foldl (P := (· ≤ text.toList.length)) (fun item hitem => ?_) (by simp) _ h
  exact Text.length_le_of_mem_lines (List.fst_mem_of_mem_zipIdx hitem)

/-! ## Syntax trees -/

namespace Source.Node

theorem size_le_of_mem {n : Node} {ns : List Node} (h : n ∈ ns) : n.size ≤ sizeAll ns := by
  induction ns with
  | nil => cases h
  | cons m ns ih =>
      rw [sizeAll_cons]
      rcases List.mem_cons.mp h with rfl | h
      · exact Nat.le_add_right _ _
      · exact (ih h).trans (Nat.le_add_left _ _)

theorem length_le_sizeAll (ns : List Node) : ns.length ≤ sizeAll ns := by
  induction ns with
  | nil => exact le_refl _
  | cons n ns ih =>
      have hn := one_le_size n
      rw [sizeAll_cons, List.length_cons]
      omega

theorem size_eq (n : Node) : n.size = sizeAll n.children + 1 := by
  cases n
  exact size_mk ..

mutual

theorem size_le_of_mem_walk {m : Node} : ∀ {n : Node}, m ∈ n.walk → m.size ≤ n.size
  | mk role label a b children, h => by
      rw [walk] at h
      rcases List.mem_cons.mp h with rfl | h
      · exact le_refl _
      · rw [size_mk]
        exact (size_le_of_mem_walkAll h).trans (Nat.le_succ _)

theorem size_le_of_mem_walkAll {m : Node} : ∀ {ns : List Node}, m ∈ walkAll ns → m.size ≤ sizeAll ns
  | [], h => by cases h
  | n :: rest, h => by
      rw [walkAll] at h
      rw [sizeAll_cons]
      rcases List.mem_append.mp h with h | h
      · exact (size_le_of_mem_walk h).trans (Nat.le_add_right _ _)
      · exact (size_le_of_mem_walkAll h).trans (Nat.le_add_left _ _)

end

theorem length_part_lt (n : Node) (role : Role) : (n.part role).length < n.size := by
  rw [size_eq]
  exact Nat.lt_succ_of_le ((List.length_filter_le _ _).trans (length_le_sizeAll _))

theorem size_lt_of_part? {n m : Node} {role : Role} (h : n.part? role = some m) :
    m.size < n.size := by
  rw [size_eq n]
  exact Nat.lt_succ_of_le (size_le_of_mem (List.mem_of_find?_eq_some h))

/-! ## Measures -/

theorem decisions_le (n : Node) : n.decisions ≤ n.children.length + 1 := by
  have hvalues : (n.part .value).length ≤ n.children.length := List.length_filter_le _ _
  unfold decisions
  split <;> omega

theorem foldl_decisions (ns : List Node) (total : Nat) :
    ns.foldl (fun total d => total + d.decisions) total = total + (ns.map decisions).sum := by
  induction ns generalizing total with
  | nil => rfl
  | cons n ns ih => rw [List.foldl_cons, ih, List.map_cons, List.sum_cons, Nat.add_assoc]

mutual

-- a node pays for its own decisions with one of each child's two
theorem sum_decisions_walk : ∀ n : Node, (n.walk.map decisions).sum + 1 ≤ 2 * n.size
  | mk role label a b children => by
      have hown : (mk role label a b children).decisions ≤ children.length + 1 := decisions_le _
      have hchildren := sum_decisions_walkAll children
      rw [walk, List.map_cons, List.sum_cons, size_mk]
      omega

theorem sum_decisions_walkAll :
    ∀ ns : List Node, ((walkAll ns).map decisions).sum + ns.length ≤ 2 * sizeAll ns
  | [] => by simp [walkAll]
  | n :: rest => by
      have hn := sum_decisions_walk n
      have hrest := sum_decisions_walkAll rest
      rw [walkAll, List.map_append, List.sum_append, sizeAll_cons, List.length_cons]
      omega

end

theorem complexity_le (n : Node) : n.complexity ≤ 2 * n.size := by
  rw [complexity, foldl_decisions, Nat.add_comm]
  exact sum_decisions_walk n

mutual

theorem nestedLoops_le : ∀ n : Node, n.nestedLoops ≤ n.size
  | mk role label a b children => by
      have hchildren := nestedLoopsAmong_le children
      rw [nestedLoops, size_mk]
      split
      · omega
      · split <;> omega

theorem nestedLoopsAmong_le : ∀ ns : List Node, nestedLoopsAmong ns ≤ sizeAll ns
  | [] => le_refl _
  | n :: rest => by
      have hn := nestedLoops_le n
      have hrest := nestedLoopsAmong_le rest
      rw [nestedLoopsAmong, sizeAll_cons]
      omega

end

theorem loopDepth_lt (n : Node) : n.loopDepth < n.size := by
  rw [size_eq]
  exact Nat.lt_succ_of_le ((nestedLoopsAmong_le _).trans
    (sizeAll_le_of_sublist List.filter_sublist))

theorem assertions_le (n : Node) : n.assertions ≤ n.size := List.length_filter_le _ _

theorem length_countedParameters (isMethod : Bool) (n : Node) :
    (n.countedParameters isMethod).length ≤ 3 * n.size := by
  unfold countedParameters
  split
  case h_1 => exact Nat.zero_le _
  case h_2 ps h =>
      have hps := size_lt_of_part? h
      have honly := length_part_lt ps .positionalOnly
      have hboth := length_part_lt ps .positional
      have hkeyword := length_part_lt ps .keywordOnly
      have hpositional : (ps.part .positionalOnly ++ ps.part .positional).length ≤ 2 * ps.size := by
        rw [List.length_append]
        omega
      -- leaving out the object of a method makes the list shorter
      generalize ps.part .positionalOnly ++ ps.part .positional = positional at hpositional
      dsimp only
      rw [List.length_append]
      split
      · rw [List.length_cons] at hpositional
        split
        · omega
        · rw [List.length_cons]
          omega
      · rw [List.length_nil]
        omega

/-! ## Trees of files -/

/-- A node on the lines below `limit` whose measures are below it as well. -/
structure Slight (limit : Nat) (n : Node) : Prop where
  line : n.line < limit
  lastLine : n.lastLine + 1 < limit
  size : 3 * n.size < limit

/-- The number of lines from the first to the last one. -/
theorem Slight.span {limit : Nat} {n : Node} (h : n.Slight limit) :
    ((n.lastLine : Int) - n.line + 1).natAbs < limit := by
  have hline := h.line
  have hlast := h.lastLine
  omega

end Source.Node

/-- **What a file holds is small**: the nodes of its tree, the lines they span and what is counted
in them. -/
theorem parse_slight [Text.CharacterNames] {bytes : List Nat} {tree : Source.Node}
    (h : Source.parse (sourceText bytes) = some tree) :
    ∀ n ∈ tree.walk, n.Slight (24 * bytes.length + 4) := by
  intro n hn
  obtain ⟨hfits, hsize⟩ := Source.parse_bounds h
  have htext := length_sourceText bytes
  have hbreaks : Source.lineBreaks (sourceText bytes).toList ≤ (sourceText bytes).toList.length :=
    List.countP_le_length
  have hclosed := Source.lineBreaks_closeLastLine (sourceText bytes).toList
  have hline := (hfits n hn).line
  have hlast := (hfits n hn).lastLine
  have hn := Source.Node.size_le_of_mem_walk hn
  exact ⟨by omega, by omega, by omega⟩

end Scorecard
