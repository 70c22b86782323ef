import Mathlib.Computability.Language
import Scorecard.Proofs.Except
import Scorecard.Rule.Predicate

set_option autoImplicit false

/-! # What the patterns for names accept

A pattern stands for a regular language, and comparing a text with it character by character decides
that language (`accepts_iff`). The pattern for names in lower case can be matched in several ways,
because an underscore may belong to a word or to the end. What it accepts is still said in one
sentence: up to two underscores, words with single underscores between them, up to two underscores
(`mem_snakeCase_iff`).
-/

open scoped Computability

namespace Scorecard

namespace Text.Pattern

/-! ## Languages -/

section Language

variable {l m : Language Char} {c : Char} {s : List Char}

theorem nil_mem_mul : [] ∈ l * m ↔ [] ∈ l ∧ [] ∈ m := by
  rw [Language.mem_mul]
  constructor
  · rintro ⟨a, ha, b, hb, hab⟩
    obtain ⟨rfl, rfl⟩ := List.append_eq_nil_iff.mp hab
    exact ⟨ha, hb⟩
  · rintro ⟨hl, hm⟩
    exact ⟨[], hl, [], hm, rfl⟩

/-- The first character of a text in two parts is in the first part, unless that is empty. -/
theorem cons_mem_mul : c :: s ∈ l * m ↔ (∃ a, c :: a ∈ l ∧ ∃ b ∈ m, a ++ b = s) ∨
    ([] ∈ l ∧ c :: s ∈ m) := by
  rw [Language.mem_mul]
  constructor
  · rintro ⟨a, ha, b, hb, hab⟩
    cases a with
    | nil => exact Or.inr ⟨ha, hab ▸ hb⟩
    | cons d a =>
        obtain ⟨rfl, rfl⟩ := List.cons.inj hab
        exact Or.inl ⟨a, ha, b, hb, rfl⟩
  · rintro (⟨a, ha, b, hb, rfl⟩ | ⟨hl, hm⟩)
    · exact ⟨c :: a, ha, b, hb, rfl⟩
    · exact ⟨[], hl, c :: s, hm, rfl⟩

/-- The first character of a repetition is in its first part that is not empty. -/
theorem cons_mem_kstar : c :: s ∈ l∗ ↔ ∃ a, c :: a ∈ l ∧ ∃ b ∈ l∗, a ++ b = s := by
  constructor
  · intro h
    -- empty parts can be left out, so the character is the first one of the first part
    obtain ⟨parts, hs, hparts⟩ := Language.mem_kstar_iff_exists_nonempty.mp h
    cases parts with
    | nil => cases hs
    | cons first rest =>
        obtain ⟨hfirst, hne⟩ := hparts first List.mem_cons_self
        obtain ⟨d, a, rfl⟩ := List.exists_cons_of_ne_nil hne
        rw [List.flatten_cons, List.cons_append] at hs
        obtain ⟨rfl, rfl⟩ := List.cons.inj hs
        exact ⟨a, hfirst, rest.flatten, Language.join_mem_kstar fun y hy =>
          (hparts y (List.mem_cons_of_mem _ hy)).1, rfl⟩
  · rintro ⟨a, ha, b, hb, rfl⟩
    rw [← Language.one_add_self_mul_kstar_eq_kstar]
    exact Or.inr (Language.append_mem_mul ha hb)

end Language

/-- The texts that a pattern stands for. -/
def language : Pattern → Language Char
  | nothing => 0
  | empty => 1
  | oneOf ranges => {s | ∃ c, ranges.any (·.contains c) = true ∧ s = [c]}
  | seq p q => p.language * q.language
  | either p q => p.language + q.language
  | many p => p.language∗

theorem language_many (p : Pattern) : (many p).language = p.language∗ := rfl

theorem language_oneOrMore (p : Pattern) : (oneOrMore p).language = p.language * p.language∗ := rfl

theorem language_inOrder (ps : List Pattern) : (inOrder ps).language = (ps.map language).prod := by
  induction ps with
  | nil => rfl
  | cons p ps ih =>
      rw [List.map_cons, List.prod_cons, ← ih, inOrder, List.foldr_cons, language, inOrder]

theorem mem_language_oneOf {ranges : List CharRange} {s : List Char} :
    s ∈ (oneOf ranges).language ↔ ∃ c, ranges.any (·.contains c) = true ∧ s = [c] := Iff.rfl

theorem cons_mem_language_oneOf {ranges : List CharRange} {c : Char} {s : List Char} :
    c :: s ∈ (oneOf ranges).language ↔ ranges.any (·.contains c) = true ∧ s = [] := by
  rw [mem_language_oneOf]
  constructor
  · rintro ⟨d, hd, heq⟩
    obtain ⟨rfl, rfl⟩ := List.cons.inj heq
    exact ⟨hd, rfl⟩
  · rintro ⟨hc, rfl⟩
    exact ⟨c, hc, rfl⟩

theorem nil_notMem_language_oneOf (ranges : List CharRange) : [] ∉ (oneOf ranges).language := by
  rintro ⟨c, -, h⟩
  cases h

theorem isNullable_iff (p : Pattern) : p.isNullable = true ↔ [] ∈ p.language := by
  induction p with
  | nothing => exact iff_of_false Bool.false_ne_true (Language.notMem_zero [])
  | empty => exact iff_of_true rfl Language.nil_mem_one
  | oneOf ranges => exact iff_of_false Bool.false_ne_true (nil_notMem_language_oneOf ranges)
  | seq p q ihp ihq => rw [isNullable, language, Bool.and_eq_true_iff, ihp, ihq, nil_mem_mul]
  | either p q ihp ihq => rw [isNullable, language, Bool.or_eq_true_iff, ihp, ihq, Language.mem_add]
  | many p => exact iff_of_true rfl (Language.nil_mem_kstar p.language)

theorem language_followedBy (p q : Pattern) :
    (p.followedBy q).language = p.language * q.language := by
  unfold followedBy
  split
  · exact (zero_mul q.language).symm
  · exact (one_mul q.language).symm
  · rfl

theorem language_orElse (p q : Pattern) : (p.orElse q).language = p.language + q.language := by
  unfold orElse
  split
  · exact (zero_add q.language).symm
  · exact (add_zero p.language).symm
  · rfl

/-- What may follow a character is what stands after it in the texts of a pattern. -/
theorem mem_language_after {p : Pattern} {c : Char} {s : List Char} :
    s ∈ (p.after c).language ↔ c :: s ∈ p.language := by
  induction p generalizing s with
  | nothing => exact Iff.rfl
  | empty => exact iff_of_false (Language.notMem_zero s) (List.cons_ne_nil c s)
  | oneOf ranges =>
      rw [after, cons_mem_language_oneOf]
      split
      · rename_i hc
        exact (and_iff_right hc).symm
      · rename_i hc
        exact iff_of_false (Language.notMem_zero s) fun h => hc h.1
  | seq p q ihp ihq =>
      have hfirst : s ∈ ((p.after c).followedBy q).language ↔ ∃ a, c :: a ∈ p.language ∧
          ∃ b ∈ q.language, a ++ b = s := by
        simp only [language_followedBy, Language.mem_mul, ihp]
      -- the character is in the second pattern only if the first one may be empty
      rw [after, language, cons_mem_mul, ← isNullable_iff]
      by_cases hnullable : p.isNullable = true
      · rw [if_pos hnullable, language_orElse, Language.mem_add, hfirst, ihq,
          and_iff_right hnullable]
      · rw [if_neg hnullable, hfirst, or_iff_left fun h => hnullable h.1]
  | either p q ihp ihq =>
      rw [after, language_orElse, Language.mem_add, ihp, ihq, language, Language.mem_add]
  | many p ih =>
      simp only [after, language_followedBy, Language.mem_mul, ih, language, cons_mem_kstar]

/-- **A pattern accepts the texts of its language.** -/
theorem accepts_iff {p : Pattern} {s : List Char} : p.accepts s = true ↔ s ∈ p.language := by
  unfold accepts
  induction s generalizing p with
  | nil => exact isNullable_iff p
  | cons c s ih => rw [List.foldl_cons, ih, mem_language_after]

/-! ## Patterns for characters -/

section Characters

variable {ranges : List CharRange} {c : Char} {s : List Char} {l : Language Char}

theorem mem_oneOf_mul : s ∈ (oneOf ranges).language * l ↔ ∃ c t, s = c :: t ∧ ranges.any
    (·.contains c) = true ∧ t ∈ l := by
  rw [Language.mem_mul]
  constructor
  · rintro ⟨_, ⟨c, hc, rfl⟩, t, ht, rfl⟩
    exact ⟨c, t, rfl, hc, ht⟩
  · rintro ⟨c, t, rfl, hc, ht⟩
    exact ⟨[c], ⟨c, hc, rfl⟩, t, ht, rfl⟩

theorem cons_mem_oneOf_mul : c :: s ∈ (oneOf ranges).language * l ↔ ranges.any
    (·.contains c) = true ∧ s ∈ l := by
  rw [mem_oneOf_mul]
  constructor
  · rintro ⟨d, t, heq, hd, ht⟩
    obtain ⟨rfl, rfl⟩ := List.cons.inj heq
    exact ⟨hd, ht⟩
  · rintro ⟨hc, hs⟩
    exact ⟨c, s, rfl, hc, hs⟩

theorem mem_many_oneOf : s ∈ (oneOf ranges).language∗ ↔ ∀ c ∈ s, ranges.any
    (·.contains c) = true := by
  induction s with
  | nil => simp [Language.nil_mem_kstar]
  | cons c s ih =>
      have hfirst : c :: s ∈ (oneOf ranges).language∗ ↔
          c :: s ∈ (oneOf ranges).language * (oneOf ranges).language∗ := by
        conv_lhs => rw [← Language.one_add_self_mul_kstar_eq_kstar, Language.mem_add]
        exact or_iff_right (List.cons_ne_nil c s)
      rw [hfirst, cons_mem_oneOf_mul, ih, List.forall_mem_cons]

theorem mem_upTo_oneOf {n : ℕ} : s ∈ (upTo n (oneOf ranges)).language ↔ s.length ≤ n ∧
    ∀ c ∈ s, ranges.any (·.contains c) = true := by
  induction n generalizing s with
  | zero =>
      rw [Nat.le_zero, List.length_eq_zero_iff]
      constructor
      · rintro rfl
        simp
      · rintro ⟨rfl, -⟩
        rfl
  | succ n ih =>
      rw [upTo, language, language, language, Language.mem_add, Language.mem_one]
      cases s with
      | nil => simp
      | cons c s =>
          rw [or_iff_right (List.cons_ne_nil c s), cons_mem_oneOf_mul, ih, List.forall_mem_cons,
            List.length_cons, Nat.succ_le_succ_iff]
          exact and_left_comm

end Characters

end Text.Pattern

/-! ## Names in lower case -/

open Text (Pattern CharRange)
open Text.Pattern

/-- A lower-case letter or a digit. -/
def IsWordCharacter (c : Char) : Prop := c.isLower ∨ c.isDigit

theorem contains_underscore {c : Char} :
    [(⟨'_', '_'⟩ : CharRange)].any (·.contains c) = true ↔ c = '_' := by
  simp only [List.any_cons, List.any_nil, Bool.or_false, CharRange.contains, Bool.and_eq_true,
    decide_eq_true_iff, Char.ext_iff]
  exact ⟨fun h => UInt32.le_antisymm h.2 h.1, fun h => h ▸ ⟨UInt32.le_refl _, UInt32.le_refl _⟩⟩

-- The ranges of letters and digits are the classes of characters of the library.

theorem contains_lower (c : Char) : CharRange.contains ⟨'a', 'z'⟩ c = c.isLower := rfl

theorem contains_upper (c : Char) : CharRange.contains ⟨'A', 'Z'⟩ c = c.isUpper :=
  (Bool.decide_and _ _).symm

theorem contains_digit (c : Char) : CharRange.contains ⟨'0', '9'⟩ c = c.isDigit := rfl

theorem isAlphanum_eq (c : Char) : c.isAlphanum = (c.isUpper || c.isLower || c.isDigit) := rfl

theorem contains_wordCharacter {c : Char} :
    [(⟨'a', 'z'⟩ : CharRange), ⟨'0', '9'⟩].any (·.contains c) = true ↔ IsWordCharacter c := by
  simp [contains_lower, contains_digit, IsWordCharacter]

theorem IsWordCharacter.ne_underscore {c : Char} (h : IsWordCharacter c) : c ≠ '_' := by
  rintro rfl
  unfold IsWordCharacter at h
  exact absurd h (by decide)

/-- What follows the first letter of a name: the rest of a word, and words after underscores. -/
def wordsRest : Language Char :=
  wordCharacter.language∗ *
  (underscore.language * (wordCharacter.language * wordCharacter.language∗))∗

/-- The rest ends, or it goes on with a character of the word, or with an underscore and another
word. -/
theorem wordsRest_eq :
    wordsRest =
    1 + (wordCharacter.language * wordsRest + underscore.language *
    (wordCharacter.language * wordsRest)) := by
  unfold wordsRest
  generalize wordCharacter.language = w
  generalize underscore.language = u
  calc w∗ * (u * (w * w∗))∗ = (1 + w * w∗) * (u * (w * w∗))∗ := by
         rw [Language.one_add_self_mul_kstar_eq_kstar]
    _ = (u * (w * w∗))∗ + w * (w∗ * (u * (w * w∗))∗) := by rw [add_mul, one_mul, mul_assoc]
    _ = 1 + u * (w * w∗) * (u * (w * w∗))∗ + w * (w∗ * (u * (w * w∗))∗) := by
        rw [Language.one_add_self_mul_kstar_eq_kstar]
    _ = 1 + (w * (w∗ * (u * (w * w∗))∗) + u * (w * (w∗ * (u * (w * w∗))∗))) := by
        rw [add_assoc, add_comm (u * (w * w∗) * _), mul_assoc, mul_assoc]

theorem nil_mem_wordsRest : [] ∈ wordsRest := by
  rw [wordsRest_eq]
  exact Or.inl rfl

theorem cons_mem_wordsRest {c : Char} {s : List Char} :
    c :: s ∈ wordsRest ↔ (IsWordCharacter c ∧ s ∈ wordsRest) ∨
      (c = '_' ∧ ∃ d t, s = d :: t ∧ IsWordCharacter d ∧ t ∈ wordsRest) := by
  conv_lhs => rw [wordsRest_eq]
  rw [Language.mem_add, Language.mem_add, Language.mem_one, or_iff_right (List.cons_ne_nil c s),
    wordCharacter, underscore, cons_mem_oneOf_mul, cons_mem_oneOf_mul, mem_oneOf_mul]
  simp only [contains_wordCharacter, contains_underscore]

theorem cons_mem_wordsRest_of_ne {c : Char} {s : List Char} (hc : c ≠ '_') :
    c :: s ∈ wordsRest ↔ IsWordCharacter c ∧ s ∈ wordsRest := by
  rw [cons_mem_wordsRest]
  exact or_iff_left fun h => hc h.1

theorem underscore_mem_wordsRest {s : List Char} :
    '_' :: s ∈ wordsRest ↔ ∃ d t, s = d :: t ∧ d ≠ '_' ∧ s ∈ wordsRest := by
  rw [cons_mem_wordsRest, or_iff_right fun h => h.1.ne_underscore rfl, and_iff_right rfl]
  constructor
  · rintro ⟨d, t, rfl, hd, ht⟩
    exact ⟨d, t, rfl, hd.ne_underscore, (cons_mem_wordsRest_of_ne hd.ne_underscore).mpr ⟨hd, ht⟩⟩
  · rintro ⟨d, t, rfl, hd, ht⟩
    exact ⟨d, t, rfl, (cons_mem_wordsRest_of_ne hd).mp ht⟩

/-- Characters of words with single underscores, none of them at the end. -/
structure HasSingleUnderscores (s : List Char) : Prop where
  characters : ∀ c ∈ s, IsWordCharacter c ∨ c = '_'
  ends : s.getLast? ≠ some '_'
  single : ¬['_', '_'] <:+: s

theorem hasSingleUnderscores_cons_of_ne {c : Char} {s : List Char} (hc : c ≠ '_') :
    HasSingleUnderscores (c :: s) ↔ IsWordCharacter c ∧ HasSingleUnderscores s := by
  have hlast : (c :: s).getLast? = some '_' ↔ s.getLast? = some '_' := by
    cases s with
    | nil => simp [hc]
    | cons d t => rw [List.getLast?_cons_cons]
  have hrepeat : ['_', '_'] <:+: c :: s ↔ ['_', '_'] <:+: s := by
    rw [List.infix_cons_iff, List.cons_prefix_cons]
    exact or_iff_right fun h => hc h.1.symm
  constructor
  · rintro ⟨hcharacters, hends, hsingle⟩
    obtain ⟨hfirst, hcharacters⟩ := List.forall_mem_cons.mp hcharacters
    exact ⟨hfirst.resolve_right hc, hcharacters, fun h => hends (hlast.mpr h),
      fun h => hsingle (hrepeat.mpr h)⟩
  · rintro ⟨hfirst, hcharacters, hends, hsingle⟩
    exact ⟨List.forall_mem_cons.mpr ⟨Or.inl hfirst, hcharacters⟩, fun h => hends (hlast.mp h),
      fun h => hsingle (hrepeat.mp h)⟩

theorem hasSingleUnderscores_underscore {s : List Char} :
    HasSingleUnderscores ('_' :: s) ↔ ∃ d t, s = d :: t ∧ d ≠ '_' ∧ HasSingleUnderscores s := by
  constructor
  · rintro ⟨hcharacters, hends, hsingle⟩
    cases s with
    | nil => exact absurd rfl hends
    | cons d t =>
        -- the next character exists and is no underscore, as two underscores in a row would start
        -- here
        rw [List.infix_cons_iff, List.cons_prefix_cons, List.cons_prefix_cons] at hsingle
        refine ⟨d, t, rfl, fun hd => hsingle (Or.inl ⟨rfl, hd.symm, List.nil_prefix⟩),
          (List.forall_mem_cons.mp hcharacters).2, ?_, fun h => hsingle (Or.inr h)⟩
        rwa [List.getLast?_cons_cons] at hends
  · rintro ⟨d, t, rfl, hd, hcharacters, hends, hsingle⟩
    refine ⟨List.forall_mem_cons.mpr ⟨Or.inr rfl, hcharacters⟩, ?_, ?_⟩
    · rwa [List.getLast?_cons_cons]
    · rw [List.infix_cons_iff, List.cons_prefix_cons, List.cons_prefix_cons]
      rintro (⟨-, h, -⟩ | h)
      · exact hd h.symm
      · exact hsingle h

theorem mem_wordsRest_iff {s : List Char} : s ∈ wordsRest ↔ HasSingleUnderscores s := by
  induction s with
  | nil => exact iff_of_true nil_mem_wordsRest ⟨by simp, by simp, by simp⟩
  | cons c s ih =>
      -- an underscore needs a character of a word after it, any other character stands for itself
      by_cases hc : c = '_'
      · rw [hc, underscore_mem_wordsRest, hasSingleUnderscores_underscore, ih]
      · rw [cons_mem_wordsRest_of_ne hc, hasSingleUnderscores_cons_of_ne hc, ih]

/-- Words in lower case with single underscores between them: letters, digits and underscores, of
which the first is a letter and the last no underscore. -/
structure IsLowerWords (s : List Char) : Prop extends HasSingleUnderscores s where
  starts : ∃ c, s.head? = some c ∧ c.isLower

theorem mem_upTo_underscore {n : ℕ} {s : String} :
    s.toList ∈ (upTo n underscore).language ↔ s ∈ (List.range (n + 1)).map fun k => String.ofList
      (List.replicate k '_') := by
  rw [underscore, mem_upTo_oneOf, List.mem_map]
  simp only [contains_underscore, List.mem_range, Nat.lt_succ_iff]
  constructor
  · rintro ⟨hlength, hall⟩
    exact ⟨s.toList.length, hlength, by rw [← List.eq_replicate_of_mem hall, String.ofList_toList]⟩
  · rintro ⟨k, hk, rfl⟩
    rw [String.toList_ofList, List.length_replicate]
    exact ⟨hk, fun c => List.eq_of_mem_replicate⟩

theorem mem_words_iff {s : List Char} :
    s ∈ (oneOf [⟨'a', 'z'⟩]).language * wordsRest ↔ IsLowerWords s := by
  have hlower : ∀ c : Char, [(⟨'a', 'z'⟩ : CharRange)].any (·.contains c) = true ↔
      c.isLower = true := by
    simp [contains_lower]
  simp only [mem_oneOf_mul, hlower, mem_wordsRest_iff]
  constructor
  · rintro ⟨c, t, rfl, hc, ht⟩
    have hword : IsWordCharacter c := Or.inl hc
    exact ⟨(hasSingleUnderscores_cons_of_ne hword.ne_underscore).mpr ⟨hword, ht⟩, c, rfl, hc⟩
  · rintro ⟨hs, c, hfirst, hc⟩
    obtain ⟨t, rfl⟩ := List.head?_eq_some_iff.mp hfirst
    have hword : IsWordCharacter c := Or.inl hc
    exact ⟨c, t, rfl, hc, ((hasSingleUnderscores_cons_of_ne hword.ne_underscore).mp hs).2⟩

/-- A name in lower case: up to two underscores, words, up to two underscores. -/
def IsSnakeCase (s : String) : Prop :=
  ∃ front words back : String, s = front ++ words ++ back ∧ front ∈ ["", "_", "__"] ∧
    IsLowerWords words.toList ∧ back ∈ ["", "_", "__"]

theorem language_snakeCase :
    snakeCasePattern.language =
      (upTo 2 underscore).language * ((oneOf [⟨'a', 'z'⟩]).language * wordsRest *
      (upTo 2 underscore).language) := by
  simp only [snakeCasePattern, language_inOrder, language_many, language_oneOrMore, List.map_cons,
    List.map_nil, List.prod_cons, List.prod_nil, mul_one, wordsRest, mul_assoc]

theorem mem_snakeCase_iff {s : String} : s.toList ∈ snakeCasePattern.language ↔ IsSnakeCase s := by
  rw [language_snakeCase]
  constructor
  · rintro ⟨front, hfront, _, ⟨words, hwords, back, hback, rfl⟩, hs⟩
    refine ⟨String.ofList front, String.ofList words, String.ofList back, ?_, ?_, ?_, ?_⟩
    · apply String.toList_injective
      simp [← hs]
    · exact (mem_upTo_underscore (s := String.ofList front)).mp (by rwa [String.toList_ofList])
    · exact mem_words_iff.mp (by rwa [String.toList_ofList])
    · exact (mem_upTo_underscore (s := String.ofList back)).mp (by rwa [String.toList_ofList])
  · rintro ⟨front, words, back, rfl, hfront, hwords, hback⟩
    rw [String.toList_append, String.toList_append, List.append_assoc]
    exact Language.append_mem_mul (mem_upTo_underscore.mpr hfront)
      (Language.append_mem_mul (mem_words_iff.mpr hwords) (mem_upTo_underscore.mpr hback))

theorem IsWordCharacter.not_isUpper {c : Char} (h : IsWordCharacter c) : ¬c.isUpper := by
  rw [IsWordCharacter, ← contains_lower, ← contains_digit] at h
  rw [← contains_upper]
  grind [CharRange.contains]

theorem IsSnakeCase.not_isUpper {s : String} (h : IsSnakeCase s) : ∀ c ∈ s.toList, ¬c.isUpper := by
  have hunderscores : ∀ t ∈ ["", "_", "__"], t.toList.all (· == '_') = true := by decide
  obtain ⟨front, words, back, rfl, hfront, hwords, hback⟩ := h
  intro c hc
  rw [String.toList_append, String.toList_append, List.mem_append, List.mem_append] at hc
  have hword : IsWordCharacter c ∨ c = '_' := by
    rcases hc with (hc | hc) | hc
    · exact Or.inr (beq_iff_eq.mp (List.all_eq_true.mp (hunderscores front hfront) c hc))
    · exact hwords.characters c hc
    · exact Or.inr (beq_iff_eq.mp (List.all_eq_true.mp (hunderscores back hback) c hc))
  rcases hword with hword | rfl
  · exact hword.not_isUpper
  · decide

/-! ## Capitalised names -/

/-- A capitalised name: possibly an underscore, an upper-case letter, then letters and digits. -/
def IsCapWords (s : String) : Prop :=
  ∃ front : String, ∃ first rest, s = front ++ String.ofList (first :: rest) ∧ front ∈ ["", "_"] ∧
    first.isUpper ∧ ∀ c ∈ rest, c.isAlphanum

theorem language_capWords :
    capWordsPattern.language =
      (upTo 1 underscore).language * ((oneOf [⟨'A', 'Z'⟩]).language *
        (oneOf [⟨'a', 'z'⟩, ⟨'A', 'Z'⟩, ⟨'0', '9'⟩]).language∗) := by
  simp only [capWordsPattern, language_inOrder, language_many, List.map_cons, List.map_nil,
    List.prod_cons, List.prod_nil, mul_one]

theorem mem_capWords_iff {s : String} : s.toList ∈ capWordsPattern.language ↔ IsCapWords s := by
  have hupper : ∀ c : Char, [(⟨'A', 'Z'⟩ : CharRange)].any (·.contains c) = true ↔
      c.isUpper = true := by
    simp [contains_upper]
  have hletter :
      ∀ c : Char, [(⟨'a', 'z'⟩ : CharRange), ⟨'A', 'Z'⟩, ⟨'0', '9'⟩].any (·.contains c) = true ↔
        c.isAlphanum = true := by
    intro c
    simp [contains_lower, contains_upper, contains_digit, isAlphanum_eq, or_left_comm, or_assoc]
  rw [language_capWords]
  constructor
  · rintro ⟨front, hfront, name, hname, hs⟩
    obtain ⟨first, rest, rfl, hfirst, hrest⟩ := mem_oneOf_mul.mp hname
    refine ⟨String.ofList front, first, rest, ?_, ?_, (hupper first).mp hfirst,
      fun c hc => (hletter c).mp (mem_many_oneOf.mp hrest c hc)⟩
    · apply String.toList_injective
      simp [← hs]
    · exact mem_upTo_underscore.mp (by rwa [String.toList_ofList])
  · rintro ⟨front, first, rest, rfl, hfront, hfirst, hrest⟩
    rw [String.toList_append, String.toList_ofList]
    exact Language.append_mem_mul (mem_upTo_underscore.mpr hfront)
      (cons_mem_oneOf_mul.mpr ⟨(hupper first).mpr hfirst, mem_many_oneOf.mpr fun c hc =>
        (hletter c).mpr (hrest c hc)⟩)

theorem IsCapWords.exists_isUpper {s : String} (h : IsCapWords s) : ∃ c ∈ s.toList, c.isUpper := by
  obtain ⟨front, first, rest, rfl, -, hfirst, -⟩ := h
  exact ⟨first, by simp, hfirst⟩

/-! ## Lines and labels -/

/-- A property of a text without newlines. -/
theorem holdsOfLine_of_notMem {p : List Char → Bool} {s : String} (h : '\n' ∉ s.toList) :
    holdsOfLine p s = p s.toList := by
  have hlast : s.toList.getLast? ≠ some '\n' := fun hlast => h (List.mem_of_getLast? hlast)
  simp [holdsOfLine, hlast]

/-- The text that has the property is the whole text, its last newline apart. -/
theorem exists_of_holdsOfLine {p : List Char → Bool} {s : String} (h : holdsOfLine p s = true) :
    ∃ t : String, p t.toList = true ∧ t.toList ⊆ s.toList ∧ s.toList ⊆ '\n' :: t.toList := by
  unfold holdsOfLine at h
  rcases Bool.or_eq_true_iff.mp h with h | h
  · exact ⟨s, h, List.Subset.refl _, List.subset_cons_self _ _⟩
  · obtain ⟨hlast, h⟩ := Bool.and_eq_true_iff.mp h
    obtain ⟨cs, hcs⟩ := List.getLast?_eq_some_iff.mp (beq_iff_eq.mp hlast)
    refine ⟨String.ofList cs, ?_⟩
    rw [hcs, List.dropLast_concat] at h
    rw [hcs, String.toList_ofList]
    exact ⟨h, List.subset_append_left _ _, by simp⟩

theorem ofLabel_eq_ok_iff {p : String → Bool} {f : Fact} {b : Bool} :
    FactPredicate.ofLabel p f = .ok b ↔ ∃ s, f.label = .ok s ∧ p s = b := by
  rw [FactPredicate.ofLabel, bind_eq_ok_iff]
  refine exists_congr fun s => and_congr mapError_eq_ok_iff ?_
  exact ⟨Except.ok.inj, congrArg Except.ok⟩

/-- Whether a name fits a pattern is decided for every fact with a label. -/
theorem accepts_label {p : Pattern} {P : Prop} {f : Fact} {s : String} (hlabel : f.label = .ok s)
    (hline : '\n' ∉ s.toList) (h : s.toList ∈ p.language ↔ P) :
    ∃ accepted, FactPredicate.ofLabel (holdsOfLine p.accepts) f = .ok accepted ∧
      (accepted = true ↔ P) :=
  ⟨_, ofLabel_eq_ok_iff.mpr ⟨s, hlabel, holdsOfLine_of_notMem hline⟩, accepts_iff.trans h⟩

/-- **The patterns for names accept their conventions.** A name in lower case is up to two
underscores, words of lower-case letters and digits with single underscores between them, of which
the first starts with a letter, and up to two underscores. A capitalised name is an upper-case
letter, possibly after an underscore, with letters and digits after it. No name is both, also if a
newline follows it. -/
theorem name_patterns_accept_conventions :
    (∀ (f : Fact) (s : String), f.label = .ok s → '\n' ∉ s.toList →
      (∃ accepted, FactPredicate.snakeCase f = .ok accepted ∧ (accepted = true ↔ IsSnakeCase s)) ∧
      ∃ accepted, FactPredicate.capWords f = .ok accepted ∧ (accepted = true ↔ IsCapWords s)) ∧
    ∀ f : Fact, ¬(FactPredicate.snakeCase f = .ok true ∧ FactPredicate.capWords f = .ok true) := by
  constructor
  · intro f s hlabel hline
    exact ⟨accepts_label hlabel hline mem_snakeCase_iff,
      accepts_label hlabel hline mem_capWords_iff⟩
  · rintro f ⟨hsnake, hcap⟩
    obtain ⟨s, hlabel, hsnake⟩ := ofLabel_eq_ok_iff.mp hsnake
    obtain ⟨s', hlabel', hcap⟩ := ofLabel_eq_ok_iff.mp hcap
    obtain rfl : s = s' := Except.ok.inj (hlabel.symm.trans hlabel')
    obtain ⟨t, ht, -, hall⟩ := exists_of_holdsOfLine hsnake
    obtain ⟨u, hu, hsub, -⟩ := exists_of_holdsOfLine hcap
    obtain ⟨c, hc, hupper⟩ := (mem_capWords_iff.mp (accepts_iff.mp hu)).exists_isUpper
    -- the upper-case letter is a character of the name in lower case, or the newline
    rcases List.mem_cons.mp (hall (hsub hc)) with rfl | hc
    · cases hupper
    · exact (mem_snakeCase_iff.mp (accepts_iff.mp ht)).not_isUpper c hc hupper

/-- Two underscores are enough of them. -/
theorem name_patterns_accept_conventions_underscores :
    IsSnakeCase "__init_2__" ∧ ¬IsSnakeCase "init___" ∧ IsCapWords "_Node2" := by
  have haccept :
      ∀ name : String, (Fact.mk Kind.functionName (.ofFile "a.py") (.text name) "").label =
        .ok name := fun _ => rfl
  obtain ⟨h, -⟩ := name_patterns_accept_conventions
  obtain ⟨⟨a, ha, hdunder⟩, -⟩ := h _ "__init_2__" (haccept _) (by decide)
  obtain ⟨⟨b, hb, hthree⟩, -⟩ := h _ "init___" (haccept _) (by decide)
  obtain ⟨-, c, hc, hclass⟩ := h _ "_Node2" (haccept _) (by decide)
  refine ⟨hdunder.mp (Except.ok.inj (ha.symm.trans (by decide))), fun hsnake => ?_,
    hclass.mp (Except.ok.inj (hc.symm.trans (by decide)))⟩
  rw [hthree.mpr hsnake] at hb
  revert hb
  decide

end Scorecard
