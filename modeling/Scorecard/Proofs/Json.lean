import Scorecard.Proofs.FactModel
import Scorecard.Value.Json

set_option autoImplicit false

/-! # JSON texts are read as they were written

The text of a value is read as the value, with the fields of its tables in the order of their names
(`parse_render`). This holds for values without numbers and moments, whose integers are not too long
and whose tables have distinct names (`Plain`). Every reader is pinned by what it leaves: a text in
quotes ends at its quote, and an integer ends where what follows cannot continue it (`Ends`). Lists
and tables are read with as much depth as they have characters.
-/

namespace Scorecard.Json

/-! ## Texts in quotes -/

theorem readText_of_not_unit {a b c d : Char} (h : hex4? a b c d = none) (done cs : List Char) :
    readText done ('\\' :: 'u' :: a :: b :: c :: d :: cs) = none := by
  rw [readText.eq_def]
  split
  · rfl
  · rename_i heq
    cases heq
  · rename_i heq
    cases heq
    rw [h]
  · rename_i heq
    cases heq
    rw [h]
  · rename_i hno heq
    cases heq
    -- the later patterns only get what is no escape with four digits
    exact (hno a b c d cs rfl rfl).elim
  · rename_i hno _ heq
    cases heq
    exact (hno a b c d cs rfl rfl).elim

/-- A code unit that does not open a pair is read as a character of its own. -/
theorem readText_unit {a b c d : Char} {n : Nat} (hn : hex4? a b c d = some n)
    (hunit : ¬(0xD800 ≤ n ∧ n ≤ 0xDBFF)) (done cs : List Char) :
    readText done ('\\' :: 'u' :: a :: b :: c :: d :: cs) = readText (charOfUnit n :: done) cs := by
  rw [readText.eq_def]
  split
  · rename_i heq
    cases heq
  · rename_i heq
    cases heq
  · rename_i e f g h rest heq
    cases heq
    rw [hn]
    cases hnext : hex4? e f g h with
    | none =>
        -- the next escape is refused in any case
        exact (readText_of_not_unit hnext _ _).symm
    | some lo =>
        have hpair : (0xD800 ≤ n && n ≤ 0xDBFF && 0xDC00 ≤ lo && lo ≤ 0xDFFF) = false := by
          simp only [Bool.and_eq_false_iff, decide_eq_false_iff_not]
          omega
        simp only [hpair, Bool.false_eq_true, if_false]
  · rename_i heq
    cases heq
    rw [hn]
  · rename_i hno heq
    cases heq
    exact (hno a b c d cs rfl rfl).elim
  · rename_i hno _ heq
    cases heq
    exact (hno a b c d cs rfl rfl).elim

/-- A pair of code units is read as one character. -/
theorem readText_pair {a b c d e f g h : Char} {hi lo : Nat} (hhi : hex4? a b c d = some hi)
    (hlo : hex4? e f g h = some lo) (hpair : (0xD800 ≤ hi ∧ hi ≤ 0xDBFF) ∧ 0xDC00 ≤ lo ∧
      lo ≤ 0xDFFF) (done cs : List Char) :
    readText done ('\\' :: 'u' :: a :: b :: c :: d :: '\\' :: 'u' :: e :: f :: g :: h :: cs) =
      readText (Char.ofNat (0x10000 + (hi - 0xD800) * 0x400 + (lo - 0xDC00)) :: done) cs := by
  have hcond : (0xD800 ≤ hi && hi ≤ 0xDBFF && 0xDC00 ≤ lo && lo ≤ 0xDFFF) = true := by
    simp only [Bool.and_eq_true, decide_eq_true_eq]
    omega
  rw [readText]
  simp only [hhi, hlo, hcond, if_true]

theorem readText_plain {c : Char} (hquote : c ≠ '"') (hslash : c ≠ '\\') (hc : 32 ≤ c.toNat)
    (done cs : List Char) : readText done (c :: cs) = readText (c :: done) cs := by
  have hcontrol : ¬c.toNat < 32 := by omega
  rw [readText.eq_def]
  split
  · rename_i heq
    cases heq
  · rename_i heq
    cases heq
    exact absurd rfl hquote
  · rename_i heq
    cases heq
    exact absurd rfl hslash
  · rename_i heq
    cases heq
    exact absurd rfl hslash
  · rename_i heq
    cases heq
    exact absurd rfl hslash
  · rename_i heq
    cases heq
    rw [if_neg hcontrol]

/-- One more place in front is one more digit at the end, of a number that is sixteen times
smaller. -/
theorem toList_hexText_succ (width n : Nat) (hwidth : 0 < width) :
    (hexText (width + 1) n).toList = (hexText width (n / 16)).toList ++
      [Nat.digitChar (n % 16)] := by
  simp only [hexText, String.toList_ofList]
  by_cases h : n < 16
  · have hdiv : n / 16 = 0 := by omega
    obtain ⟨k, rfl⟩ : ∃ k, width = k + 1 := ⟨width - 1, by omega⟩
    rw [Nat.toDigits_of_lt_base h, hdiv, Nat.toDigits_zero, Nat.mod_eq_of_lt h]
    simp [List.replicate_succ']
  · rw [Nat.toDigits_of_base_le (by decide) (by omega : 16 ≤ n)]
    simp

/-- Four hexadecimal digits of a number. -/
theorem toList_hexText {n : Nat} (h : n < 0x10000) :
    (hexText 4 n).toList =
      [Nat.digitChar (n / 4096), Nat.digitChar (n / 256 % 16), Nat.digitChar (n / 16 % 16),
        Nat.digitChar (n % 16)] := by
  have hfirst : (hexText 1 (n / 16 / 16 / 16)).toList = [Nat.digitChar (n / 16 / 16 / 16)] := by
    rw [hexText, String.toList_ofList, Nat.toDigits_of_lt_base (by omega)]
    rfl
  rw [toList_hexText_succ 3 n (by decide), toList_hexText_succ 2 _ (by decide),
    toList_hexText_succ 1 _ (by decide), hfirst]
  simp [Nat.div_div_eq_div_mul]

theorem hex4?_digits {n : Nat} (h : n < 0x10000) :
    hex4? (Nat.digitChar (n / 4096)) (Nat.digitChar (n / 256 % 16)) (Nat.digitChar (n / 16 % 16))
      (Nat.digitChar (n % 16)) = some n := by
  have hdigit : ∀ d < 16, Text.hexValue? (Nat.digitChar d) = some d := by decide
  simp only [hex4?, List.mapM_cons, List.mapM_nil, hdigit (n / 4096) (by omega),
    hdigit (n / 256 % 16) (by omega), hdigit (n / 16 % 16) (by omega), hdigit (n % 16) (by omega)]
  change some _ = some n
  simp only [List.foldl_cons, List.foldl_nil, Option.some.injEq]
  omega

/-- The code points that are characters. -/
theorem toNat_valid (c : Char) : c.toNat < 0xD800 ∨ (0xDFFF < c.toNat ∧ c.toNat < 0x110000) :=
  c.valid

/-- A character that is written as code units is read as that character. -/
theorem readText_unitText (c : Char) (done cs : List Char) :
    readText done ((unitText c.toNat).toList ++ cs) = readText (c :: done) cs := by
  have hvalid := toNat_valid c
  unfold unitText
  split
  · rename_i hsmall
    -- one unit stands for itself, as no character is a surrogate
    have hchar : charOfUnit c.toNat = c := by
      have hno : (0xD800 ≤ c.toNat && c.toNat ≤ 0xDFFF) = false := by
        simp only [Bool.and_eq_false_iff, decide_eq_false_iff_not]
        omega
      simp only [charOfUnit, hno, Bool.false_eq_true, if_false, Char.ofNat_toNat]
    rw [String.toList_append, toList_hexText hsmall]
    have hread := readText_unit (hex4?_digits hsmall) (by omega) done cs
    rw [hchar] at hread
    exact hread
  · rename_i hlarge
    have hhi : 0xD800 + (c.toNat - 0x10000) / 0x400 < 0x10000 := by omega
    have hlo : 0xDC00 + (c.toNat - 0x10000) % 0x400 < 0x10000 := by omega
    rw [String.toList_append, String.toList_append, String.toList_append, toList_hexText hhi,
      toList_hexText hlo]
    have hread := readText_pair (hex4?_digits hhi) (hex4?_digits hlo) (by omega) done cs
    -- the two halves of the pair add up to the character again
    have hsum : 0x10000 + (0xD800 + (c.toNat - 0x10000) / 0x400 - 0xD800) * 0x400 +
        (0xDC00 + (c.toNat - 0x10000) % 0x400 - 0xDC00) = c.toNat := by omega
    rw [hsum, Char.ofNat_toNat] at hread
    exact hread

/-- A character is read as it was written. -/
theorem readText_escaped (c : Char) (done cs : List Char) :
    readText done ((escaped c).toList ++ cs) = readText (c :: done) cs := by
  unfold escaped
  split
  · rfl
  · rfl
  · rfl
  · rfl
  · rfl
  · rfl
  · rfl
  · -- the short escapes compute, which leaves code units and characters that stand for themselves
    rename_i hquote hslash _ _ _ _ _
    split
    · exact readText_unitText c done cs
    · rename_i hplain
      simp only [Bool.or_eq_true, decide_eq_true_eq, not_or, Nat.not_lt] at hplain
      rw [String.toList_ofList]
      exact readText_plain hquote hslash hplain.1 done cs

/-- **A text is read as it was written.** -/
theorem readText_quote (cs rest : List Char) (done : List Char) :
    readText done (cs.flatMap (fun c => (escaped c).toList) ++ '"' :: rest) =
      some (String.ofList (done.reverse ++ cs), rest) := by
  induction cs generalizing done with
  | nil => simp [readText]
  | cons c cs ih => rw [List.flatMap_cons, List.append_assoc, readText_escaped, ih]; simp

theorem toList_quote (s : String) :
    (quote s).toList = '"' :: s.toList.flatMap (fun c => (escaped c).toList) ++ ['"'] := by
  simp [quote, String.toList_join, List.flatMap_map]

/-! ## Integers -/

/-- What may follow a value: nothing, or a character that is no part of it. -/
def Ends (rest : List Char) : Prop := ∀ c ∈ rest.head?, c = ',' ∨ c = ']' ∨ c = '\x7d' ∨ c = '\n'

theorem Ends.cons {c : Char} {cs : List Char} (h : c = ',' ∨ c = ']' ∨ c = '\x7d' ∨ c = '\n') :
    Ends (c :: cs) := by
  intro c' hc'
  cases hc'
  exact h

/-- A value ends where no number goes on. -/
theorem Ends.stops {rest : List Char} (h : Ends rest) :
    rest.takeWhile Char.isDigit = [] ∧ readFraction rest = (none, rest) ∧
      readExponent rest = (none, rest) := by
  cases rest with
  | nil => exact ⟨rfl, rfl, rfl⟩
  | cons c cs =>
      rcases h c rfl with rfl | rfl | rfl | rfl
      · exact ⟨rfl, rfl, rfl⟩
      · exact ⟨rfl, rfl, rfl⟩
      · exact ⟨rfl, rfl, rfl⟩
      · exact ⟨rfl, rfl, rfl⟩

/-- A number does not start with a zero, unless it is zero. -/
theorem toDigits_head {n : Nat} (hn : 0 < n) : ∃ c cs, Nat.toDigits 10 n = c :: cs ∧ c ≠ '0' := by
  induction n using Nat.strong_induction_on with
  | _ n ih =>
      by_cases h : n < 10
      · refine ⟨Nat.digitChar n, [], Nat.toDigits_of_lt_base h, ?_⟩
        have hdigit : ∀ d < 10, 0 < d → Nat.digitChar d ≠ '0' := by decide
        exact hdigit n h hn
      · obtain ⟨c, cs, hcs, hc⟩ := ih (n / 10) (by omega) (by omega)
        refine ⟨c, cs ++ [Nat.digitChar (n % 10)], ?_, hc⟩
        rw [Nat.toDigits_of_base_le (by decide) (by omega), hcs]
        rfl

theorem wholePart_toDigits (n : Nat) {rest : List Char} (h : Ends rest) :
    wholePart (Nat.toDigits 10 n ++ rest) = Nat.toDigits 10 n := by
  unfold wholePart
  split
  · rename_i tail heq
    rcases Nat.eq_zero_or_pos n with rfl | hpos
    · rw [Nat.toDigits_zero]
    · obtain ⟨c, cs, hcs, hc⟩ := toDigits_head hpos
      rw [hcs] at heq
      cases heq
      exact absurd rfl hc
  · rw [List.takeWhile_append_of_pos fun c hc => Nat.isDigit_of_mem_toDigits (by decide)
      (by decide) hc, h.stops.1, List.append_nil]

theorem readNumber_toDigits (negative : Bool) {n : Nat}
    (hn : (Nat.toDigits 10 n).length ≤ digitLimit) {rest : List Char} (h : Ends rest) :
    readNumber negative (Nat.toDigits 10 n ++ rest) =
      .ok (.int (if negative then -(n : Int) else n), rest) := by
  have hempty : (Nat.toDigits 10 n).isEmpty = false := by simp [Nat.toDigits_ne_nil]
  have hlength : ¬digitLimit < (Nat.toDigits 10 n).length := Nat.not_lt.mpr hn
  have hvalue : ofDigits (Nat.toDigits 10 n) = n := Nat.ofDigitChars_ten_toDigits
  simp only [readNumber, wholePart_toDigits n h, hempty, List.drop_left, h.stops.2.1, h.stops.2.2,
    hlength, hvalue]
  rfl

theorem not_mem_of_isDigit {c : Char} {signs : List Char} (hsigns : signs.any Char.isDigit = false)
    (hc : c.isDigit = true) : c ∉ signs := by
  intro hmem
  have hany : signs.any Char.isDigit = true := List.any_eq_true.mpr ⟨c, hmem, hc⟩
  rw [hsigns] at hany
  cases hany

theorem readLiteral?_of_digit {c : Char} (hc : c.isDigit = true) (cs : List Char) :
    readLiteral? (c :: cs) = none ∧ readLiteral? ('-' :: c :: cs) = none := by
  have hne : ∀ x ∈ ['n', 't', 'f', 'N', 'I', '-'], x ≠ c := by
    rintro x hx rfl
    exact not_mem_of_isDigit (by decide) hc hx
  simp only [List.mem_cons, List.not_mem_nil, or_false, forall_eq_or_imp, forall_eq] at hne
  obtain ⟨hn, ht, hf, hN, hI, hminus⟩ := hne
  constructor
  · simp [readLiteral?, literals, hn, ht, hf, hN, hI, hminus]
  · simp [readLiteral?, literals, hI]

/-- What is neither a text nor a list nor a table is a literal word or a number. -/
theorem readValue_scalar {c : Char} (hquote : c ≠ '"') (hlist : c ≠ '[') (htable : c ≠ '\x7b')
    (d : Nat) (cs : List Char) : readValue (d + 1) (c :: cs) =
      match readLiteral? (c :: cs) with
      | some found => .ok found
      | none =>
        match c :: cs with
        | '-' :: digits => readNumber true digits
        | digits => readNumber false digits := by
  rw [readValue.eq_def]
  split
  · rename_i heq
    cases heq
  · rename_i heq
    cases heq
    exact absurd rfl hquote
  · rename_i heq
    cases heq
    exact absurd rfl hlist
  · rename_i heq
    cases heq
    exact absurd rfl htable
  · rfl

/-- Characters that start something else than a positive integer. -/
def otherSigns : List Char := ['"', '[', '\x7b', '-', ']', '\x7d', ' ', '\t', '\n', '\r']

/-- The digits of a number start with a digit, and not with another sign. -/
theorem toDigits_cons (n : Nat) :
    ∃ c cs, Nat.toDigits 10 n = c :: cs ∧ c.isDigit = true ∧ ∀ x ∈ otherSigns, c ≠ x := by
  obtain ⟨c, cs, hcs⟩ := List.exists_cons_of_ne_nil (Nat.toDigits_ne_nil (n := n) (b := 10))
  have hc : c.isDigit = true :=
    Nat.isDigit_of_mem_toDigits (by decide) (by decide) (hcs ▸ List.mem_cons_self)
  refine ⟨c, cs, hcs, hc, ?_⟩
  rintro x hx rfl
  exact not_mem_of_isDigit (by decide) hc hx

theorem readValue_toDigits {n : Nat} (hn : (Nat.toDigits 10 n).length ≤ digitLimit) (d : Nat)
    {rest : List Char} (h : Ends rest) :
    readValue (d + 1) (Nat.toDigits 10 n ++ rest) = .ok (.int n, rest) := by
  have hread := readNumber_toDigits false hn h
  obtain ⟨c, cs, hcs, hc, hno⟩ := toDigits_cons n
  rw [hcs] at hread ⊢
  rw [List.cons_append, readValue_scalar (hno _ (by decide)) (hno _ (by decide))
    (hno _ (by decide)), (readLiteral?_of_digit hc _).1]
  split
  · rename_i heq
    cases heq
  · split
    · rename_i heq
      cases heq
      exact absurd rfl (hno _ (by decide))
    · exact hread

theorem readValue_minus {n : Nat} (hn : (Nat.toDigits 10 n).length ≤ digitLimit) (d : Nat)
    {rest : List Char} (h : Ends rest) :
    readValue (d + 1) ('-' :: (Nat.toDigits 10 n ++ rest)) = .ok (.int (-n), rest) := by
  have hread := readNumber_toDigits true hn h
  obtain ⟨c, cs, hcs, hc, -⟩ := toDigits_cons n
  rw [hcs] at hread ⊢
  rw [List.cons_append, readValue_scalar (by decide) (by decide) (by decide),
    (readLiteral?_of_digit hc _).2]
  exact hread

/-- **An integer is read as it was written**, if it is not too long. -/
theorem readValue_int {n : Int} (hn : isPrintable n = true) (d : Nat) {rest : List Char}
    (h : Ends rest) :
    readValue (d + 1) ((render (.int n)).toList ++ rest) = .ok (.int n, rest) := by
  have hdigits : (Nat.toDigits 10 n.natAbs).length ≤ digitLimit := of_decide_eq_true hn
  cases n with
  | ofNat m =>
      have htext : (render (.int (.ofNat m))).toList = Nat.toDigits 10 m := by
        rw [render]
        exact Nat.toList_repr
      rw [htext]
      exact readValue_toDigits hdigits d h
  | negSucc m =>
      have htext : (render (.int (.negSucc m))).toList = '-' :: Nat.toDigits 10 (m + 1) := by
        rw [render]
        change ("-" ++ (m + 1).repr).toList = _
        rw [String.toList_append, Nat.toList_repr]
        rfl
      rw [htext]
      exact readValue_minus hdigits d h

/-! ## Values -/

end Scorecard.Json

namespace Scorecard

/-- Fields in the order of their names. -/
def Fields.byName {α : Type} (a b : String × α) : Bool := Text.precedes a.1 b.1

namespace Value

mutual

/-- The value with the fields of all its tables in the order of their names. -/
def sorted : Value → Value
  | .list items => .list (sortedItems items)
  | .table fields => .table ((sortedFields fields).mergeSort Fields.byName)
  | v => v

def sortedItems : List Value → List Value
  | [] => []
  | v :: vs => v.sorted :: sortedItems vs

def sortedFields : Fields → Fields
  | [] => []
  | (name, v) :: fs => (name, v.sorted) :: sortedFields fs

end

theorem sortedItems_eq_map (items : List Value) : sortedItems items = items.map sorted := by
  induction items with
  | nil => rfl
  | cons v vs ih => rw [sortedItems, ih, List.map_cons]

theorem sortedFields_eq_map (fields : Fields) :
    sortedFields fields = fields.map fun p => (p.1, p.2.sorted) := by
  induction fields with
  | nil => rfl
  | cons p fs ih => rw [sortedFields, ih, List.map_cons]

mutual

/-- A value without numbers and moments, in which integers are not too long and the names of a table
are distinct. -/
def Plain : Value → Prop
  | .null | .bool _ | .text _ => True
  | .int n => isPrintable n = true
  | .number _ | .moment _ => False
  | .list items => PlainItems items
  | .table fields => (fields.map (·.1)).Nodup ∧ PlainFields fields

def PlainItems : List Value → Prop
  | [] => True
  | v :: vs => v.Plain ∧ PlainItems vs

def PlainFields : Fields → Prop
  | [] => True
  | (_, v) :: fs => v.Plain ∧ PlainFields fs

end

theorem plainItems_iff (items : List Value) : PlainItems items ↔ ∀ v ∈ items, v.Plain := by
  induction items with
  | nil => simp [PlainItems]
  | cons v vs ih => simp [PlainItems, ih]

theorem plainFields_iff (fields : Fields) : PlainFields fields ↔ ∀ p ∈ fields, p.2.Plain := by
  induction fields with
  | nil => simp [PlainFields]
  | cons p fs ih => simp [PlainFields, ih]

end Value

namespace Json

/-- The text of a value. -/
def chars (v : Value) : List Char := (render v).toList

/-- A value is read as it was written, if the depth is at least the length of the text. -/
def Reads (v : Value) : Prop :=
  ∀ (d : Nat) (rest : List Char), Ends rest → (chars v).length ≤ d →
    readValue d (chars v ++ rest) = .ok (v.sorted, rest)

theorem renderItems_eq_map (items : List Value) : renderItems items = items.map render := by
  induction items with
  | nil => rfl
  | cons v vs ih => rw [renderItems, ih, List.map_cons]

theorem renderFields_eq_map (fields : Fields) :
    renderFields fields = fields.map fun p => (p.1, render p.2) := by
  induction fields with
  | nil => rfl
  | cons p fs ih => rw [renderFields, ih, List.map_cons]

/-- The text between the brackets of a list. -/
def itemsChars (items : List Value) : List Char := List.intercalate [',', ' '] (items.map chars)

theorem chars_list (items : List Value) :
    chars (.list items) = '[' :: (itemsChars items ++ [']']) := by
  simp only [chars, render, renderItems_eq_map, String.toList_append, String.toList_intercalate,
    List.map_map, itemsChars]
  rfl

/-- The text of a field. -/
def memberChars (p : String × Value) : List Char := (quote p.1).toList ++ ':' :: ' ' :: chars p.2

/-- The text between the braces of a table with its fields in order. -/
def membersChars (fields : Fields) : List Char :=
  List.intercalate [',', ' '] (fields.map memberChars)

theorem chars_table (fields : Fields) :
    chars (.table fields) =
      '\x7b' :: (membersChars (fields.mergeSort Fields.byName) ++ ['\x7d']) := by
  have hsort :
      (fields.map fun p => (p.1, render p.2)).mergeSort (fun a b => Text.precedes a.1 b.1) =
      (fields.mergeSort Fields.byName).map fun p => (p.1, render p.2) :=
    (List.map_mergeSort (r := Fields.byName) (f := fun p : String × Value => (p.1, render p.2))
      fun _ _ _ _ => rfl).symm
  have hmember : String.toList ∘ (fun m : String × String => quote m.1 ++ ": " ++ m.2) ∘
      (fun p : String × Value => (p.1, render p.2)) = memberChars := by
    funext p
    simp [memberChars, chars]
  simp only [chars, render, renderFields_eq_map, hsort, String.toList_append,
    String.toList_intercalate, List.map_map, hmember, membersChars]
  rfl

/-! ## Lists and tables -/

/-- A text that starts with neither a space nor the end of a list or a table. -/
def Starts (cs : List Char) : Prop :=
  ∃ c rest, cs = c :: rest ∧ isSpace c = false ∧ c ≠ ']' ∧ c ≠ '\x7d'

theorem Starts.append {cs : List Char} (h : Starts cs) (more : List Char) :
    Starts (cs ++ more) := by
  obtain ⟨c, rest, rfl, hstart⟩ := h
  exact ⟨c, rest ++ more, rfl, hstart⟩

theorem Starts.skipSpace_eq {cs : List Char} (h : Starts cs) : skipSpace cs = cs := by
  obtain ⟨c, rest, rfl, hspace, -⟩ := h
  simp [skipSpace, hspace]

theorem starts_cons {c : Char} (cs : List Char) (h : isSpace c = false ∧ c ≠ ']' ∧ c ≠ '\x7d') :
    Starts (c :: cs) :=
  ⟨c, cs, rfl, h⟩

theorem starts_chars {v : Value} (h : v.Plain) : Starts (chars v) := by
  cases v with
  | null => exact starts_cons _ (by decide)
  | bool b => cases b <;> exact starts_cons _ (by decide)
  | int n =>
      cases n with
      | ofNat m =>
          obtain ⟨c, cs, hcs, -, hno⟩ := toDigits_cons m
          have htext : chars (.int (.ofNat m)) = c :: cs := by
            rw [chars, render, ← hcs]
            exact Nat.toList_repr
          rw [htext]
          refine starts_cons _ ⟨?_, hno _ (by decide), hno _ (by decide)⟩
          simp [isSpace, hno ' ' (by decide), hno '\t' (by decide), hno '\n' (by decide),
            hno '\r' (by decide)]
      | negSucc m =>
          have htext : chars (.int (.negSucc m)) = '-' :: (m + 1).repr.toList := by
            rw [chars, render]
            exact String.toList_append
          rw [htext]
          exact starts_cons _ (by decide)
  | text t =>
      rw [chars, render, toList_quote]
      exact starts_cons _ (by decide)
  | list items =>
      rw [chars_list]
      exact starts_cons _ (by decide)
  | table fields =>
      rw [chars_table]
      exact starts_cons _ (by decide)
  | number x => exact h.elim
  | moment t => exact h.elim

theorem starts_memberChars (p : String × Value) : Starts (memberChars p) := by
  rw [memberChars, toList_quote]
  exact starts_cons _ (by decide)

/-- Texts that are put together start as the first of them. -/
theorem starts_intercalate {cs : List Char} (h : Starts cs) (more : List (List Char)) :
    Starts (List.intercalate [',', ' '] (cs :: more)) := by
  cases more with
  | nil => simpa using h
  | cons next more =>
      rw [List.intercalate_cons_cons, List.append_assoc]
      exact h.append _

/-- The items of a list are read as they were written. -/
theorem readItems_chars (items : List Value) (hne : items ≠ []) (hplain : ∀ v ∈ items, v.Plain)
    (h : ∀ v ∈ items, Reads v) (rest : List Char) (d : Nat) (hd : (itemsChars items).length < d) :
    readItems d (itemsChars items ++ ']' :: rest) = .ok (items.map Value.sorted, rest) := by
  induction items generalizing d with
  | nil => exact absurd rfl hne
  | cons v vs ih =>
      obtain ⟨d, rfl⟩ : ∃ k, d = k + 1 := ⟨d - 1, by omega⟩
      cases vs with
      | nil =>
          simp only [itemsChars, List.map_cons, List.map_nil, List.intercalate_singleton] at hd ⊢
          rw [readItems, h v List.mem_cons_self d (']' :: rest) (.cons (by simp)) (by omega)]
          rfl
      | cons w ws =>
          have htext : itemsChars (v :: w :: ws) ++ ']' :: rest =
              chars v ++ ',' :: ' ' :: (itemsChars (w :: ws) ++ ']' :: rest) := by simp [itemsChars]
          have hlength :
              (itemsChars (v :: w :: ws)).length =
                (chars v).length + (itemsChars (w :: ws)).length + 2 := by
            simp [itemsChars]
            omega
          -- the next item starts with what is no space, so only the written space is skipped
          have hstarts : Starts (itemsChars (w :: ws) ++ ']' :: rest) :=
            (starts_intercalate (starts_chars (hplain w (by simp))) _).append _
          have hrest := ih (by simp) (fun u hu => hplain u (List.mem_cons_of_mem _ hu))
            (fun u hu => h u (List.mem_cons_of_mem _ hu)) d (by omega)
          rw [htext, readItems, h v List.mem_cons_self d _ (.cons (by simp)) (by omega)]
          change (readItems d (skipSpace (itemsChars (w :: ws) ++ ']' :: rest)) >>= _) = _
          rw [hstarts.skipSpace_eq, hrest]
          rfl

end Json

/-- A new field goes to the end. -/
theorem Fields.set_of_not_mem {fields : Fields} {name : String} (h : name ∉ fields.map (·.1))
    (v : Value) : fields.set name v = fields ++ [(name, v)] := by
  induction fields with
  | nil => rfl
  | cons p fs ih =>
      rw [List.map_cons, List.mem_cons, not_or] at h
      rw [Fields.set, if_neg (Ne.symm h.1), ih h.2, List.cons_append]

namespace Json

/-- One field is read as it was written, and what follows decides how the reading goes on. -/
theorem readMembers_memberChars {p : String × Value} (hplain : p.2.Plain) (h : Reads p.2)
    (done : Fields) {more : List Char} (hmore : Ends more) {d : Nat} (hd : (chars p.2).length ≤ d) :
    readMembers (d + 1) done (memberChars p ++ more) =
      match skipSpace more with
      | '\x7d' :: rest => .ok (done.set p.1 p.2.sorted, rest)
      | ',' :: rest => readMembers d (done.set p.1 p.2.sorted) (skipSpace rest)
      | _ => .error .malformed := by
  have htext : memberChars p ++ more =
      '"' :: (p.1.toList.flatMap (fun c => (escaped c).toList) ++
        '"' :: ':' :: ' ' :: (chars p.2 ++ more)) := by
    simp [memberChars, toList_quote]
  have hname :
      readText [] (p.1.toList.flatMap (fun c => (escaped c).toList) ++
        '"' :: ':' :: ' ' :: (chars p.2 ++ more)) =
      some (p.1, ':' :: ' ' :: (chars p.2 ++ more)) := by
    rw [readText_quote, List.reverse_nil, List.nil_append, String.ofList_toList]
  have hspace : skipSpace (chars p.2 ++ more) = chars p.2 ++ more :=
    ((starts_chars hplain).append more).skipSpace_eq
  rw [htext, readMembers]
  simp only [hname]
  change (readValue d (skipSpace (chars p.2 ++ more)) >>= _) = _
  rw [hspace, h d more hmore hd]
  rfl

/-- The fields of a table are read as they were written. -/
theorem readMembers_chars (fs : Fields) (hne : fs ≠ []) (hplain : ∀ p ∈ fs, p.2.Plain)
    (h : ∀ p ∈ fs, Reads p.2) (done : Fields) (hnames : ((done ++ fs).map (·.1)).Nodup)
    (rest : List Char) (d : Nat) (hd : (membersChars fs).length < d) :
    readMembers d done (membersChars fs ++ '\x7d' :: rest) =
      .ok (done ++ fs.map (fun p => (p.1, p.2.sorted)), rest) := by
  induction fs generalizing done d with
  | nil => exact absurd rfl hne
  | cons p fs ih =>
      obtain ⟨d, rfl⟩ : ∃ k, d = k + 1 := ⟨d - 1, by omega⟩
      -- a name that was there before would be overwritten in place
      have hnew : p.1 ∉ done.map (·.1) := by
        rw [List.map_append, List.map_cons] at hnames
        intro hmem
        exact (List.disjoint_of_nodup_append hnames) hmem List.mem_cons_self
      have hset : done.set p.1 p.2.sorted = done ++ [(p.1, p.2.sorted)] :=
        Fields.set_of_not_mem hnew _
      have hp := h p List.mem_cons_self
      have hpplain := hplain p List.mem_cons_self
      cases fs with
      | nil =>
          simp only [membersChars, List.map_cons, List.map_nil, List.intercalate_singleton] at hd ⊢
          have hlength : (chars p.2).length ≤ (memberChars p).length := by simp [memberChars]; omega
          rw [readMembers_memberChars hpplain hp done (.cons (by simp)) (by omega), hset]
          rfl
      | cons q qs =>
          have htext : membersChars (p :: q :: qs) ++ '\x7d' :: rest =
              memberChars p ++ ',' :: ' ' :: (membersChars (q :: qs) ++ '\x7d' :: rest) := by
                simp [membersChars]
          have hlength :
              (membersChars (p :: q :: qs)).length =
                (memberChars p).length + (membersChars (q :: qs)).length + 2 := by
            simp [membersChars]
            omega
          have hmember : (chars p.2).length ≤ (memberChars p).length := by simp [memberChars]; omega
          have hstarts : Starts (membersChars (q :: qs) ++ '\x7d' :: rest) :=
            (starts_intercalate (starts_memberChars q) _).append _
          have hrest := ih (by simp) (fun r hr => hplain r (List.mem_cons_of_mem _ hr))
            (fun r hr => h r (List.mem_cons_of_mem _ hr)) (done ++ [(p.1, p.2.sorted)])
              (by simpa using hnames) d (by omega)
          rw [htext, readMembers_memberChars hpplain hp done (.cons (by simp)) (by omega), hset]
          change readMembers d _ (skipSpace (membersChars (q :: qs) ++ '\x7d' :: rest)) = _
          rw [hstarts.skipSpace_eq, hrest]
          simp

/-! ## Round trip -/

theorem reads_list {items : List Value} (hplain : ∀ v ∈ items, v.Plain) (h : ∀ v ∈ items, Reads v) :
    Reads (.list items) := by
  intro d rest hrest hd
  rw [chars_list] at hd ⊢
  obtain ⟨d, rfl⟩ : ∃ k, d = k + 1 := ⟨d - 1, by simp at hd; omega⟩
  simp only [List.length_cons, List.length_append, List.length_nil] at hd
  have hsorted : (Value.list items).sorted = .list (items.map Value.sorted) := by
    rw [Value.sorted, Value.sortedItems_eq_map]
  rw [hsorted, List.cons_append, List.append_assoc]
  cases items with
  | nil => rfl
  | cons v vs =>
      have hstarts : Starts (itemsChars (v :: vs) ++ ']' :: rest) :=
        (starts_intercalate (starts_chars (hplain v List.mem_cons_self)) _).append _
      have hitems := readItems_chars (v :: vs) (by simp) hplain h rest d (by omega)
      change readValue (d + 1) ('[' :: (itemsChars (v :: vs) ++ ']' :: rest)) = _
      rw [readValue, hstarts.skipSpace_eq]
      split
      · rename_i heq
        -- the first item does not start with a bracket, so the list is not taken for an empty one
        obtain ⟨c, more, hc, -, hclose, -⟩ := hstarts
        rw [hc] at heq
        cases heq
        exact absurd rfl hclose
      · rw [hitems]
        rfl

theorem reads_table {fields : Fields} (hnames : (fields.map (·.1)).Nodup)
    (hplain : ∀ p ∈ fields, p.2.Plain) (h : ∀ p ∈ fields, Reads p.2) : Reads (.table fields) := by
  intro d rest hrest hd
  set fs := fields.mergeSort Fields.byName with hfs
  have hperm : fs.Perm fields := List.mergeSort_perm _ _
  -- the fields are written in the order of their names, and read in the order they are written
  have hsorted : (Value.table fields).sorted = .table (fs.map fun p => (p.1, p.2.sorted)) := by
    rw [Value.sorted, Value.sortedFields_eq_map, hfs]
    exact congrArg Value.table
      (List.map_mergeSort (r := Fields.byName) (f := fun p : String × Value => (p.1, p.2.sorted))
        fun _ _ _ _ => rfl).symm
  rw [chars_table, ← hfs] at hd ⊢
  obtain ⟨d, rfl⟩ : ∃ k, d = k + 1 := ⟨d - 1, by simp at hd; omega⟩
  simp only [List.length_cons, List.length_append, List.length_nil] at hd
  rw [hsorted, List.cons_append, List.append_assoc]
  by_cases hempty : fs = []
  · rw [hempty]
    rfl
  · have hmembers := readMembers_chars fs hempty (fun p hp => hplain p (hperm.mem_iff.mp hp))
      (fun p hp => h p (hperm.mem_iff.mp hp)) [] ((hperm.map _).nodup_iff.mpr hnames) rest d
        (by omega)
    obtain ⟨p, ps, hps⟩ := List.exists_cons_of_ne_nil hempty
    have hstarts : Starts (membersChars fs ++ '\x7d' :: rest) := by
      rw [hps]
      exact (starts_intercalate (starts_memberChars p) _).append _
    change readValue (d + 1) ('\x7b' :: (membersChars fs ++ '\x7d' :: rest)) = _
    rw [readValue, hstarts.skipSpace_eq]
    split
    · rename_i heq
      obtain ⟨c, more, hc, -, -, hclose⟩ := hstarts
      rw [hc] at heq
      cases heq
      exact absurd rfl hclose
    · rw [hmembers]
      rfl

/-- Values without parts are read at any depth. -/
theorem reads_of_atom {v : Value} (hplain : v.Plain)
    (h : ∀ d rest, Ends rest → readValue (d + 1) (chars v ++ rest) = .ok (v.sorted, rest)) :
    Reads v := by
  intro d rest hrest hd
  obtain ⟨c, cs, hcs, -⟩ := starts_chars hplain
  obtain ⟨d, rfl⟩ : ∃ k, d = k + 1 := ⟨d - 1, by simp [hcs] at hd; omega⟩
  exact h d rest hrest

theorem readValue_text (t : String) (d : Nat) (rest : List Char) :
    readValue (d + 1) (chars (.text t) ++ rest) = .ok (.text t, rest) := by
  have htext :
      chars (.text t) ++ rest =
        '"' :: (t.toList.flatMap (fun c => (escaped c).toList) ++ '"' :: rest) := by
    simp [chars, render, toList_quote]
  rw [htext, readValue]
  simp only [readText_quote, List.reverse_nil, List.nil_append, String.ofList_toList]

/-- Every plain value is read as it was written, up to the order of fields. -/
theorem reads_of_plain : (v : Value) → v.Plain → Reads v
  | .null, h => reads_of_atom h fun _ _ _ => rfl
  | .bool true, h => reads_of_atom h fun _ _ _ => rfl
  | .bool false, h => reads_of_atom h fun _ _ _ => rfl
  | .int _, h => reads_of_atom h fun d _ hrest => readValue_int h d hrest
  | .text t, h => reads_of_atom h fun d rest _ => readValue_text t d rest
  | .list items, h =>
      have hplain := (Value.plainItems_iff items).mp h
      reads_list hplain fun v hv => reads_of_plain v (hplain v hv)
  | .table fields, h =>
      have hplain := (Value.plainFields_iff fields).mp h.2
      reads_table h.1 hplain fun p hp => reads_of_plain p.2 (hplain p hp)
  | .number _, h => h.elim
  | .moment _, h => h.elim
termination_by v => sizeOf v
decreasing_by
  · have hitem := List.sizeOf_lt_of_mem hv
    simp only [Value.list.sizeOf_spec]
    omega
  · have hfield := List.sizeOf_lt_of_mem hp
    have hvalue : sizeOf p = 1 + sizeOf p.1 + sizeOf p.2 := rfl
    simp only [Value.table.sizeOf_spec]
    omega

/-- **JSON texts are read as they were written**, with the fields of tables in the order of their
names. -/
theorem parse_render {v : Value} (h : v.Plain) : parse (render v ++ "\n") = .ok v.sorted := by
  have htext : (render v ++ "\n").toList = chars v ++ ['\n'] := String.toList_append
  have hread :=
    reads_of_plain v h ((chars v ++ ['\n']).length + 1) ['\n'] (.cons (by simp)) (by simp; omega)
  have hspace : skipSpace (chars v ++ ['\n']) = chars v ++ ['\n'] :=
    ((starts_chars h).append _).skipSpace_eq
  simp only [parse, htext, hspace, hread]
  rfl

end Json

end Scorecard
