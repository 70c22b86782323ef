import Mathlib.Algebra.GroupWithZero.Nat
import Mathlib.Data.List.Basic
import Mathlib.Data.List.Infix
import Scorecard.Source.Grammar.Basic
import Scorecard.Source.Lexer

set_option autoImplicit false

/-! # How much a source text holds

The lexer reads a text from its front to its end: what it has not read yet is a suffix of the text,
and a token is never longer than the text it was read from. So the tokens of a text lie on its
lines, and their number and length is bounded by the length of the text, and no token starts before
the one in front of it ends (`tokens?_bounds`). The length is counted in the `price` of a token,
which is what a tree may spend on nodes when it takes the token (`Proofs/ReaderBounds.lean`).
-/

namespace Scorecard.Source

/-! ## Suffixes -/

theorem lineBreaks_append (as bs : List Char) :
    lineBreaks (as ++ bs) = lineBreaks as + lineBreaks bs :=
  List.countP_append

theorem lineBreaks_newline (cs : List Char) : lineBreaks ('\n' :: cs) = lineBreaks cs + 1 :=
  List.countP_cons_of_pos rfl

theorem lineBreaks_le_of_suffix {as bs : List Char} (h : as <:+ bs) :
    lineBreaks as ≤ lineBreaks bs :=
  h.sublist.countP_le

/-- A text that is empty or ends with a newline. -/
def EndsLine (cs : List Char) : Prop := ∀ c, cs.getLast? = some c → c = '\n'

theorem EndsLine.of_suffix {as bs : List Char} (hb : EndsLine bs) (h : as <:+ bs) :
    EndsLine as := by
  obtain ⟨before, rfl⟩ := h
  intro c hc
  exact hb c (by rw [List.getLast?_append, hc, Option.some_or])

theorem EndsLine.two_le_length {c : Char} {cs : List Char} (h : EndsLine (c :: cs))
    (hc : c ≠ '\n') : 2 ≤ (c :: cs).length := by
  cases cs with
  | nil => exact absurd (h c rfl) hc
  | cons d cs => simp

theorem EndsLine.one_le_lineBreaks {cs : List Char} (h : EndsLine cs) (hcs : cs ≠ []) :
    1 ≤ lineBreaks cs := by
  have hlast : '\n' ∈ cs := by
    have hmem := List.getLast_mem hcs
    rwa [h _ (List.getLast?_eq_some_getLast hcs)] at hmem
  exact List.countP_pos_iff.mpr ⟨'\n', hlast, rfl⟩

theorem endsLine_closeLastLine (cs : List Char) : EndsLine (closeLastLine cs) := by
  intro c hc
  unfold closeLastLine at hc
  split at hc
  · rename_i hlast
    rw [hlast] at hc
    exact (Option.some.inj hc).symm
  · rw [List.getLast?_append] at hc
    exact (Option.some.inj hc).symm

/-! ## Numerals -/

namespace Numeral

theorem digitGroups_suffix {isDigit : Char → Bool} {done cs digits rest : List Char}
    (h : digitGroups isDigit done cs = some (digits, rest)) : rest <:+ cs := by
  fun_induction digitGroups isDigit done cs with
  | case1 done =>
      cases h
      exact List.suffix_refl _
  | case2 => cases h
  | case3 done c =>
      cases h
      exact List.nil_suffix
  | case4 done c =>
      cases h
      exact List.suffix_refl _
  | case5 done c d cs hc ih => exact (ih h).trans (List.suffix_cons c _)
  | case6 done c d cs hc hgap hd ih =>
      exact (ih h).trans ((List.suffix_cons d _).trans (List.suffix_cons c _))
  | case7 => cases h
  | case8 =>
      cases h
      exact List.suffix_refl _

/-- A text that starts with a digit gets shorter. -/
theorem digitGroups_length {isDigit : Char → Bool} {done cs digits rest : List Char} {c : Char}
    (h : digitGroups isDigit done (c :: cs) = some (digits, rest)) (hc : isDigit c = true) :
    rest.length < (c :: cs).length := by
  cases cs with
  | nil =>
      rw [digitGroups, if_pos hc] at h
      split at h <;> cases h
      exact Nat.one_pos
  | cons d cs =>
      rw [digitGroups, if_pos hc] at h
      exact Nat.lt_succ_of_le (digitGroups_suffix h).length_le

theorem based_suffix {base : Nat} {isDigit : Char → Bool} {cs rest : List Char} {value : Constant}
    (h : based base isDigit cs = some (value, rest)) : rest <:+ cs := by
  unfold based at h
  simp only [Option.bind_eq_bind, Option.bind_eq_some_iff, Prod.exists] at h
  obtain ⟨digits, after, hdigits, h⟩ := h
  have hafter : after <:+ cs := by
    refine (digitGroups_suffix hdigits).trans ?_
    split
    · exact List.suffix_cons _ _
    · exact List.suffix_refl _
  split at h
  · cases h
  · split at h <;> cases h
    exact hafter

theorem signed_suffix (cs : List Char) : (signed cs).2 <:+ cs := by
  fun_cases signed cs with
  | case1 rest => exact List.suffix_cons _ _
  | case2 rest => exact List.suffix_cons _ _
  | case3 rest => exact List.suffix_refl _

theorem exponent_suffix {cs rest : List Char} {e : Int} (h : exponent cs = some (some (e, rest))) :
    rest <:+ cs := by
  cases cs with
  | nil => cases h
  | cons c cs =>
      have hbody := signed_suffix cs
      simp only [exponent] at h
      generalize signed cs = p at h hbody
      obtain ⟨sign, body⟩ := p
      split at h
      · split at h
        · split at h <;> cases h
          rename_i hdigits
          exact (digitGroups_suffix hdigits).trans (hbody.trans (List.suffix_cons _ _))
        · split at h
          · cases h
          · split at h <;> cases h
      · cases h

theorem ending_suffix {whole cs rest : List Char} {fraction : Option (List Char)}
    {leadingZero : Bool} {e : Option Int} {value : Constant}
    (h : ending whole fraction leadingZero e cs = some (value, rest)) : rest <:+ cs := by
  unfold ending at h
  dsimp only at h
  split at h
  · repeat' split at h
    all_goals cases h
    · exact List.suffix_cons _ _
    all_goals exact List.suffix_refl _
  · repeat' split at h
    all_goals cases h
    all_goals exact List.suffix_refl _

theorem finish_suffix {whole cs rest : List Char} {fraction : Option (List Char)}
    {leadingZero : Bool} {value : Constant}
    (h : finish whole fraction leadingZero cs = some (value, rest)) : rest <:+ cs := by
  obtain ⟨power, hpower, h⟩ := Option.bind_eq_some_iff.mp h
  split at h
  · exact (ending_suffix h).trans (exponent_suffix hpower)
  · exact ending_suffix h

theorem afterPoint_suffix {whole cs rest : List Char} {leadingZero : Bool} {value : Constant}
    (h : afterPoint whole leadingZero cs = some (value, rest)) : rest <:+ cs := by
  unfold afterPoint at h
  split at h
  · obtain ⟨⟨places, after⟩, hplaces, h⟩ := Option.bind_eq_some_iff.mp h
    exact (finish_suffix h).trans (digitGroups_suffix hplaces)
  · exact finish_suffix h

/-- A literal takes at least one character. -/
theorem read_suffix {c : Char} {cs rest : List Char} {value : Constant}
    (h : read (c :: cs) = some (value, rest)) (hc : c.isDigit = true ∨ c = '.') :
    rest <:+ c :: cs ∧ rest.length < (c :: cs).length := by
  have hstep : ∀ {before : Char}, rest <:+ cs → rest <:+ before :: cs ∧
      rest.length < (before :: cs).length := fun hsuffix =>
    ⟨hsuffix.trans (List.suffix_cons _ _), Nat.lt_succ_of_le hsuffix.length_le⟩
  unfold read at h
  split at h
  · rename_i heq
    cases heq
    exact hstep (afterPoint_suffix h)
  -- three bases, each marked by one of two letters
  iterate 6
    rename_i heq
    cases heq
    exact hstep ((based_suffix h).trans (List.suffix_cons _ _))
  rename_i hpoint _ _ _ _ _ _
  obtain ⟨⟨whole, after⟩, hwhole, h⟩ := Option.bind_eq_some_iff.mp h
  have hdigit : c.isDigit = true := hc.resolve_right fun hdot => hpoint cs (by rw [hdot])
  -- the digits before the point take the first character
  have hafter : rest <:+ after := by
    dsimp only at h
    split at h
    · exact (afterPoint_suffix h).trans (List.suffix_cons _ _)
    · exact finish_suffix h
  exact ⟨hafter.trans (digitGroups_suffix hwhole),
    Nat.lt_of_le_of_lt hafter.length_le (digitGroups_length hwhole hdigit)⟩

end Numeral

/-! ## Text literals -/

theorem literalPrefix?_suffix {letters : String} {cs rest : List Char}
    (h : literalPrefix? cs = some (letters, rest)) : rest <:+ cs := by
  rcases cs with _ | ⟨a, _ | ⟨q, cs⟩⟩
  · cases h
  · simp only [literalPrefix?] at h
    split at h <;> cases h
    exact List.suffix_refl _
  · simp only [literalPrefix?] at h
    repeat' split at h
    all_goals cases h
    · exact List.suffix_refl _
    · exact List.suffix_cons _ _
    · exact List.suffix_cons _ _
    · exact (List.suffix_cons _ _).trans (List.suffix_cons _ _)

/-- `body` is what stands before a nonempty closing mark. -/
theorem shortBody_eq {quote : Char} {done cs body rest : List Char}
    (h : shortBody quote done cs = some (body, rest)) :
    ∃ mark, 1 ≤ mark.length ∧ done.reverse ++ cs = body ++ (mark ++ rest) := by
  fun_induction shortBody quote done cs with
  | case1 => cases h
  | case2 done c cs ih => simpa using ih h
  | case3 done c cs _ hc =>
      cases h
      exact ⟨[c], le_refl _, rfl⟩
  | case4 => cases h
  | case5 done c cs _ hc hline ih => simpa using ih h

theorem longBody_eq {quote : Char} {done cs body rest : List Char}
    (h : longBody quote done cs = some (body, rest)) :
    ∃ mark, 1 ≤ mark.length ∧ done.reverse ++ cs = body ++ (mark ++ rest) := by
  fun_induction longBody quote done cs with
  | case1 => cases h
  | case2 done c cs ih => simpa using ih h
  | case3 => cases h
  | case4 => cases h
  | case5 done a b c cs _ hquote =>
      cases h
      exact ⟨[a, b, c], by simp, rfl⟩
  | case6 done a b c cs _ hquote ih => simpa using ih h

/-- The body of a literal stands between two nonempty marks. -/
theorem readQuoted_eq {letters : String} {cs rest : List Char} {q : Quoted}
    (h : readQuoted letters cs = some (q, rest)) :
    ∃ opening closing, 1 ≤ opening.length ∧ 1 ≤ closing.length ∧
      cs = opening ++ (q.body ++ (closing ++ rest)) := by
  unfold readQuoted at h
  dsimp only at h
  split at h
  · rename_i a b c cs
    split at h
    · obtain ⟨⟨body, after⟩, hbody, heq⟩ := Option.map_eq_some_iff.mp h
      cases heq
      obtain ⟨mark, hmark, heq⟩ := longBody_eq hbody
      exact ⟨[a, b, c], mark, by simp, hmark, by rw [← heq]; rfl⟩
    · obtain ⟨⟨body, after⟩, hbody, heq⟩ := Option.map_eq_some_iff.mp h
      cases heq
      obtain ⟨mark, hmark, heq⟩ := shortBody_eq hbody
      exact ⟨[a], mark, le_refl _, hmark, by rw [← heq]; rfl⟩
  · rename_i a cs _
    obtain ⟨⟨body, after⟩, hbody, heq⟩ := Option.map_eq_some_iff.mp h
    cases heq
    obtain ⟨mark, hmark, heq⟩ := shortBody_eq hbody
    exact ⟨[a], mark, le_refl _, hmark, by rw [← heq]; rfl⟩
  · cases h

/-! ## Single tokens -/

theorem readOperator?_suffix {symbol : String} {cs rest : List Char}
    (h : readOperator? cs = some (symbol, rest)) (hcs : cs ≠ []) :
    rest <:+ cs ∧ rest.length < cs.length := by
  obtain ⟨o, ho, hread⟩ := List.exists_of_findSome?_eq_some h
  split at hread <;> cases hread
  have hlong : ∀ o ∈ operators, 1 ≤ o.length := by decide
  refine ⟨List.drop_suffix _ _, ?_⟩
  have hpos := List.length_pos_iff.mpr hcs
  rw [List.length_drop]
  exact Nat.sub_lt hpos (hlong symbol ho)

namespace TokenKind

/-- What a tree may spend on nodes when it takes a token. A literal pays for the fields that it may
hold. -/
def price : TokenKind → Nat
  | .newline | .indent | .dedent | .done => 0
  | .quoted q => 8 * (q.body.length + 1)
  | _ => 8

theorem price_of_isMark {kind : TokenKind} (h : Reader.isMark kind = true) : kind.price = 0 := by
  cases kind <;> first | rfl | cases h

end TokenKind

/-- A token ends above the last newline of the text that it is read from, and costs no more than the
characters before it. -/
structure ReadFrom (cs : List Char) (kind : TokenKind) (below : Nat) (after : List Char) :
    Prop where
  suffix : after <:+ cs
  price : kind.price + 8 * (after.length - 1) ≤ 8 * (cs.length - 1)
  breaks : below + lineBreaks after ≤ lineBreaks cs
  above : below + 1 ≤ lineBreaks cs
  body : ∀ q, kind = .quoted q → below = lineBreaks q.body

/-- A token of constant price that takes a character of a text. -/
theorem readFrom_of_shorter {cs after : List Char} {kind : TokenKind} (hsuffix : after <:+ cs)
    (hshorter : after.length < cs.length) (hends : EndsLine cs) (hlong : 2 ≤ cs.length)
    (hprice : kind.price = 8) (hkind : ∀ q, kind ≠ .quoted q) :
    ReadFrom cs kind 0 after where
  suffix := hsuffix
  price := by omega
  breaks := by
    rw [Nat.zero_add]
    exact lineBreaks_le_of_suffix hsuffix
  above := by
    rw [Nat.zero_add]
    exact hends.one_le_lineBreaks (List.ne_nil_of_length_pos (by omega))
  body q hq := absurd hq (hkind q)

theorem wordToken?_eq {word : List Char} {kind : TokenKind} (h : wordToken? word = some kind) :
    (∃ text, kind = .keyword text) ∨ ∃ text, kind = .name text := by
  unfold wordToken? at h
  dsimp only at h
  split at h
  · exact .inl ⟨_, (Option.some.inj h).symm⟩
  · split at h <;> cases h
    exact .inr ⟨_, rfl⟩

theorem readToken_readFrom {s : LexState} {kind : TokenKind} {below : Nat}
    {brackets after : List Char} (h : readToken s = some (kind, below, brackets, after))
    (hends : EndsLine s.rest) (hlong : 2 ≤ s.rest.length) :
    ReadFrom s.rest kind below after := by
  obtain ⟨cs, line, brackets', indents⟩ := s
  unfold readToken at h
  cases cs with
  | nil => cases h
  | cons c next =>
      dsimp only at h ⊢ hends hlong
      split at h
      · -- a text literal
        rename_i letters cs hprefix
        obtain ⟨⟨q, rest⟩, hq, heq⟩ := Option.bind_eq_some_iff.mp h
        cases heq
        dsimp only
        obtain ⟨opening, closing, hopening, hclosing, rfl⟩ := readQuoted_eq hq
        have hsuffix := literalPrefix?_suffix hprefix
        have hbody : closing ++ rest <:+ c :: next :=
          ((List.suffix_append q.body _).trans (List.suffix_append opening _)).trans hsuffix
        have hnewline : 1 ≤ lineBreaks (closing ++ rest) :=
          (hends.of_suffix hbody).one_le_lineBreaks
            (List.ne_nil_of_length_pos (by rw [List.length_append]; omega))
        have hlength := hsuffix.length_le
        have hbreaks := lineBreaks_le_of_suffix hsuffix
        simp only [List.length_append, lineBreaks_append] at hlength hbreaks hnewline
        refine ⟨(List.suffix_append closing rest).trans hbody, ?_, by omega, by omega, ?_⟩
        · simp only [TokenKind.price]
          omega
        · rintro _ ⟨⟩
          rfl
      · split at h
        · -- a name or a keyword
          rename_i hc
          obtain ⟨kind', hkind, heq⟩ := Option.bind_eq_some_iff.mp h
          cases heq
          have hname : Numeral.isNameChar c = true := by
            simp only [Numeral.isNameChar, Char.isAlphanum, Bool.or_eq_true] at hc ⊢
            tauto
          have hrest :
              (c :: next).dropWhile Numeral.isNameChar = next.dropWhile Numeral.isNameChar :=
                List.dropWhile_cons_of_pos hname
          have hshorter : (next.dropWhile Numeral.isNameChar).length < (c :: next).length :=
            Nat.lt_succ_of_le (List.dropWhile_suffix _).length_le
          rw [hrest]
          have hsuffix :=
            (List.dropWhile_suffix (l := next) Numeral.isNameChar).trans (List.suffix_cons c _)
          rcases wordToken?_eq hkind with ⟨text, rfl⟩ | ⟨text, rfl⟩
          · exact readFrom_of_shorter hsuffix hshorter hends hlong rfl (by simp)
          · exact readFrom_of_shorter hsuffix hshorter hends hlong rfl (by simp)
        · split at h
          · -- a number
            rename_i hc
            obtain ⟨⟨value, rest⟩, hvalue, heq⟩ := Option.bind_eq_some_iff.mp h
            cases heq
            have hstart : c.isDigit = true ∨ c = '.' := by
              simp only [Bool.or_eq_true, Bool.and_eq_true, beq_iff_eq] at hc
              tauto
            obtain ⟨hsuffix, hshorter⟩ := Numeral.read_suffix hvalue hstart
            exact readFrom_of_shorter hsuffix hshorter hends hlong rfl (by simp)
          · obtain ⟨⟨symbol, rest⟩, hsymbol, h⟩ := Option.bind_eq_some_iff.mp h
            obtain ⟨_, -, heq⟩ := Option.bind_eq_some_iff.mp h
            cases heq
            obtain ⟨hsuffix, hshorter⟩ := readOperator?_suffix hsymbol (by simp)
            exact readFrom_of_shorter hsuffix hshorter hends hlong rfl (by simp)

/-! ## Lines -/

theorem readMargin_suffix {m m' : Margin} {line line' : Nat} {cs rest : List Char}
    (h : readMargin m line cs = some (m', line', rest)) :
    rest <:+ cs ∧ line ≤ line' ∧ line' + lineBreaks rest ≤ line + lineBreaks cs := by
  fun_induction readMargin m line cs with
  | case1 m line cs ih =>
      obtain ⟨hsuffix, hlines⟩ := ih h
      exact ⟨hsuffix.trans (List.suffix_cons _ _), hlines⟩
  | case2 m line cs ih =>
      obtain ⟨hsuffix, hlines⟩ := ih h
      exact ⟨hsuffix.trans (List.suffix_cons _ _), hlines⟩
  | case3 m line cs ih =>
      obtain ⟨hsuffix, hlines⟩ := ih h
      exact ⟨hsuffix.trans (List.suffix_cons _ _), hlines⟩
  | case4 m line c cs continued ih =>
      obtain ⟨hsuffix, hdown, hbreaks⟩ := ih h
      refine ⟨hsuffix.trans ((List.suffix_cons _ _).trans (List.suffix_cons _ _)), by omega,
        hbreaks.trans (le_of_eq ?_)⟩
      -- a continued line counts as one more, as its break is in the text
      have hcount : lineBreaks ('\\' :: '\n' :: c :: cs) = lineBreaks (c :: cs) + 1 := by
        rw [← lineBreaks_newline]
        rfl
      omega
  | case5 => cases h
  | case6 m line cs =>
      cases h
      exact ⟨List.suffix_refl _, le_refl _, le_refl _⟩

/-- A token on the lines up to `bottom`. The marks at the end of a text stand on the line below. -/
structure Token.Within (bottom : Nat) (t : Token) : Prop where
  line : t.line ≤ bottom + 1
  ordered : t.line ≤ t.lastLine
  lastLine : Reader.isMark t.kind = false → t.lastLine ≤ bottom
  body : ∀ q, t.kind = .quoted q → t.line + lineBreaks q.body ≤ bottom

theorem Token.Within.mono {bottom bottom' : Nat} {t : Token} (h : t.Within bottom)
    (hle : bottom ≤ bottom') : t.Within bottom' where
  line := h.line.trans (Nat.succ_le_succ hle)
  ordered := h.ordered
  lastLine hmark := (h.lastLine hmark).trans hle
  body q hq := (h.body q hq).trans hle

theorem Token.within_of_isMark {bottom line : Nat} {kind : TokenKind}
    (hkind : Reader.isMark kind = true) (hline : line ≤ bottom + 1) :
    Token.Within bottom ⟨kind, line, line⟩ where
  line := hline
  ordered := le_refl _
  lastLine hmark := absurd hkind (by rw [hmark]; exact Bool.false_ne_true)
  body q hq := by
    dsimp only at hq
    rw [hq] at hkind
    cases hkind

/-- What all tokens of a list cost. -/
def prices (tokens : List Token) : Nat := (tokens.map (·.kind.price)).sum

@[simp]
theorem prices_nil : prices [] = 0 := rfl

@[simp]
theorem prices_cons (t : Token) (ts : List Token) :
    prices (t :: ts) = t.kind.price + prices ts := by simp [prices]

@[simp]
theorem prices_append (ts us : List Token) : prices (ts ++ us) = prices ts + prices us := by
  simp [prices]

theorem prices_marksAt {line : Nat} {kinds : List TokenKind}
    (h : ∀ kind ∈ kinds, Reader.isMark kind = true) : prices (marksAt line kinds) = 0 := by
  induction kinds with
  | nil => rfl
  | cons kind kinds ih =>
      obtain ⟨hkind, hkinds⟩ := List.forall_mem_cons.mp h
      rw [marksAt, List.map_cons, prices_cons, TokenKind.price_of_isMark hkind, Nat.zero_add]
      exact ih hkinds

/-- One token after the other: the second starts where the first ends or below. -/
def Token.Before (t u : Token) : Prop := t.lastLine ≤ u.line

/-- The tokens of a text lie on its lines, one after the other, and cost no more than it has
characters before its last newline. -/
structure LexedFrom (s : LexState) (tokens : List Token) : Prop where
  within : ∀ t ∈ tokens, t.Within (s.line + lineBreaks s.rest - 1)
  below : ∀ t ∈ tokens, s.line ≤ t.line
  inOrder : tokens.Pairwise Token.Before
  prices_le : prices tokens ≤ 8 * (s.rest.length - 1)

namespace LexedFrom

/-- The tokens of what is left of a text are tokens of the text. -/
theorem of_rest {s s' : LexState} {tokens : List Token} (h : LexedFrom s' tokens)
    (hsuffix : s'.rest <:+ s.rest) (hdown : s.line ≤ s'.line)
    (hline : s'.line + lineBreaks s'.rest ≤ s.line + lineBreaks s.rest) : LexedFrom s tokens where
  within t ht := (h.within t ht).mono (Nat.sub_le_sub_right hline 1)
  below t ht := hdown.trans (h.below t ht)
  inOrder := h.inOrder
  prices_le := by
    have hlength := hsuffix.length_le
    have hprices := h.prices_le
    omega

/-- Marks on a line above the tokens of a text. -/
theorem append_marks {s : LexState} {tokens : List Token} {line : Nat} {kinds : List TokenKind}
    (h : LexedFrom s tokens) (hkinds : ∀ kind ∈ kinds, Reader.isMark kind = true)
    (hdown : s.line ≤ line) (hline : line ≤ s.line + lineBreaks s.rest)
    (habove : ∀ t ∈ tokens, line ≤ t.line) : LexedFrom s (marksAt line kinds ++ tokens) where
  within t ht := by
    rcases List.mem_append.mp ht with hmark | ht
    · obtain ⟨kind, hkind, rfl⟩ := List.mem_map.mp hmark
      exact Token.within_of_isMark (hkinds kind hkind) (by omega)
    · exact h.within t ht
  below t ht := by
    rcases List.mem_append.mp ht with hmark | ht
    · obtain ⟨kind, -, rfl⟩ := List.mem_map.mp hmark
      exact hdown
    · exact h.below t ht
  inOrder := by
    refine List.pairwise_append.mpr ⟨?_, h.inOrder, fun t ht u hu => ?_⟩
    · exact List.pairwise_map.mpr (List.pairwise_of_forall fun _ _ => le_refl line)
    · obtain ⟨kind, -, rfl⟩ := List.mem_map.mp ht
      exact habove u hu
  prices_le := by
    rw [prices_append, prices_marksAt hkinds, Nat.zero_add]
    exact h.prices_le

end LexedFrom

theorem isMark_of_indentation {columns : Nat × Nat} {indents kept : List (Nat × Nat)}
    {marks : List TokenKind} (h : indentation columns indents = some (kept, marks)) :
    ∀ kind ∈ marks, Reader.isMark kind = true := by
  unfold indentation at h
  dsimp only at h
  repeat' split at h
  all_goals cases h
  · simp
  · simp [Reader.isMark]
  · intro kind hkind
    rw [List.eq_of_mem_replicate hkind]
    rfl

/-- A lexer whose tokens lie on the lines of the text and cost no more than it. -/
def Lexes (lex : LexState → Option (List Token)) : Prop :=
  ∀ s tokens, EndsLine s.rest → lex s = some tokens → LexedFrom s tokens

/-- The rest of a text after the newline that ends a line. -/
theorem suffix_of_dropWhile {cs rest : List Char} {c : Char}
    (h : cs.dropWhile (· != '\n') = c :: rest) :
    rest <:+ cs ∧ lineBreaks rest + 1 ≤ lineBreaks cs := by
  have hsuffix : c :: rest <:+ cs := h ▸ List.dropWhile_suffix _
  have hc : c = '\n' := by
    have hhead := List.head_dropWhile_not (l := cs) (fun x => x != '\n') (by rw [h]; simp)
    simpa [h] using hhead
  refine ⟨(List.suffix_cons c rest).trans hsuffix, ?_⟩
  rw [← lineBreaks_newline, ← hc]
  exact lineBreaks_le_of_suffix hsuffix

theorem lexes_lexLine_succ {fuel : Nat} (hlexLine : Lexes (lexLine fuel))
    (hlexRest : Lexes (lexRest fuel)) : Lexes (lexLine (fuel + 1)) := by
  intro s tokens hends h
  rw [lexLine] at h
  obtain ⟨⟨margin, line, rest⟩, hmargin, h⟩ := Option.bind_eq_some_iff.mp h
  obtain ⟨hsuffix, hdown, hline⟩ := readMargin_suffix hmargin
  have hrest := hends.of_suffix hsuffix
  dsimp only at h
  split at h
  · -- the end of the text
    split at h <;> cases h
    rw [← List.append_nil (marksAt _ _)]
    refine LexedFrom.append_marks ⟨by simp, by simp, List.Pairwise.nil, by simp⟩ ?_ hdown (by omega)
      (by simp)
    intro kind hkind
    rcases List.mem_append.mp hkind with hdedent | hdone
    · rw [List.eq_of_mem_replicate hdedent]
      rfl
    · rw [List.mem_singleton.mp hdone]
      rfl
  · split at h
    · -- a blank line or a comment
      split at h
      · rename_i after heq
        obtain ⟨hafter, hbreaks⟩ := suffix_of_dropWhile heq
        refine (hlexLine _ _ (hrest.of_suffix hafter) h).of_rest (hafter.trans hsuffix)
          (Nat.le_succ_of_le hdown) ?_
        dsimp only
        omega
      · refine (hlexLine _ _ (by simp [EndsLine]) h).of_rest List.nil_suffix hdown ?_
        exact (Nat.le_add_right _ _).trans hline
    · split at h
      · obtain ⟨⟨indents, marks⟩, hmarks, h⟩ := Option.bind_eq_some_iff.mp h
        obtain ⟨more, hmore, heq⟩ := Option.bind_eq_some_iff.mp h
        cases heq
        have hlexed := hlexRest _ _ hrest hmore
        exact (hlexed.of_rest hsuffix hdown hline).append_marks (isMark_of_indentation hmarks) hdown
          (by omega) hlexed.below
      · exact (hlexRest _ _ hrest h).of_rest hsuffix hdown hline

theorem lexes_lexRest_succ {fuel : Nat} (hlexLine : Lexes (lexLine fuel))
    (hlexRest : Lexes (lexRest fuel)) : Lexes (lexRest (fuel + 1)) := by
  intro s tokens hends h
  rw [lexRest] at h
  have hsuffix : s.rest.dropWhile isGap <:+ s.rest := List.dropWhile_suffix _
  have hrest := hends.of_suffix hsuffix
  have hline := lineBreaks_le_of_suffix hsuffix
  dsimp only at h
  split at h
  · -- the end of the text
    split at h
    · exact (hlexLine _ _ hrest h).of_rest hsuffix (le_refl _) (Nat.add_le_add_left hline _)
    · cases h
  · -- the end of a line
    rename_i rest heq
    rw [heq] at hsuffix hrest hline
    rw [lineBreaks_newline] at hline
    have hafter := List.suffix_cons '\n' rest
    have hbelow : ∀ tokens, lexLine fuel { s with rest, line := s.line + 1 } = some tokens →
      LexedFrom s tokens := fun tokens h =>
      (hlexLine _ _ (hrest.of_suffix hafter) h).of_rest (hafter.trans hsuffix) (Nat.le_succ _)
        (by dsimp only; omega)
    split at h
    · obtain ⟨more, hmore, heq⟩ := Option.bind_eq_some_iff.mp h
      cases heq
      have hmark : ∀ kind ∈ [TokenKind.newline], Reader.isMark kind = true := by
        simp [Reader.isMark]
      exact (hbelow more hmore).append_marks hmark (le_refl _) (Nat.le_add_right _ _)
        (hbelow more hmore).below
    · exact hbelow tokens h
  · -- a comment
    rename_i rest heq
    rw [heq] at hsuffix hrest hline
    have hafter := (List.dropWhile_suffix (l := rest) (· != '\n')).trans (List.suffix_cons '#' rest)
    refine (hlexRest _ _ (hrest.of_suffix hafter) h).of_rest (hafter.trans hsuffix) (le_refl _) ?_
    exact Nat.add_le_add_left ((lineBreaks_le_of_suffix hafter).trans hline) _
  · -- a continued line
    rename_i c rest heq
    rw [heq] at hsuffix hrest hline
    have hafter := (List.suffix_cons '\n' (c :: rest)).trans (List.suffix_cons '\\' _)
    refine (hlexRest _ _ (hrest.of_suffix hafter) h).of_rest (hafter.trans hsuffix)
      (Nat.le_succ _) ?_
    have hcount : lineBreaks ('\\' :: '\n' :: c :: rest) = lineBreaks (c :: rest) + 1 := by
      rw [← lineBreaks_newline]
      rfl
    dsimp only
    omega
  · cases h
  · -- a token
    rename_i hempty hnewline _ _ _
    obtain ⟨⟨kind, below, brackets, after⟩, hread, h⟩ := Option.bind_eq_some_iff.mp h
    obtain ⟨more, hmore, heq⟩ := Option.bind_eq_some_iff.mp h
    cases heq
    have hlong : 2 ≤ (s.rest.dropWhile isGap).length := by
      cases hcs : s.rest.dropWhile isGap with
      | nil => exact absurd hcs hempty
      | cons c cs =>
          rw [hcs] at hrest
          exact hrest.two_le_length fun hc => hnewline cs (by rw [hcs, hc])
    have hfrom := readToken_readFrom hread hrest hlong
    have hlexed := hlexRest _ _ (hrest.of_suffix hfrom.suffix) hmore
    have hbreaks := hfrom.breaks
    have hbelow := hfrom.above
    have hprice := hfrom.price
    have hlength := hsuffix.length_le
    have hprices := hlexed.prices_le
    dsimp only at hbreaks hbelow hprice hprices
    refine ⟨?_, ?_, List.pairwise_cons.mpr ⟨hlexed.below, hlexed.inOrder⟩, ?_⟩
    · rintro t (_ | ⟨_, ht⟩)
      · refine ⟨by dsimp only; omega, Nat.le_add_right _ _, fun _ => ?_, fun q hq => ?_⟩
        · dsimp only
          omega
        · have hbody := hfrom.body q hq
          dsimp only
          omega
      · exact (hlexed.within t ht).mono (by dsimp only; omega)
    · rintro t (_ | ⟨_, ht⟩)
      · exact le_refl _
      · exact (Nat.le_add_right _ _).trans (hlexed.below t ht)
    · rw [prices_cons]
      dsimp only
      omega

theorem lexes (fuel : Nat) : Lexes (lexLine fuel) ∧ Lexes (lexRest fuel) := by
  induction fuel with
  | zero =>
      refine ⟨fun s tokens _ h => ?_, fun s tokens _ h => ?_⟩
      · rw [lexLine] at h
        cases h
      · rw [lexRest] at h
        cases h
  -- the two readers call each other with less fuel, so that both are bounded in one induction
  | succ fuel ih => exact ⟨lexes_lexLine_succ ih.1 ih.2, lexes_lexRest_succ ih.1 ih.2⟩

theorem lineBreaks_closeLastLine (cs : List Char) :
    lineBreaks (closeLastLine cs) ≤ lineBreaks cs + 1 := by
  unfold closeLastLine
  split
  · exact Nat.le_succ _
  · rw [lineBreaks_append]
    exact le_refl _

theorem length_closeLastLine (cs : List Char) : (closeLastLine cs).length ≤ cs.length + 1 := by
  unfold closeLastLine
  split
  · exact Nat.le_succ _
  · rw [List.length_append]
    exact le_refl _

/-- **The tokens of a text** lie on its lines, one after the other, and cost no more than its
characters. -/
theorem tokens?_bounds {firstLine : Nat} {cs : List Char} {tokens : List Token}
    (h : tokens? firstLine cs = some tokens) :
    LexedFrom { rest := closeLastLine cs, line := firstLine, brackets := [], indents := [(0, 0)] }
      tokens ∧ prices tokens ≤ 8 * cs.length := by
  unfold tokens? at h
  split at h
  · cases h
  · have hlexed := (lexes _).1 _ _ (endsLine_closeLastLine cs) h
    have hprices := hlexed.prices_le
    have hlength := length_closeLastLine cs
    dsimp only at hprices
    exact ⟨hlexed, by omega⟩

end Scorecard.Source
