import Mathlib.Tactic.LinearCombination
import Scorecard.Proofs.ReportedMean
import Scorecard.Report.Render

set_option autoImplicit false

/-! # Reported scores are tenths

A raw score is reported as the nearest number of tenths, decided on its exact value, with ties to
the even number (`isNearestTenth_tenths`). The double that stands for a number of tenths is so close
to it that rounding it once more finds the same number (`exists_ratio_tenths`). The text, which
rounds again, and the document, which writes the fewest digits that read back, therefore show the
same decimal.
-/

namespace Scorecard

/-! ## The nearest number of tenths -/

/-- `k` is the whole number nearest to ten times `x`. If another one is as near, `k` is even. -/
structure IsNearestTenth (x : ℚ) (k : ℕ) : Prop where
  nearest : ∀ j : ℤ, |10 * x - k| ≤ |10 * x - j|
  even : ∀ j : ℤ, j ≠ k → |10 * x - j| = |10 * x - k| → Even k

theorem IsNearestTenth.unique {x : ℚ} {j k : ℕ} (hj : IsNearestTenth x j)
    (hk : IsNearestTenth x k) : j = k := by
  by_contra hne
  have hsame : |10 * x - (j : ℤ)| = |10 * x - (k : ℤ)| := le_antisymm (hj.nearest k) (hk.nearest j)
  obtain ⟨a, ha⟩ : Even j := hj.even k (by exact_mod_cast Ne.symm hne) hsame.symm
  obtain ⟨b, hb⟩ : Even k := hk.even j (by exact_mod_cast hne) hsame
  rcases abs_eq_abs.mp hsame with heq | hopp
  · have hcast : (j : ℚ) = k := by exact_mod_cast sub_right_injective heq
    exact hne (by exact_mod_cast hcast)
  · -- the value is halfway between two even numbers, which is a whole number itself
    have hmid : 10 * x = ((a + b : ℤ) : ℚ) := by
      push_cast [ha, hb] at hopp ⊢
      linarith
    have hzero : |10 * x - j| ≤ 0 := by
      have h := hj.nearest (a + b)
      rwa [← hmid, sub_self, abs_zero] at h
    have hj' : 10 * x = j := sub_eq_zero.mp (abs_nonpos_iff.mp hzero)
    have hcast : (j : ℚ) = k := by
      push_cast at hopp
      linarith
    exact hne (by exact_mod_cast hcast)

/-- Exactly halfway between two integers, a quotient is rounded to the even one. -/
theorem even_roundQuotient {n d : ℕ} (hd : 0 < d)
    (h : 2 * n + d = 2 * (roundQuotient n d * d) ∨ 2 * n = 2 * (roundQuotient n d * d) + d) :
    Even (roundQuotient n d) := by
  have hsplit : d * (n / d) + n % d = n := Nat.div_add_mod n d
  have hr : n % d < d := Nat.mod_lt n hd
  rw [Nat.mul_comm] at hsplit
  unfold roundQuotient at h ⊢
  generalize n / d = q at hsplit h ⊢
  generalize n % d = r at hsplit hr h ⊢
  dsimp only at h ⊢
  -- only in the last branch of the rounding is the remainder one half
  by_cases hlow : 2 * r < d
  · rw [if_pos hlow] at h
    omega
  · rw [if_neg hlow] at h ⊢
    by_cases hhigh : d < 2 * r
    · rw [if_pos hhigh, Nat.add_mul, Nat.one_mul] at h
      omega
    · rw [if_neg hhigh, Nat.even_iff]
      omega

theorem abs_ten_mul_sub_tenths {x : ℚ} (hx : 0 ≤ x) : |10 * x - Number.tenths x| ≤ 1 / 2 := by
  obtain ⟨hlow, hhigh⟩ := abs_le.mp (abs_tenths_sub_le hx)
  rw [abs_le]
  constructor
  · linarith
  · linarith

/-- If one whole number is at most one half away from a value, any other is at least one half
away. -/
theorem half_le_abs_sub {y : ℚ} {j k : ℤ} (hne : j ≠ k) (hk : |y - k| ≤ 1 / 2) :
    1 / 2 ≤ |y - j| := by
  have hone : (1 : ℚ) ≤ |(j : ℚ) - k| := by
    have hint : 1 ≤ |j - k| := Int.one_le_abs (sub_ne_zero.mpr hne)
    exact_mod_cast hint
  have hsum : (1 : ℚ) ≤ |y - k| + |y - j| :=
    calc (1 : ℚ) ≤ |(j : ℚ) - k| := hone
      _ = |y - k - (y - j)| := by rw [sub_sub_sub_cancel_left]
      _ ≤ |y - k| + |y - j| := abs_sub _ _
  linarith

theorem even_tenths {x : ℚ} (hx : 0 ≤ x) (h : |10 * x - Number.tenths x| = 1 / 2) :
    Even (Number.tenths x) := by
  have hnum := mul_den_eq_natAbs hx
  -- in units of half the denominator, the tie is one of integers
  refine even_roundQuotient x.den_pos ?_
  rcases (abs_eq (by norm_num)).mp h with habove | hbelow
  · right
    have hcast : 2 * (10 * (x.num.natAbs : ℚ)) = 2 * ((Number.tenths x : ℚ) * x.den) + x.den := by
      rw [← hnum]
      linear_combination 2 * x.den * habove
    exact_mod_cast hcast
  · left
    have hcast : 2 * (10 * (x.num.natAbs : ℚ)) + x.den = 2 * ((Number.tenths x : ℚ) * x.den) := by
      rw [← hnum]
      linear_combination 2 * x.den * hbelow
    exact_mod_cast hcast

theorem isNearestTenth_tenths {x : ℚ} (hx : 0 ≤ x) : IsNearestTenth x (Number.tenths x) := by
  have hhalf := abs_ten_mul_sub_tenths hx
  constructor
  · intro j
    by_cases hj : j = Number.tenths x
    · rw [hj, Int.cast_natCast]
    · exact hhalf.trans (half_le_abs_sub hj (by exact_mod_cast hhalf))
  · intro j hj hsame
    have hfar : 1 / 2 ≤ |10 * x - j| := half_le_abs_sub hj (by exact_mod_cast hhalf)
    exact even_tenths hx (le_antisymm hhalf (hsame ▸ hfar))

/-- A value less than half a tenth from a number of tenths has that number. -/
theorem tenths_eq_of_near {y : ℚ} (hy : 0 ≤ y) {k : ℕ} (h : |y - k / 10| < 1 / 20) :
    Number.tenths y = k := by
  by_contra hne
  have hfar : 1 / 2 ≤ |10 * y - (k : ℤ)| :=
    half_le_abs_sub (k := Number.tenths y) (by exact_mod_cast Ne.symm hne)
      (by exact_mod_cast abs_ten_mul_sub_tenths hy)
  have hnear : |10 * y - (k : ℤ)| < 1 / 2 := by
    obtain ⟨hlow, hhigh⟩ := abs_lt.mp h
    rw [abs_lt, Int.cast_natCast]
    constructor
    · linarith
    · linarith
  exact absurd hfar (not_le.mpr hnear)

theorem tenths_le_hundred {x : ℚ} (hx : 0 ≤ x) (h : x ≤ 10) : Number.tenths x ≤ 100 := by
  have hten : Number.tenths 10 = 100 := by decide
  exact hten ▸ Number.tenths_mono hx h

/-! ## The double that stands for a number of tenths -/

/-- Rounding moves a value by at most one unit of its last place. -/
theorem Rounding.abs_nearest_sub_le {x y : ℚ} (hx : 0 < x) (h : nearest x = .finite y) :
    |y - x| ≤ 2 ^ placeOf x := by
  obtain ⟨m, hlow, hhigh, hround⟩ := nearest_of_pos hx
  have hunit := two_zpow_pos (placeOf x)
  have hy : y = m * 2 ^ placeOf x := by
    rw [hround] at h
    split at h
    · cases h
    · cases h
      rfl
  -- the value lies between two neighbouring numbers of units, and so does what it is rounded to
  set q := ⌊x / 2 ^ placeOf x⌋₊
  have hfloor : (q : ℚ) * 2 ^ placeOf x ≤ x := (le_div_iff₀ hunit).mp (Nat.floor_le (by positivity))
  have hceil : x ≤ ((q + 1 : ℕ) : ℚ) * 2 ^ placeOf x := by
    push_cast
    exact ((div_lt_iff₀ hunit).mp (Nat.lt_floor_add_one _)).le
  have hqm : (q : ℚ) * 2 ^ placeOf x ≤ m * 2 ^ placeOf x :=
    mul_le_mul_of_nonneg_right (by exact_mod_cast hlow q hfloor) hunit.le
  have hmq : (m : ℚ) * 2 ^ placeOf x ≤ ((q + 1 : ℕ) : ℚ) * 2 ^ placeOf x :=
    mul_le_mul_of_nonneg_right (by exact_mod_cast hhigh (q + 1) hceil) hunit.le
  push_cast at hmq hceil
  rw [hy, abs_le]
  constructor
  · linarith
  · linarith

theorem Rounding.exists_nearest_le_ten {x : ℚ} (hx : 0 < x) (h : x ≤ 10) :
    ∃ y : ℚ, nearest x = .finite y ∧ 0 ≤ y ∧ y ≤ 10 := by
  have hlimit : (10 : ℚ) < limit := by
    have hnat : 10 < limit := lt_trans (by norm_num) two_pow_53_lt_limit
    exact_mod_cast hnat
  have hgrid : OnGrid 10 := by exact_mod_cast onGrid_natCast (k := 10) (by norm_num)
  exact nearest_le_of_le_grid hx hgrid hlimit h

namespace Number

/-- The double for a number of tenths is next to it, and has this number of tenths. -/
theorem exists_ratio_tenths {k : ℕ} (hk : k ≤ 100) :
    ∃ y : ℚ, ratio .nearest k 10 = .finite y ∧ 0 ≤ y ∧ |y - k / 10| ≤ 2 ^ (-49 : ℤ) ∧
      tenths y = k := by
  rcases Nat.eq_zero_or_pos k with rfl | hpos
  · exact ⟨0, rfl, le_rfl, by norm_num, by decide⟩
  · have hratio : ratio .nearest k 10 = Rounding.nearest (k / 10) :=
      ratio_eq Rounding.isMonotone_nearest k 10
    have hx : (0 : ℚ) < k / 10 := by positivity
    have hten : (k : ℚ) / 10 ≤ 10 := by
      have hcast : (k : ℚ) ≤ 100 := by exact_mod_cast hk
      linarith
    obtain ⟨y, hy, hnonneg, -⟩ := Rounding.exists_nearest_le_ten hx hten
    -- ten is below `2 ^ 4`, so the last of the 53 places of a double up to ten is that of
    -- `2 ^ (-49)` or a smaller one
    have hplace : Rounding.placeOf (k / 10) ≤ -49 := Rounding.placeOf_mono hx hten
    have hnear : |y - k / 10| ≤ 2 ^ (-49 : ℤ) :=
      calc |y - k / 10| ≤ 2 ^ Rounding.placeOf (k / 10) := Rounding.abs_nearest_sub_le hx hy
        _ ≤ 2 ^ (-49 : ℤ) := zpow_le_zpow_right₀ (by norm_num) hplace
    exact ⟨y, hratio.trans hy, hnonneg, hnear, tenths_eq_of_near hnonneg
      (hnear.trans_lt (by norm_num))⟩

/-- Rounding to tenths changes nothing the second time. -/
theorem roundTenth_roundTenth {a : Number} (h : a.Within 0 10) :
    (a.roundTenth .nearest).roundTenth .nearest = a.roundTenth .nearest := by
  rcases finite_or_negZero h.1 with ⟨x, rfl⟩ | rfl
  · have hx : 0 ≤ x := h.2.1
    obtain ⟨y, hy, hnonneg, -, htenths⟩ := exists_ratio_tenths (tenths_le_hundred hx h.2.2)
    rw [roundTenth_eq_ratio _ hx]
    nth_rewrite 1 [hy]
    rw [roundTenth_eq_ratio _ hnonneg, htenths]
  · rfl

end Number

/-! ## The decimal -/

/-- A number of tenths as a decimal with one place. -/
def tenthsText (k : ℕ) : String := Nat.repr (k / 10) ++ "." ++ Nat.repr (k % 10)

/-- Two digits or more end in the last digit, and the others are the whole tens. -/
theorem Decimal.exists_padded_two (k : ℕ) :
    ∃ front : List Char, (padded 2 k).toList = front ++ Nat.toDigits 10 (k % 10) ∧
      String.ofList front = Nat.repr (k / 10) := by
  have hpadded :
      (padded 2 k).toList = List.replicate (2 - (Nat.toDigits 10 k).length) '0' ++
        Nat.toDigits 10 k := by
    simp only [padded, zeros, String.toList_append, String.toList_ofList, Nat.toList_repr,
      String.length]
  rcases Nat.lt_or_ge k 10 with hsmall | hlarge
  · -- one digit is padded with a zero, which is what its whole tens are written as
    refine ⟨['0'], ?_, ?_⟩
    · have hone : (Nat.toDigits 10 k).length = 1 := by
        rw [Nat.toDigits_of_lt_base hsmall]
        rfl
      rw [hpadded, hone, Nat.mod_eq_of_lt hsmall]
      rfl
    · rw [Nat.div_eq_of_lt hsmall]
      decide
  · have hdigits : Nat.toDigits 10 k = Nat.toDigits 10 (k / 10) ++ Nat.toDigits 10 (k % 10) := by
      rw [Nat.toDigits_of_base_le (by norm_num) hlarge,
        Nat.toDigits_of_lt_base (Nat.mod_lt k (by norm_num))]
    refine ⟨Nat.toDigits 10 (k / 10), ?_, Nat.repr_eq_ofList_toDigits.symm⟩
    have htwo : 2 ≤ (Nat.toDigits 10 k).length := by
      have hwhole : 0 < (Nat.toDigits 10 (k / 10)).length := Nat.length_toDigits_pos
      have hlast : 0 < (Nat.toDigits 10 (k % 10)).length := Nat.length_toDigits_pos
      rw [hdigits, List.length_append]
      omega
    rw [hpadded, Nat.sub_eq_zero_of_le htwo, hdigits]
    rfl

namespace Number

theorem signText_eq_empty {a : Number} (h : a.isNegative = false) : a.signText = "" := by
  rw [signText, h]
  rfl

theorem isNegative_finite {x : ℚ} (hx : 0 ≤ x) : (finite x).isNegative = false :=
  decide_eq_false (not_lt.mpr hx)

theorem fixed_one {x : ℚ} (hx : 0 ≤ x) : (finite x).fixed 1 = tenthsText (tenths x) := by
  have hneg : ¬x < 0 := not_lt.mpr hx
  have hsign : (finite x).signText = "" := signText_eq_empty (isNegative_finite hx)
  obtain ⟨front, hdigits, hfront⟩ := Decimal.exists_padded_two (tenths x)
  have hone : (Nat.toDigits 10 (tenths x % 10)).length = 1 := by
    rw [Nat.toDigits_of_lt_base (Nat.mod_lt _ (by norm_num))]
    rfl
  change (finite x).signText ++ (fun y : ℚ =>
    let digits := (Decimal.padded 2 (tenths y)).toList
    String.ofList (digits.take (digits.length - 1)) ++ "." ++
      String.ofList (digits.drop (digits.length - 1)))
      (if x < 0 then -x else x) = tenthsText (tenths x)
  dsimp only
  rw [hsign, if_neg hneg, hdigits, List.length_append, hone, Nat.add_sub_cancel, List.take_left,
    List.drop_left, hfront, ← Nat.repr_eq_ofList_toDigits, String.empty_append]
  rfl

set_option maxRecDepth 10000 in
/-- The fewest digits that read back as the double for a number of tenths are those of the decimal:
a score is one of a hundred and one doubles, and all of them are looked at. -/
theorem text_ratio : ∀ k : ℕ, k < 101 → (ratio .nearest k 10).text = tenthsText k := by
  decide +kernel

end Number

/-! ## What is reported -/

/-- How a raw score is reported as `k` tenths: rounded, printed and written. Only the negative zero
has a sign. -/
structure ReportedAsTenths (raw reported : Number) (k : ℕ) : Prop where
  le_hundred : k ≤ 100
  isNearest : IsNearestTenth raw.value k
  near : |(k : ℚ) / 10 - raw.value| ≤ 1 / 20
  double : raw ≠ .negZero → reported = .ratio .nearest k 10
  negZero : raw = .negZero → reported = .negZero
  close : |reported.value - k / 10| ≤ 2 ^ (-49 : ℤ)
  inRange : Number.le (.finite 0) reported = true ∧ reported.le (.finite 10) = true
  again : reported.roundTenth .nearest = reported
  printed : reported.fixed 1 = raw.signText ++ tenthsText k
  written : Json.render (.number reported) = raw.signText ++ tenthsText k

theorem reportedAsTenths {raw : Number} (h : raw.Within 0 10) :
    ReportedAsTenths raw (raw.roundTenth .nearest) (Number.tenths raw.value) := by
  have hrange : (raw.roundTenth .nearest).Within 0 10 := by
    exact_mod_cast Number.roundTenth_within Rounding.isMonotone_nearest (k := 10) (by norm_num)
      (by exact_mod_cast h)
  have hle := tenths_le_hundred h.2.1 h.2.2
  have hnearest := isNearestTenth_tenths h.2.1
  have hnear := abs_tenths_sub_le h.2.1
  have hagain := Number.roundTenth_roundTenth h
  -- the negative zero is a case of its own, because it is not rounded and keeps its sign
  rcases Number.finite_or_negZero h.1 with ⟨x, rfl⟩ | rfl
  · have hx : 0 ≤ x := h.2.1
    have hround : (Number.finite x).roundTenth .nearest = .ratio .nearest (Number.tenths x) 10 :=
      Number.roundTenth_eq_ratio _ hx
    have hsign : (Number.finite x).signText = "" :=
      Number.signText_eq_empty (Number.isNegative_finite hx)
    obtain ⟨y, hy, hnonneg, hclose, htenths⟩ := Number.exists_ratio_tenths hle
    have hy' : (Number.finite x).roundTenth .nearest = .finite y := hround.trans hy
    refine ⟨hle, hnearest, hnear, fun _ => hround, fun hzero => ?_, ?_, hrange.le_and_le, hagain,
      ?_, ?_⟩
    · cases hzero
    · rw [hy']
      exact hclose
    · -- the text rounds the double once more
      rw [hy', Number.fixed_one hnonneg, htenths, hsign, String.empty_append]
    · have htext := Number.text_ratio _ (Nat.lt_succ_of_le hle)
      rw [hy] at htext
      rw [hy', hsign, String.empty_append, ← htext]
      rfl
  · exact ⟨hle, hnearest, hnear, fun hne => absurd rfl hne, fun _ => rfl, by decide +kernel,
      hrange.le_and_le, hagain, by decide +kernel, by decide +kernel⟩

/-! ## Signs

A raw score that is computed is clamped, so it is not the negative zero. -/

namespace Number

theorem isNegative_eq_false_of_lt {a : Number} (h : Number.lt (.finite 0) a = true) :
    a.isNegative = false := by
  rcases a with x | _ | (_ | _) | _
  · exact decide_eq_false (not_lt.mpr ((lt_iff_value_lt rfl rfl).mp h).le)
  · simp [lt, place] at h
  · rfl
  · simp [lt, place] at h
  · rfl

theorem isNegative_clamp (a upper : Number) : (a.clamp (.finite 0) upper).isNegative = false := by
  unfold clamp
  dsimp only
  generalize (if a.lt upper = true then a else upper) = b
  by_cases hlt : Number.lt (.finite 0) b = true
  · rw [if_pos hlt]
    exact isNegative_eq_false_of_lt hlt
  · rw [if_neg hlt]
    rfl

end Number

theorem isNegative_of_evaluate {m : FactModel} {r : Registry} {active : Option (List String)}
    {c : Category} {s : CategoryScore} (h : evaluate .nearest m r active c = .ok s) :
    s.rawScore.isNegative = false := by
  rcases rawScore_of_scoreOfRuns (Registry.scoreOfRuns_of_evaluate h) with ⟨-, hraw⟩ | ⟨-, mean,
    -, hraw⟩
  · rw [hraw]
    rfl
  · obtain ⟨hfinite, hlow, hhigh⟩ := Number.clamp_within zero_le_one mean
    -- the product is zero without a sign, or a positive number that is rounded
    rw [hraw, Number.mul_of_isFinite _ rfl hfinite, Number.isNegative_clamp]
    generalize (mean.clamp (.finite 0) (.finite 1)).value = v at hlow hhigh
    by_cases hzero : (Number.finite 10).value * v = 0
    · rw [if_pos hzero]
      rfl
    · have hten : (Number.finite 10).value = 10 := rfl
      rw [if_neg hzero]
      rw [hten] at hzero ⊢
      have hpos : 0 < 10 * v := lt_of_le_of_ne (by positivity) (Ne.symm hzero)
      obtain ⟨y, hy, hnonneg, -⟩ := Rounding.exists_nearest_le_ten hpos (by linarith)
      rw [hy]
      exact Number.isNegative_finite hnonneg

/-! ## Scores and reports -/

/-- **Reported scores are correctly rounded tenths.** The score of a category and the overall score
are reported as the nearest number of tenths of their raw values, the decimal of which is both
printed and written. The scores are in the order of the raw scores. A sign is only there for a raw
score of negative zero, which is accepted but never computed. -/
theorem reported_scores_are_tenths :
    (∀ s : CategoryScore, s.InRange → ∃! k : ℕ, ReportedAsTenths s.rawScore (s.score .nearest) k ∧
      scoreLine .nearest s = "- " ++ s.category.label ++ ": " ++
        (s.rawScore.signText ++ tenthsText k) ++ "/10" ∧
      ("score", s.rawScore.signText ++ tenthsText k) ∈ Json.renderFields (s.toFields .nearest)) ∧
    (∀ s s' : CategoryScore, s.InRange → s'.InRange → s.rawScore.le s'.rawScore = true →
      (s.score .nearest).le (s'.score .nearest) = true) ∧
    (∀ (m : FactModel) (r : Registry) (active : Option (List String)) (c : Category)
      (s : CategoryScore), evaluate .nearest m r active c = .ok s → s.rawScore.signText = "") ∧
    ∀ (scores : List CategoryScore) (overrides : Weights) (bounds : ReportBounds) (r : Report),
      aggregate .nearest scores overrides bounds = .ok r →
        ∃ weights, Weights.resolve .nearest overrides = .ok weights ∧ ∃! k : ℕ,
          ReportedAsTenths ((reportedMean .nearest weights r.scores).clamp (.finite 0) (.finite 10))
            r.overall k ∧
            (r.lines .nearest false).head? = some ("Overall Score: " ++ tenthsText k ++ "/10") ∧
            ∀ source time, ∃ fields, r.toValue .nearest source time = .table fields ∧
              ("overall_score", tenthsText k) ∈ Json.renderFields fields := by
  refine ⟨?_, ?_, ?_, ?_⟩
  · intro s hrange
    have htenths : ReportedAsTenths s.rawScore (s.score .nearest) _ :=
      reportedAsTenths hrange.within
    refine ⟨_, ⟨htenths, ?_, ?_⟩, fun j hj => hj.1.isNearest.unique htenths.isNearest⟩
    · rw [scoreLine, htenths.printed]
    · rw [← htenths.written]
      simp [CategoryScore.toFields, Json.renderFields]
  · intro s s' hrange hrange' hle
    exact score_mono Rounding.isMonotone_nearest hrange.within hrange'.within hle
  · intro m r active c s h
    exact Number.signText_eq_empty (isNegative_of_evaluate h)
  · intro scores overrides bounds r h
    obtain ⟨weights, hweights, hreport⟩ := aggregate_reportOf h
    set raw := (reportedMean .nearest weights r.scores).clamp (.finite 0) (.finite 10)
    -- the overall score was clamped, which gives no negative zero
    have hsign : raw.signText = "" := Number.signText_eq_empty (Number.isNegative_clamp _ _)
    have htenths : ReportedAsTenths raw r.overall (Number.tenths raw.value) := by
      have hoverall : r.overall = raw.roundTenth .nearest := by
        obtain ⟨rs, -, hr⟩ := eq_of_reportOf hreport
        exact congrArg Report.overall hr
      rw [hoverall]
      exact reportedAsTenths (Number.clamp_within (by norm_num) _)
    have hprinted := htenths.printed
    have hwritten := htenths.written
    rw [hsign, String.empty_append] at hprinted hwritten
    refine ⟨weights, hweights, _, ⟨htenths, ?_, ?_⟩, fun j hj =>
      hj.1.isNearest.unique htenths.isNearest⟩
    · rw [← hprinted]
      rfl
    · intro source time
      rw [← hwritten]
      exact ⟨_, rfl, List.mem_cons_self⟩

/-- A score halfway between two tenths gives the even one; the double for 0.35 is less than halfway
and is rounded down. -/
theorem reported_scores_are_tenths_ties :
    let halfway : CategoryScore := { category := .layout, rawScore := .finite (33 / 4) }
    let below : CategoryScore := { category := .naming, rawScore := .ratio .nearest 35 100 }
    let scores :=
      Category.all.map fun c => { category := c, rawScore := .finite (33 / 4) : CategoryScore }
    scoreLine .nearest halfway = "- Layout & Formatting: 8.2/10" ∧
      scoreLine .nearest below = "- Naming: 0.3/10" ∧
      (below.score .nearest).le (halfway.score .nearest) = true ∧
      (∃ s, evaluate .nearest (FactModel.build [] [] ".") .empty none .naming = .ok s ∧
        s.rawScore.signText = "") ∧
      ∃ report k, aggregate .nearest scores [] {} = .ok report ∧
        (report.lines .nearest false).head? =
          some ("Overall Score: " ++ tenthsText k ++ "/10") := by
  intro halfway below scores
  obtain ⟨hscore, hmono, hsign, hoverall⟩ := reported_scores_are_tenths
  have hhalfway : halfway.InRange := by decide +kernel
  have hbelow : below.InRange := by decide +kernel
  refine ⟨?_, ?_, hmono below halfway hbelow hhalfway (by decide +kernel), ?_, ?_⟩
  · obtain ⟨k, ⟨htenths, hline, -⟩, -⟩ := hscore halfway hhalfway
    have heven : Number.tenths halfway.rawScore.value = 82 := by decide +kernel
    obtain rfl : k = 82 :=
      heven ▸ htenths.isNearest.unique (isNearestTenth_tenths hhalfway.within.2.1)
    exact hline.trans (by decide +kernel)
  · obtain ⟨k, ⟨htenths, hline, -⟩, -⟩ := hscore below hbelow
    have hdown : Number.tenths below.rawScore.value = 3 := by decide +kernel
    obtain rfl : k = 3 := hdown ▸ htenths.isNearest.unique (isNearestTenth_tenths hbelow.within.2.1)
    exact hline.trans (by decide +kernel)
  · let vacuous : CategoryScore :=
      { category := .naming, rawScore := .finite 10, findings := [vacuousFinding .naming]
        vacuous := true }
    have hrange : vacuous.InRange := by decide +kernel
    have hvacuous :
        evaluate .nearest (FactModel.build [] [] ".") .empty none .naming = .ok vacuous :=
      check_eq_ok_iff.mpr ⟨hrange, rfl⟩
    exact ⟨_, hvacuous, hsign _ _ _ _ _ hvacuous⟩
  · have hcomplete : CompleteScores scores := List.Perm.of_eq (by decide)
    have hrange : ∀ s ∈ scores, s.InRange := by decide +kernel
    have hwritable : AreWritable ({} : ReportBounds).most scores := by
      refine areWritable_of_findings (fun s hs f hf => ?_) _
      obtain ⟨c, -, rfl⟩ := List.mem_map.mp hs
      cases hf
    obtain ⟨-, report, -, -, -, hreport, -⟩ :=
      hcomplete.exists_report Rounding.isMonotone_nearest hrange Weights.resolve_nil
      (Weights.resolve_eq_ok Weights.resolve_nil).1 hwritable
    obtain ⟨-, -, k, ⟨-, hline, -⟩, -⟩ := hoverall scores [] {} report hreport
    exact ⟨report, k, hreport, hline⟩

end Scorecard
