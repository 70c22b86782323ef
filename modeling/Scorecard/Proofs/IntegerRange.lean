import Scorecard.Proofs.Bounds

set_option autoImplicit false

/-! # Which integers are numbers

An integer is converted to the nearest number. From `2 ^ 1024 - 2 ^ 970` on, halfway between the
largest finite number and the next power of two, that is an infinity, so such an integer has no
number (`Number.ofInt?_eq_none_iff`).
-/

namespace Scorecard

/-- A quotient rounds up to an even integer from halfway on. -/
theorem le_roundQuotient_iff {n h k : ℕ} (hh : 0 < h) (hk : k % 2 = 1)
    (hlt : n < (k + 1) * (2 * h)) : k + 1 ≤ roundQuotient n (2 * h) ↔ k * (2 * h) + h ≤ n := by
  have hd : 0 < 2 * h := by omega
  have hdiv : 2 * h * (n / (2 * h)) + n % (2 * h) = n := Nat.div_add_mod n (2 * h)
  have hq : n / (2 * h) < k + 1 := (Nat.div_lt_iff_lt_mul hd).mpr hlt
  have hr : n % (2 * h) < 2 * h := Nat.mod_lt n hd
  rw [mul_comm] at hdiv
  unfold roundQuotient
  generalize n / (2 * h) = q at hdiv hq
  generalize n % (2 * h) = r at hdiv hr
  dsimp only
  rcases Nat.lt_succ_iff_lt_or_eq.mp hq with hlow | rfl
  · -- a smaller quotient is at most `k` after rounding
    have hmul : (q + 1) * (2 * h) ≤ k * (2 * h) := Nat.mul_le_mul_right _ hlow
    rw [Nat.add_mul, Nat.one_mul] at hmul
    constructor
    · intro hle
      exfalso
      split at hle
      · omega
      · split at hle <;> omega
    · intro hle
      omega
  · split
    · omega
    · split <;> omega

namespace Rounding

/-! The exponents below are large, so what is needed of powers of two is stated for all exponents:
an instance of such a lemma is not computed. -/

theorem two_pow_pos (e : ℕ) : 0 < 2 ^ e := Nat.two_pow_pos e

theorem two_pow_lt {a b : ℕ} (h : a < b) : 2 ^ a < 2 ^ b := Nat.pow_lt_pow_right (by decide) h

theorem shiftLeft_eq_mul (n e : ℕ) : n <<< e = n * 2 ^ e := Nat.shiftLeft_eq n e

theorem one_shiftLeft (e : ℕ) : 1 <<< e = 2 ^ e := (shiftLeft_eq_mul 1 e).trans (one_mul _)

theorem log2_eq_of_bounds {n e e' : ℕ} (hlow : 2 ^ e ≤ n) (hhigh : n < 2 ^ e') (he : e' = e + 1) :
    n.log2 = e :=
  (Nat.log2_eq_iff (lt_of_lt_of_le (two_pow_pos e) hlow).ne').mpr ⟨hlow, he ▸ hhigh⟩

theorem limit_eq : limit = 2 ^ 1024 := one_shiftLeft 1024

theorem onGrid_two_pow (e : ℕ) : OnGrid ((2 ^ e : ℕ) : ℚ) :=
  ⟨1, e, by norm_num, by omega,
    by rw [Nat.cast_one, one_mul, zpow_natCast, Nat.cast_pow, Nat.cast_ofNat]⟩

/-- The integers from here on are too large: halfway between the largest double and the next power
of two. -/
def tooLargeFrom : ℕ := 2 ^ 1024 - 2 ^ 970

/-- The last power of two below the limit is where rounding up leaves the range. -/
theorem nearest_natCast_between {n : ℕ} (hlow : 2 ^ 1023 ≤ n) (hhigh : n < 2 ^ 1024) :
    nearest n = .infinite false ↔ tooLargeFrom ≤ n := by
  have hn : n ≠ 0 := (lt_of_lt_of_le (two_pow_pos 1023) hlow).ne'
  have hlog : n.log2 = 1023 := log2_eq_of_bounds hlow hhigh rfl
  have hplace : lastPlace n 1 = 971 := by
    have hone : (1 : ℕ).log2 = 0 := by decide
    have hle : 1 <<< (1023 : Int).toNat ≤ n <<< (-(1023 : Int)).toNat := by
      rw [one_shiftLeft, show (1023 : Int).toNat = 1023 from rfl,
        show (-(1023 : Int)).toNat = 0 from rfl, Nat.shiftLeft_zero]
      exact hlow
    simp only [lastPlace, floorLog2, hlog, hone, Nat.cast_ofNat, Nat.cast_zero, sub_zero]
    rw [if_pos hle]
    rfl
  have hden : ((n : ℚ)).den = 1 := Rat.den_natCast n
  have hnum : ((n : ℚ)).num.natAbs = n := by rw [Rat.num_natCast, Int.natAbs_natCast]
  have hneg : ¬((n : ℚ) < 0) := not_lt.mpr (Nat.cast_nonneg n)
  -- in units of half a last place
  obtain ⟨h, hh⟩ : ∃ h : ℕ, h = 2 ^ 970 := ⟨_, rfl⟩
  have hhpos : 0 < h := hh ▸ two_pow_pos 970
  have h971 : (2 : ℕ) ^ 971 = 2 * h := by rw [hh, ← pow_succ']
  have h1024 : (2 : ℕ) ^ 1024 = 2 ^ 53 * (2 * h) := by
    rw [show 1024 = 53 + 971 from rfl, pow_add, h971]
  have hround : nearest n = if limit ≤ roundQuotient n (2 * h) * (2 * h) then .infinite false
      else .finite (mkRat ((roundQuotient n (2 * h) * (2 * h) : ℕ) : Int) 1) := by
    have hshift : n <<< (-(971 : Int)).toNat = n := Nat.shiftLeft_zero
    have hscale : ∀ m : ℕ, m <<< (971 : Int).toNat = m * (2 * h) := fun m => by
      rw [show (971 : Int).toNat = 971 from rfl, shiftLeft_eq_mul, h971]
    have hunit : 1 <<< (971 : Int).toNat = 2 * h := (hscale 1).trans (one_mul _)
    have hone : 1 <<< (-(971 : Int)).toNat = 1 := rfl
    simp only [nearest, hnum, hden, hplace, hn, if_false, decide_eq_false hneg, hshift, hunit,
      hscale, hone]
    split
    · rename_i hzero
      rw [hzero, Nat.zero_mul, if_neg (by rw [limit_eq, h1024]; omega)]
      rfl
    · rfl
  have hlimit : limit = 2 ^ 53 * (2 * h) := by rw [limit_eq, h1024]
  have hiff := le_roundQuotient_iff (n := n) (k := 2 ^ 53 - 1) hhpos (by norm_num) (by omega)
  rw [hround, tooLargeFrom, ← hh, h1024, hlimit]
  have hfits : 2 ^ 53 * (2 * h) ≤ roundQuotient n (2 * h) * (2 * h) ↔
      2 ^ 53 ≤ roundQuotient n (2 * h) :=
    ⟨fun hle => Nat.le_of_mul_le_mul_right hle (by omega), fun hle => Nat.mul_le_mul_right _ hle⟩
  split
  · rename_i hbig
    have := hiff.mp (by simpa using hfits.mp hbig)
    simp only [true_iff]
    omega
  · rename_i hsmall
    have hnot : ¬(2 ^ 53 - 1) * (2 * h) + h ≤ n :=
      fun hle => hsmall (hfits.mpr (by simpa using hiff.mpr hle))
    simp only [reduceCtorEq, false_iff]
    omega

theorem nearest_lt_limit {x y : ℚ} (hx : 0 < x) (h : nearest x = .finite y) : y < limit := by
  obtain ⟨m, -, -, hround⟩ := nearest_of_pos hx
  rw [hround] at h
  split at h
  · cases h
  · rename_i hfit
    cases h
    have hle : (2 : ℚ) ^ placeOf x ≤ 2 ^ (placeOf x).toNat := by
      rw [← zpow_natCast]
      exact zpow_le_zpow_right₀ (by norm_num) (Int.self_le_toNat _)
    calc (m : ℚ) * 2 ^ placeOf x ≤ m * 2 ^ (placeOf x).toNat :=
           mul_le_mul_of_nonneg_left hle (Nat.cast_nonneg m)
      _ < limit := by exact_mod_cast not_le.mp hfit

theorem nearest_isFinite_iff_ne {x : ℚ} (hx : 0 < x) :
    (nearest x).isFinite = true ↔ nearest x ≠ .infinite false := by
  obtain ⟨m, -, -, hround⟩ := nearest_of_pos hx
  rw [hround]
  split <;> simp [Number.isFinite]

/-- Below the last power of two every integer is in range, and from the limit on none is. -/
theorem nearest_natCast_isFinite_iff {n : ℕ} (hn : 0 < n) :
    (nearest n).isFinite = true ↔ n < tooLargeFrom := by
  have hpos : (0 : ℚ) < n := by exact_mod_cast hn
  have hle : tooLargeFrom ≤ 2 ^ 1024 := Nat.sub_le _ _
  have hge : 2 ^ 1023 ≤ tooLargeFrom := by
    have hmono : 2 ^ 970 < 2 ^ 1023 := two_pow_lt (by decide)
    rw [tooLargeFrom, show 1024 = 1023 + 1 from rfl, pow_succ]
    omega
  -- the powers of two below and above the limit are values of the grid; only between them rounding
  -- decides
  rw [nearest_isFinite_iff_ne hpos]
  rcases lt_or_ge n (2 ^ 1023) with hlow | hlow
  · have hlimit : 2 ^ 1023 < limit := by
      rw [limit_eq]
      exact two_pow_lt (by decide)
    obtain ⟨y, hy, -⟩ :=
      nearest_le_of_le_grid hpos (onGrid_two_pow 1023) (Nat.cast_lt.mpr hlimit)
      (Nat.cast_le.mpr hlow.le)
    simp only [hy, ne_eq, reduceCtorEq, not_false_eq_true, true_iff]
    exact lt_of_lt_of_le hlow hge
  rcases lt_or_ge n (2 ^ 1024) with hhigh | hhigh
  · rw [ne_eq, nearest_natCast_between hlow hhigh, not_le]
  · have hinf : nearest n = .infinite false := by
      rcases grid_le_nearest hpos (onGrid_two_pow 1024)
        (Nat.cast_le.mpr hhigh) with hinf | ⟨y, hy, hge⟩
      · exact hinf
      · have hlt := nearest_lt_limit hpos hy
        rw [limit_eq] at hlt
        exact absurd hge (not_le.mpr hlt)
    simp only [hinf, ne_eq, not_true_eq_false, false_iff, not_lt]
    exact hle.trans hhigh

end Rounding

namespace Number

theorem neg_isFinite (a : Number) : a.neg.isFinite = a.isFinite := by
  cases a with
  | finite x => by_cases hx : x = 0 <;> simp [neg, isFinite, hx]
  | _ => rfl

/-- **Which integers are beyond the range of numbers.** -/
theorem ofInt?_eq_none_iff (n : Int) :
    ofInt? .nearest n = none ↔ Rounding.tooLargeFrom ≤ n.natAbs := by
  have hiff : ofInt? .nearest n = none ↔ (ratio .nearest n 1).isFinite = false := by
    unfold ofInt?
    dsimp only
    split <;> simp_all
  have hpos : 0 < Rounding.tooLargeFrom := Nat.sub_pos_of_lt (Rounding.two_pow_lt (by decide))
  rw [hiff, ← not_lt, ← Bool.not_eq_true, not_iff_not]
  rcases Nat.eq_zero_or_pos n.natAbs with hzero | habs
  · rw [Int.natAbs_eq_zero.mp hzero]
    simpa [ratio, isFinite] using hpos
  have hne : n ≠ 0 := Int.natAbs_ne_zero.mp habs.ne'
  rw [← Rounding.nearest_natCast_isFinite_iff habs, ratio, if_neg hne, Rat.mkRat_eq_div,
    Nat.cast_one, div_one]
  rcases n.natAbs_eq with hn | hn
  · rw [← Int.cast_natCast n.natAbs, ← hn]
  · rw [hn, Int.cast_neg, Int.natAbs_neg, Int.natAbs_natCast, Int.cast_natCast,
      nearest_neg (Nat.cast_pos.mpr habs), neg_isFinite]

end Number

end Scorecard
