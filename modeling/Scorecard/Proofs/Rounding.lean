import Mathlib.Algebra.Order.Field.Basic
import Mathlib.Algebra.Order.Field.Power
import Mathlib.Data.Rat.Defs
import Mathlib.Data.Rat.Floor
import Mathlib.Tactic.FieldSimp
import Mathlib.Tactic.Linarith
import Mathlib.Tactic.NormNum
import Mathlib.Tactic.Positivity
import Mathlib.Tactic.Ring
import Scorecard.Number.Decimal

set_option autoImplicit false

/-! # Rounding keeps bounds

A double is an integer of at most 53 binary places times a power of two that is not below
`2 ^ (-1074)`. Rounding to nearest does not cross such a number: a value at or below it stays at or
below it (`nearest_le_of_le_grid`), a value at or above it stays at or above it (`grid_le_nearest`).
Every bound on scores and sums of weights comes from this, because the bounds are small integers and
halves.
-/

namespace Scorecard

/-! ## Quotients of naturals -/

theorem le_roundQuotient {n d k : Nat} (hd : 0 < d) (h : k * d ≤ n) : k ≤ roundQuotient n d := by
  have hq : k ≤ n / d := (Nat.le_div_iff_mul_le hd).mpr h
  unfold roundQuotient
  dsimp only
  split
  · exact hq
  · split <;> omega

theorem roundQuotient_le {n d k : Nat} (hd : 0 < d) (h : n ≤ k * d) : roundQuotient n d ≤ k := by
  have hsplit : d * (n / d) + n % d = n := Nat.div_add_mod n d
  have hq : n / d ≤ k := Nat.div_le_of_le_mul (by rw [Nat.mul_comm]; exact h)
  rcases Nat.lt_or_eq_of_le hq with hlt | heq
  · unfold roundQuotient
    dsimp only
    split
    · omega
    · split <;> omega
  · -- the quotient is `k` already, so nothing remains and nothing is rounded up
    have hr : n % d = 0 := by
      have hk : d * (n / d) = k * d := by rw [heq, Nat.mul_comm]
      omega
    have : 2 * (n % d) < d := by omega
    simp [roundQuotient, this, heq]

/-- A larger quotient is not rounded to a smaller integer. -/
theorem roundQuotient_mono {n d n' d' : ℕ} (hd : 0 < d) (hd' : 0 < d') (h : n * d' ≤ n' * d) :
    roundQuotient n d ≤ roundQuotient n' d' := by
  have hsplit : d * (n / d) + n % d = n := Nat.div_add_mod n d
  have hsplit' : d' * (n' / d') + n' % d' = n' := Nat.div_add_mod n' d'
  have hr : n % d < d := Nat.mod_lt n hd
  have hq : n / d ≤ n' / d' := by
    rw [Nat.le_div_iff_mul_le hd']
    refine Nat.le_of_mul_le_mul_right ?_ hd
    calc n / d * d' * d = d * (n / d) * d' := by ring
      _ ≤ n * d' := Nat.mul_le_mul_right _ (Nat.mul_div_le n d)
      _ ≤ n' * d := h
  rcases Nat.lt_or_eq_of_le hq with hlt | heq
  · calc roundQuotient n d ≤ n / d + 1 :=
           roundQuotient_le hd (by rw [Nat.add_mul, Nat.one_mul, Nat.mul_comm]; omega)
      _ ≤ n' / d' := hlt
      _ ≤ roundQuotient n' d' := le_roundQuotient hd' (Nat.div_mul_le_self n' d')
  · -- of two values between the same integers, the remainders are compared with one half
    have hcross : n % d * d' ≤ n' % d' * d := by
      rw [← hsplit, ← hsplit', ← heq, Nat.add_mul, Nat.add_mul] at h
      have hsame : d * (n / d) * d' = d' * (n / d) * d := by ring
      omega
    unfold roundQuotient
    dsimp only
    rw [← heq]
    by_cases hlow : 2 * (n % d) < d
    · rw [if_pos hlow]
      split
      · omega
      · split <;> omega
    · rw [if_neg hlow]
      have hlow' : d' ≤ 2 * (n' % d') := by
        refine Nat.le_of_mul_le_mul_left ?_ hd
        calc d * d' ≤ 2 * (n % d) * d' := Nat.mul_le_mul_right _ (Nat.not_lt.mp hlow)
          _ = 2 * (n % d * d') := Nat.mul_assoc _ _ _
          _ ≤ 2 * (n' % d' * d) := Nat.mul_le_mul_left _ hcross
          _ = d * (2 * (n' % d')) := by ring
      rw [if_neg (Nat.not_lt.mpr hlow')]
      by_cases hhigh : d < 2 * (n % d)
      · have hhigh' : d' < 2 * (n' % d') := by
          refine Nat.lt_of_mul_lt_mul_left (a := d) ?_
          calc d * d' < 2 * (n % d) * d' := Nat.mul_lt_mul_of_pos_right hhigh hd'
            _ = 2 * (n % d * d') := Nat.mul_assoc _ _ _
            _ ≤ 2 * (n' % d' * d) := Nat.mul_le_mul_left _ hcross
            _ = d * (2 * (n' % d')) := by ring
        rw [if_pos hhigh, if_pos hhigh']
      · rw [if_neg hhigh]
        split <;> omega

/-! ## Powers of two with integer exponents -/

/-- The two shifts by which a power with an integer exponent is computed. -/
theorem two_zpow_eq (e : Int) : (2 : ℚ) ^ e = 2 ^ e.toNat / 2 ^ (-e).toNat := by
  rcases Int.le_total 0 e with h | h
  · obtain ⟨n, rfl⟩ := Int.eq_ofNat_of_zero_le h
    simp
  · obtain ⟨n, hn⟩ := Int.eq_ofNat_of_zero_le (Int.neg_nonneg_of_nonpos h)
    have he : e = -(n : Int) := by omega
    subst he
    simp

theorem two_zpow_pos (e : Int) : (0 : ℚ) < 2 ^ e := zpow_pos (by norm_num) e

/-- The common factor by which shifting both sides clears the denominators of a fraction and of a
power of two. -/
theorem shift_scale {n d k : Nat} (hd : 0 < d) (e : Int) :
    ∃ c : ℚ, 0 < c ∧ ((n <<< (-e).toNat : Nat) : ℚ) = n / d * c ∧
      ((k * (d <<< e.toNat) : Nat) : ℚ) = k * 2 ^ e * c := by
  have hd' : (0 : ℚ) < d := by exact_mod_cast hd
  refine ⟨d * 2 ^ (-e).toNat, by positivity, ?_, ?_⟩
  · rw [Nat.shiftLeft_eq]
    push_cast
    field_simp
  · rw [two_zpow_eq, Nat.shiftLeft_eq]
    push_cast
    field_simp

theorem mul_shiftLeft_le_iff {n d : Nat} (hd : 0 < d) (k : Nat) (e : Int) :
    k * (d <<< e.toNat) ≤ n <<< (-e).toNat ↔ (k : ℚ) * 2 ^ e ≤ n / d := by
  obtain ⟨c, hc, hn, hk⟩ := shift_scale (n := n) (k := k) hd e
  rw [← Nat.cast_le (α := ℚ), hn, hk]
  exact mul_le_mul_iff_left₀ hc

theorem shiftLeft_le_mul_iff {n d : Nat} (hd : 0 < d) (k : Nat) (e : Int) :
    n <<< (-e).toNat ≤ k * (d <<< e.toNat) ↔ (n : ℚ) / d ≤ k * 2 ^ e := by
  obtain ⟨c, hc, hn, hk⟩ := shift_scale (n := n) (k := k) hd e
  rw [← Nat.cast_le (α := ℚ), hn, hk]
  exact mul_le_mul_iff_left₀ hc

theorem two_pow_log2_le {n : Nat} (hn : 0 < n) : (2 : ℚ) ^ (n.log2 : Int) ≤ n := by
  have h : 2 ^ n.log2 ≤ n := Nat.log2_self_le hn.ne'
  rw [zpow_natCast]
  exact_mod_cast h

theorem lt_two_pow_log2_succ (n : Nat) : (n : ℚ) < 2 ^ ((n.log2 : Int) + 1) := by
  have h : n < 2 ^ (n.log2 + 1) := Nat.lt_log2_self
  have : ((n.log2 : Int) + 1) = ((n.log2 + 1 : Nat) : Int) := by push_cast; rfl
  rw [this, zpow_natCast]
  exact_mod_cast h

/-- `floorLog2` is the exponent of the power of two at or below a fraction. -/
theorem floorLog2_spec {n d : Nat} (hn : 0 < n) (hd : 0 < d) :
    (2 : ℚ) ^ floorLog2 n d ≤ n / d ∧ (n : ℚ) / d < 2 ^ (floorLog2 n d + 1) := by
  have hd' : (0 : ℚ) < d := by exact_mod_cast hd
  set e : Int := (n.log2 : Int) - (d.log2 : Int) with he
  -- the logarithms of the parts leave two candidates, `e` and `e - 1`
  have hlow : (2 : ℚ) ^ (e - 1) ≤ n / d := by
    rw [le_div_iff₀ hd']
    calc (2 : ℚ) ^ (e - 1) * d ≤ 2 ^ (e - 1) * 2 ^ ((d.log2 : Int) + 1) :=
          mul_le_mul_of_nonneg_left (lt_two_pow_log2_succ d).le (two_zpow_pos _).le
      _ = 2 ^ (n.log2 : Int) := by
          rw [← zpow_add₀ (by norm_num)]
          congr 1
          omega
      _ ≤ n := two_pow_log2_le hn
  have hhigh : (n : ℚ) / d < 2 ^ (e + 1) := by
    rw [div_lt_iff₀ hd']
    calc (n : ℚ) < 2 ^ ((n.log2 : Int) + 1) := lt_two_pow_log2_succ n
      _ = 2 ^ (e + 1) * 2 ^ (d.log2 : Int) := by
          rw [← zpow_add₀ (by norm_num)]
          congr 1
          omega
      _ ≤ 2 ^ (e + 1) * d := mul_le_mul_of_nonneg_left (two_pow_log2_le hd) (two_zpow_pos _).le
  have hdef : floorLog2 n d = if d <<< e.toNat ≤ n <<< (-e).toNat then e else e - 1 := rfl
  rw [hdef]
  have hiff : d <<< e.toNat ≤ n <<< (-e).toNat ↔ (2 : ℚ) ^ e ≤ n / d := by
    simpa using mul_shiftLeft_le_iff (n := n) hd 1 e
  by_cases h : (2 : ℚ) ^ e ≤ n / d
  · rw [if_pos (hiff.mpr h)]
    exact ⟨h, hhigh⟩
  · rw [if_neg (fun h' => h (hiff.mp h')), sub_add_cancel]
    exact ⟨hlow, not_le.mp h⟩

/-! ## The nearest double -/

namespace Rounding

/-- The exponent of the last place of a double near `x`. -/
def placeOf (x : Rat) : Int := lastPlace x.num.natAbs x.den

/-- The first power of two above all doubles. -/
def limit : ℕ := 1 <<< 1024

theorem two_pow_53_lt_limit : 2 ^ 53 < limit := by
  decide +kernel

theorem natAbs_num_div_den {x : ℚ} (hx : 0 < x) : ((x.num.natAbs : ℕ) : ℚ) / (x.den : ℚ) = x := by
  have hnum : 0 < x.num := Rat.num_pos.mpr hx
  rw [Nat.cast_natAbs, abs_of_pos hnum, Rat.num_div_den]

theorem placeOf_ge (x : ℚ) : -1074 ≤ placeOf x := le_max_right _ _

/-- At its last place a double has at most 53 binary places. -/
theorem lt_two_zpow_placeOf {x : ℚ} (hx : 0 < x) : x < 2 ^ (placeOf x + 53) := by
  have hn : 0 < x.num.natAbs := Int.natAbs_pos.mpr (Rat.num_pos.mpr hx).ne'
  have hspec := (floorLog2_spec hn x.den_pos).2
  rw [natAbs_num_div_den hx] at hspec
  have hle : floorLog2 x.num.natAbs x.den - 52 ≤ placeOf x := le_max_left _ _
  exact lt_of_lt_of_le hspec (zpow_le_zpow_right₀ (by norm_num) (by omega))

/-- Above the smallest last place it has all 53 of them. -/
theorem two_zpow_placeOf_le {x : ℚ} (hx : 0 < x) (h : -1074 < placeOf x) :
    2 ^ (placeOf x + 52) ≤ x := by
  have hn : 0 < x.num.natAbs := Int.natAbs_pos.mpr (Rat.num_pos.mpr hx).ne'
  have hspec := (floorLog2_spec hn x.den_pos).1
  rw [natAbs_num_div_den hx] at hspec
  have heq : placeOf x = floorLog2 x.num.natAbs x.den - 52 := by
    rcases max_choice (floorLog2 x.num.natAbs x.den - 52) (-1074) with hmax | hmax
    · exact hmax
    · exact absurd hmax h.ne'
  rw [heq, sub_add_cancel]
  exact hspec

/-- How many units of its last place the double near `x` has. -/
def unitsOf (x : Rat) : Nat :=
  roundQuotient (x.num.natAbs <<< (-placeOf x).toNat) (x.den <<< (placeOf x).toNat)

theorem den_shiftLeft_pos (x : ℚ) (n : ℕ) : 0 < x.den <<< n := by
  rw [Nat.shiftLeft_eq]
  exact Nat.mul_pos x.den_pos (Nat.two_pow_pos n)

/-- Rounding a positive value gives an integer in units of the last place, unless that is out of
range. -/
theorem nearest_eq_of_pos {x : ℚ} (hx : 0 < x) :
    nearest x = if limit ≤ unitsOf x * 2 ^ (placeOf x).toNat then .infinite false
      else .finite (unitsOf x * 2 ^ placeOf x) := by
  have hn : x.num.natAbs ≠ 0 := (Int.natAbs_pos.mpr (Rat.num_pos.mpr hx).ne').ne'
  have hneg : ¬x < 0 := not_lt.mpr hx.le
  set q := placeOf x with hq
  set m := unitsOf x with hm
  have hval : mkRat ((m <<< q.toNat : ℕ) : Int) (1 <<< (-q).toNat) = (m : ℚ) * 2 ^ q := by
    rw [Rat.mkRat_eq_div, two_zpow_eq, Nat.shiftLeft_eq, Nat.shiftLeft_eq]
    push_cast
    ring
  have hunfold : nearest x = if m = 0 then Number.zero (decide (x < 0))
      else if limit ≤ m <<< q.toNat then .infinite (decide (x < 0))
      else .finite (if decide (x < 0) then -mkRat ((m <<< q.toNat : ℕ) : Int) (1 <<< (-q).toNat)
        else mkRat ((m <<< q.toNat : ℕ) : Int) (1 <<< (-q).toNat)) := by
    simp only [nearest, hn, if_false]
    rfl
  rw [hunfold, hval, Nat.shiftLeft_eq m]
  by_cases hm0 : m = 0
  · -- zero units are a zero, and a limit is never reached with them
    have hsmall : ¬limit ≤ 0 * 2 ^ q.toNat := by
      have := two_pow_53_lt_limit
      omega
    rw [hm0, if_pos rfl, if_neg hsmall]
    simp [Number.zero, hneg]
  · rw [if_neg hm0, decide_eq_false hneg]
    rfl

/-- No integer on either side of the value is beyond the one to which it is rounded. -/
theorem nearest_of_pos {x : ℚ} (hx : 0 < x) :
    ∃ m : ℕ, (∀ k : ℕ, (k : ℚ) * 2 ^ placeOf x ≤ x → k ≤ m) ∧
      (∀ k : ℕ, x ≤ k * 2 ^ placeOf x → m ≤ k) ∧
      nearest x = if limit ≤ m * 2 ^ (placeOf x).toNat then .infinite false
        else .finite (m * 2 ^ placeOf x) := by
  refine ⟨unitsOf x, ?_, ?_, nearest_eq_of_pos hx⟩
  · intro k hk
    refine le_roundQuotient (den_shiftLeft_pos x _)
      ((mul_shiftLeft_le_iff x.den_pos k (placeOf x)).mpr ?_)
    rw [natAbs_num_div_den hx]
    exact hk
  · intro k hk
    refine roundQuotient_le (den_shiftLeft_pos x _)
      ((shiftLeft_le_mul_iff x.den_pos k (placeOf x)).mpr ?_)
    rw [natAbs_num_div_den hx]
    exact hk

/-! ## Bounds -/

/-- A value that a double can have, its size apart. -/
def OnGrid (g : ℚ) : Prop := ∃ (k : ℕ) (j : Int), k ≤ 2 ^ 53 ∧ -1074 ≤ j ∧ g = k * 2 ^ j

theorem onGrid_natCast {k : ℕ} (hk : k ≤ 2 ^ 53) : OnGrid k := ⟨k, 0, hk, by norm_num, by simp⟩

theorem onGrid_zero : OnGrid 0 := by
  simpa using onGrid_natCast (k := 0) (by norm_num)

/-- In units of a smaller last place, a value of the grid is an integer. -/
theorem natCast_mul_zpow_eq {k : ℕ} {j q : Int} (h : q ≤ j) :
    (k : ℚ) * 2 ^ j = ((k * 2 ^ (j - q).toNat : ℕ) : ℚ) * 2 ^ q := by
  have hj : j = ((j - q).toNat : Int) + q := by omega
  have hpow : (2 : ℚ) ^ j = 2 ^ (j - q).toNat * 2 ^ q := by
    conv_lhs => rw [hj]
    rw [zpow_add₀ (by norm_num), zpow_natCast]
  rw [hpow]
  push_cast
  ring

/-- A value whose last place is above that of `k * 2 ^ j` is larger. -/
theorem natCast_mul_zpow_le {k : ℕ} {j q : Int} (hk : k ≤ 2 ^ 53) (h : j < q) :
    (k : ℚ) * 2 ^ j ≤ 2 ^ (q + 52) := by
  have hk' : (k : ℚ) ≤ 2 ^ (53 : Int) := by exact_mod_cast hk
  calc (k : ℚ) * 2 ^ j ≤ 2 ^ (53 : Int) * 2 ^ j :=
         mul_le_mul_of_nonneg_right hk' (two_zpow_pos j).le
    _ = 2 ^ (53 + j) := by rw [← zpow_add₀ (by norm_num)]
    _ ≤ 2 ^ (q + 52) := zpow_le_zpow_right₀ (by norm_num) (by omega)

/-- Rounding does not go above a value of the grid. -/
theorem nearest_le_of_le_grid {x g : ℚ} (hx : 0 < x) (hg : OnGrid g) (hlt : g < limit) (h : x ≤ g) :
    ∃ y, nearest x = .finite y ∧ 0 ≤ y ∧ y ≤ g := by
  obtain ⟨k, j, hk, hj, rfl⟩ := hg
  obtain ⟨m, -, hup, hround⟩ := nearest_of_pos hx
  have hmle : (m : ℚ) * 2 ^ placeOf x ≤ k * 2 ^ j := by
    rcases le_or_gt (placeOf x) j with hqj | hqj
    · rw [natCast_mul_zpow_eq hqj] at h ⊢
      exact mul_le_mul_of_nonneg_right (by exact_mod_cast hup _ h) (two_zpow_pos _).le
    · -- the grid is coarser at `x` than at `g`, so `x` can only be `g` itself
      have hge : 2 ^ (placeOf x + 52) ≤ x := two_zpow_placeOf_le hx (by omega)
      have hgle := natCast_mul_zpow_le hk hqj
      have hxeq : x = ((2 ^ 52 : ℕ) : ℚ) * 2 ^ placeOf x := by
        have hpow : (2 : ℚ) ^ (placeOf x + 52) = ((2 ^ 52 : ℕ) : ℚ) * 2 ^ placeOf x := by
          rw [zpow_add₀ (by norm_num), mul_comm]
          norm_num
        rw [← hpow]
        exact le_antisymm (h.trans hgle) hge
      have hm : m ≤ 2 ^ 52 := hup _ hxeq.le
      calc (m : ℚ) * 2 ^ placeOf x ≤ ((2 ^ 52 : ℕ) : ℚ) * 2 ^ placeOf x :=
            mul_le_mul_of_nonneg_right (by exact_mod_cast hm) (two_zpow_pos _).le
        _ = x := hxeq.symm
        _ ≤ k * 2 ^ j := h
  have hfit : ¬limit ≤ m * 2 ^ (placeOf x).toNat := by
    intro hbig
    rcases le_or_gt 0 (placeOf x) with hq | hq
    · -- the shifted integer is the rounded value
      have hcast : ((limit : ℕ) : ℚ) ≤ ((m * 2 ^ (placeOf x).toNat : ℕ) : ℚ) := by
        exact_mod_cast hbig
      have hpow : (2 : ℚ) ^ placeOf x = 2 ^ (placeOf x).toNat := by
        conv_lhs => rw [← Int.toNat_of_nonneg hq, zpow_natCast]
      rw [Nat.cast_mul, Nat.cast_pow, Nat.cast_ofNat, ← hpow] at hcast
      exact absurd (hcast.trans hmle) (not_le.mpr hlt)
    · -- an integer of 53 binary places is far below the range
      have hm53 : m ≤ 2 ^ 53 := by
        apply hup
        have hpow : (2 : ℚ) ^ (placeOf x + 53) = ((2 ^ 53 : ℕ) : ℚ) * 2 ^ placeOf x := by
          rw [zpow_add₀ (by norm_num), mul_comm]
          norm_num
        rw [← hpow]
        exact (lt_two_zpow_placeOf hx).le
      have htoNat : (placeOf x).toNat = 0 := by omega
      rw [htoNat, pow_zero, Nat.mul_one] at hbig
      exact absurd (hbig.trans hm53) (Nat.not_le.mpr two_pow_53_lt_limit)
  exact ⟨m * 2 ^ placeOf x, hround.trans (if_neg hfit),
    mul_nonneg (Nat.cast_nonneg m) (two_zpow_pos _).le, hmle⟩

/-- Rounding does not go below a value of the grid. -/
theorem grid_le_nearest {x g : ℚ} (hx : 0 < x) (hg : OnGrid g) (h : g ≤ x) :
    nearest x = .infinite false ∨ ∃ y, nearest x = .finite y ∧ g ≤ y := by
  obtain ⟨k, j, hk, hj, rfl⟩ := hg
  obtain ⟨m, hlow, -, hround⟩ := nearest_of_pos hx
  have hmge : (k : ℚ) * 2 ^ j ≤ m * 2 ^ placeOf x := by
    -- a finer place of `x` has the grid value as units, a coarser one has a power of two in between
    rcases le_or_gt (placeOf x) j with hqj | hqj
    · rw [natCast_mul_zpow_eq hqj] at h ⊢
      exact mul_le_mul_of_nonneg_right (by exact_mod_cast hlow _ h) (two_zpow_pos _).le
    · have hpow : (2 : ℚ) ^ (placeOf x + 52) = ((2 ^ 52 : ℕ) : ℚ) * 2 ^ placeOf x := by
        rw [zpow_add₀ (by norm_num), mul_comm]
        norm_num
      have hge : 2 ^ (placeOf x + 52) ≤ x := two_zpow_placeOf_le hx (by omega)
      have hm : 2 ^ 52 ≤ m := hlow _ (hpow ▸ hge)
      calc (k : ℚ) * 2 ^ j ≤ 2 ^ (placeOf x + 52) := natCast_mul_zpow_le hk hqj
        _ = ((2 ^ 52 : ℕ) : ℚ) * 2 ^ placeOf x := hpow
        _ ≤ m * 2 ^ placeOf x :=
            mul_le_mul_of_nonneg_right (by exact_mod_cast hm) (two_zpow_pos _).le
  rw [hround]
  split
  · exact Or.inl rfl
  · exact Or.inr ⟨_, rfl, hmge⟩

/-- Rounding keeps a value of the grid. -/
theorem nearest_of_onGrid {x : ℚ} (hx : 0 < x) (hgrid : OnGrid x) (hlt : x < limit) :
    nearest x = .finite x := by
  obtain ⟨y, hy, -, hle⟩ := nearest_le_of_le_grid hx hgrid hlt le_rfl
  rcases grid_le_nearest hx hgrid le_rfl with hinf | ⟨z, hz, hge⟩
  · rw [hy] at hinf
    cases hinf
  · rw [hy] at hz
    cases hz
    rw [hy, le_antisymm hle hge]

/-- A finite result of rounding is a value of the grid. -/
theorem onGrid_of_nearest {x y : ℚ} (hx : 0 < x) (h : nearest x = .finite y) : OnGrid y := by
  obtain ⟨m, -, hup, hround⟩ := nearest_of_pos hx
  have hm : m ≤ 2 ^ 53 := by
    apply hup
    have hpow : (2 : ℚ) ^ (placeOf x + 53) = ((2 ^ 53 : ℕ) : ℚ) * 2 ^ placeOf x := by
      rw [zpow_add₀ (by norm_num), mul_comm]
      norm_num
    rw [← hpow]
    exact (lt_two_zpow_placeOf hx).le
  rw [hround] at h
  split at h
  · cases h
  · cases h
    exact ⟨m, placeOf x, hm, placeOf_ge x, rfl⟩

/-- From one half on, the values of the grid have at most 53 binary places after the point. -/
theorem OnGrid.exists_nat {x : ℚ} (h : OnGrid x) (hlow : 1 / 2 ≤ x) :
    ∃ n : ℕ, x = n * 2 ^ (-53 : Int) := by
  obtain ⟨k, j, hk, -, rfl⟩ := h
  rcases le_or_gt (-53) j with hj | hj
  · exact ⟨k * 2 ^ (j - -53).toNat, natCast_mul_zpow_eq hj⟩
  · -- below, the largest value of the grid is one half itself
    have hle := natCast_mul_zpow_le hk hj
    have hhalf : (2 : ℚ) ^ (-53 + 52 : Int) = 1 / 2 := by norm_num
    refine ⟨2 ^ 52, le_antisymm (hle.trans (by norm_num)) (le_trans (by norm_num) hlow)⟩

/-- The integers up to `2 ^ 53` in units of the 53rd binary place are on the grid. -/
theorem onGrid_unit {n : ℕ} (hn : n ≤ 2 ^ 53) : OnGrid (n * 2 ^ (-53 : Int)) :=
  ⟨n, -53, hn, by norm_num, rfl⟩

/-- Rounding never loses the value altogether. -/
theorem nearest_ne_nan (x : ℚ) : nearest x ≠ .nan := by
  unfold nearest
  dsimp only
  split
  · simp
  · split
    · unfold Number.zero
      split <;> simp
    · split <;> simp

end Rounding

end Scorecard
