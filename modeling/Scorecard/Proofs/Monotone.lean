import Mathlib.Data.List.Forall2
import Mathlib.Data.Prod.Lex
import Scorecard.Proofs.IntegerRange

set_option autoImplicit false

/-! # Arithmetic keeps order

A larger value is not rounded to a smaller number (`Rounding.nearest_mono`), so whatever is computed
from numbers that are not negative by adding, multiplying and dividing by a fixed number grows with
each of them. What is needed of a rounding for this is `Rounding.IsMonotone`. Both exact arithmetic
and double precision have it, and the lemmas on `Number` below speak about any such rounding. They
compare places in the order and not numbers, because the two zeros are different numbers in the same
place.
-/

namespace Scorecard

variable {ρ : Rounding} {a b : Number} {x y : ℚ} {k : ℕ}

/-! ## Roundings that keep order -/

/-- A rounding that keeps the order of the values that are not negative, that keeps small integers,
and that changes nothing when it is applied again. -/
structure Rounding.IsMonotone (ρ : Rounding) : Prop where
  natCast : ∀ {k : ℕ}, k ≤ 2 ^ 53 → ρ k = .finite k
  mono : ∀ {x y : ℚ}, 0 ≤ x → x ≤ y → (ρ x).le (ρ y) = true
  again : ∀ {x y : ℚ}, 0 ≤ x → ρ x = .finite y → ρ y = .finite y

theorem Rounding.IsMonotone.zero (hρ : ρ.IsMonotone) : ρ 0 = .finite 0 := by
  simpa using hρ.natCast (k := 0) (by norm_num)

namespace Number

/-! ## Order -/

theorem le_iff_toLex :
    a.le b = true ↔ ∃ p q, a.place = some p ∧ b.place = some q ∧ toLex p ≤ toLex q := by
  unfold le
  cases a.place with
  | none => simp
  | some p => cases b.place <;> simp [Prod.Lex.toLex_le_toLex]

theorem lt_iff_toLex :
    a.lt b = true ↔ ∃ p q, a.place = some p ∧ b.place = some q ∧ toLex p < toLex q := by
  unfold lt
  cases a.place with
  | none => simp
  | some p => cases b.place <;> simp [Prod.Lex.toLex_lt_toLex]

protected theorem le_trans {a b c : Number} (hab : a.le b = true) (hbc : b.le c = true) :
    a.le c = true := by
  obtain ⟨p, q, hp, hq, hpq⟩ := le_iff_toLex.mp hab
  obtain ⟨q', r, hq', hr, hqr⟩ := le_iff_toLex.mp hbc
  cases hq.symm.trans hq'
  exact le_iff_toLex.mpr ⟨p, r, hp, hr, hpq.trans hqr⟩

protected theorem lt_of_le_of_lt {a b c : Number} (hab : a.le b = true) (hbc : b.lt c = true) :
    a.lt c = true := by
  obtain ⟨p, q, hp, hq, hpq⟩ := le_iff_toLex.mp hab
  obtain ⟨q', r, hq', hr, hqr⟩ := lt_iff_toLex.mp hbc
  cases hq.symm.trans hq'
  exact lt_iff_toLex.mpr ⟨p, r, hp, hr, hpq.trans_lt hqr⟩

protected theorem lt_of_lt_of_le {a b c : Number} (hab : a.lt b = true) (hbc : b.le c = true) :
    a.lt c = true := by
  obtain ⟨p, q, hp, hq, hpq⟩ := lt_iff_toLex.mp hab
  obtain ⟨q', r, hq', hr, hqr⟩ := le_iff_toLex.mp hbc
  cases hq.symm.trans hq'
  exact lt_iff_toLex.mpr ⟨p, r, hp, hr, hpq.trans_le hqr⟩

/-- Numbers in the same places compare the same. -/
theorem le_congr {a a' b b' : Number} (ha : a.place = a'.place) (hb : b.place = b'.place) :
    a.le b = a'.le b' := by
  simp only [le, ha, hb]

theorem lt_congr {a a' b b' : Number} (ha : a.place = a'.place) (hb : b.place = b'.place) :
    a.lt b = a'.lt b' := by
  simp only [lt, ha, hb]

theorem le_self (ha : a ≠ .nan) : a.le a = true := by
  rcases a with x | _ | (_ | _) | _ <;> simp_all [le, place]

theorem le_infinite (h : a ≠ .nan) : a.le (.infinite false) = true := by
  rcases a with x | _ | (_ | _) | _ <;> simp_all [le, place]

theorem AtLeast.zero_le (h : a.AtLeast 0) : Number.le (.finite 0) a = true := by
  rcases h with rfl | ⟨hfinite, hvalue⟩
  · rfl
  · exact (le_iff_value_le rfl hfinite).mpr hvalue

theorem atLeast_zero (h : Number.le (.finite 0) a = true) : a.AtLeast 0 := by
  rcases a with x | _ | (_ | _) | _
  · exact Or.inr ⟨rfl, (le_iff_value_le rfl rfl).mp h⟩
  · exact Or.inr ⟨rfl, le_refl _⟩
  · exact Or.inl rfl
  · simp [le, place] at h
  · simp [le, place] at h

theorem isZero_eq_false_of_lt (h : Number.lt (.finite 0) a = true) : a.isZero = false := by
  rcases a with x | _ | s | _
  · have hx : 0 < x := (lt_iff_value_lt rfl rfl).mp h
    simpa [isZero] using hx.ne'
  · simp [lt, place] at h
  · rfl
  · rfl

/-- What is at most a finite number and not negative is finite. -/
theorem AtLeast.isFinite_of_le (ha : a.AtLeast 0) (hb : b.isFinite = true) (h : a.le b = true) :
    a.isFinite = true := by
  rcases ha with rfl | ⟨hfinite, -⟩
  · have hplace : (infinite false).place = some (1, 0) := rfl
    simp [le, place_of_isFinite hb, hplace] at h
  · exact hfinite

end Number

/-! ## The two roundings -/

theorem Rounding.isMonotone_exact : Rounding.IsMonotone .exact where
  natCast := fun _ => rfl
  mono := fun _ h => (Number.le_iff_value_le rfl rfl).mpr h
  again := fun _ _ => rfl

namespace Rounding

/-- The last place grows with the value. -/
theorem placeOf_mono (hx : 0 < x) (h : x ≤ y) : placeOf x ≤ placeOf y := by
  rcases eq_or_lt_of_le (placeOf_ge x) with hleast | habove
  · rw [← hleast]
    exact placeOf_ge y
  · have hpow : (2 : ℚ) ^ (placeOf x + 52) < 2 ^ (placeOf y + 53) := by
      calc (2 : ℚ) ^ (placeOf x + 52) ≤ x := two_zpow_placeOf_le hx habove
        _ ≤ y := h
        _ < 2 ^ (placeOf y + 53) := lt_two_zpow_placeOf (hx.trans_le h)
    have hlt := (zpow_lt_zpow_iff_right₀ (by norm_num)).mp hpow
    omega

theorem natAbs_mul_den_le (hx : 0 ≤ x) (h : x ≤ y) :
    x.num.natAbs * y.den ≤ y.num.natAbs * x.den := by
  have hxden : (0 : ℚ) < x.den := by exact_mod_cast x.den_pos
  have hyden : (0 : ℚ) < y.den := by exact_mod_cast y.den_pos
  rcases hx.lt_or_eq with hpos | rfl
  · have hquotients : (x.num.natAbs : ℚ) / x.den ≤ y.num.natAbs / y.den := by
      rw [natAbs_num_div_den hpos, natAbs_num_div_den (hpos.trans_le h)]
      exact h
    rw [div_le_div_iff₀ hxden hyden] at hquotients
    exact_mod_cast hquotients
  · simp

/-- Where the last place is the same, its units are compared. -/
theorem unitsOf_mono (hx : 0 < x) (h : x ≤ y) (hplace : placeOf x = placeOf y) :
    unitsOf x ≤ unitsOf y := by
  have hcross := natAbs_mul_den_le hx.le h
  unfold unitsOf
  rw [hplace]
  refine roundQuotient_mono (den_shiftLeft_pos x _) (den_shiftLeft_pos y _) ?_
  simp only [Nat.shiftLeft_eq]
  generalize 2 ^ (-placeOf y).toNat = s
  generalize 2 ^ (placeOf y).toNat = t
  calc x.num.natAbs * s * (y.den * t) = x.num.natAbs * y.den * (s * t) := by ring
    _ ≤ y.num.natAbs * x.den * (s * t) := Nat.mul_le_mul_right _ hcross
    _ = y.num.natAbs * s * (x.den * t) := by ring

theorem nearest_mono_of_pos (hx : 0 < x) (h : x ≤ y) : (nearest x).le (nearest y) = true := by
  have hy : 0 < y := hx.trans_le h
  rcases (placeOf_mono hx h).lt_or_eq with hlt | heq
  · -- the power of two at which the last place changes stands between the two values
    set g : ℚ := ((2 ^ 52 : ℕ) : ℚ) * 2 ^ placeOf y with hg
    have hpow : (2 : ℚ) ^ (placeOf y + 52) = g := by
      rw [hg, zpow_add₀ (by norm_num), mul_comm]
      norm_num
    have hgrid : OnGrid g := ⟨2 ^ 52, placeOf y, by norm_num, placeOf_ge y, rfl⟩
    have hxg : x ≤ g := by
      calc x ≤ 2 ^ (placeOf x + 53) := (lt_two_zpow_placeOf hx).le
        _ ≤ 2 ^ (placeOf y + 52) := zpow_le_zpow_right₀ (by norm_num) (by omega)
        _ = g := hpow
    have hgy : g ≤ y := hpow ▸ two_zpow_placeOf_le hy (lt_of_le_of_lt (placeOf_ge x) hlt)
    rcases grid_le_nearest hy hgrid hgy with hinf | ⟨z, hz, hgz⟩
    · rw [hinf]
      exact Number.le_infinite (nearest_ne_nan x)
    · obtain ⟨w, hw, -, hwg⟩ :=
        nearest_le_of_le_grid hx hgrid (hgz.trans_lt (nearest_lt_limit hy hz)) hxg
      rw [hw, hz]
      exact (Number.le_iff_value_le rfl rfl).mpr (hwg.trans hgz)
  · have hunits := unitsOf_mono hx h heq
    rw [nearest_eq_of_pos hx, nearest_eq_of_pos hy, heq]
    by_cases hbig : limit ≤ unitsOf y * 2 ^ (placeOf y).toNat
    · rw [if_pos hbig]
      apply Number.le_infinite
      split <;> simp
    · have hbig' : ¬limit ≤ unitsOf x * 2 ^ (placeOf y).toNat :=
        fun hle => hbig (hle.trans (Nat.mul_le_mul_right _ hunits))
      rw [if_neg hbig, if_neg hbig']
      refine (Number.le_iff_value_le rfl rfl).mpr ?_
      exact mul_le_mul_of_nonneg_right (by exact_mod_cast hunits) (two_zpow_pos _).le

/-- **Rounding to nearest keeps order**, on the values that are not negative. -/
theorem nearest_mono (hx : 0 ≤ x) (h : x ≤ y) : (nearest x).le (nearest y) = true := by
  rcases hx.lt_or_eq with hpos | rfl
  · exact nearest_mono_of_pos hpos h
  · exact (Number.nearest_atLeast onGrid_zero (le_refl 0) h).zero_le

theorem isMonotone_nearest : IsMonotone .nearest where
  natCast := by
    intro k hk
    rcases Nat.eq_zero_or_pos k with rfl | hpos
    · rfl
    · exact nearest_of_onGrid (by exact_mod_cast hpos) (onGrid_natCast hk)
        (by exact_mod_cast hk.trans_lt two_pow_53_lt_limit)
  mono := nearest_mono
  again := by
    intro x y hx h
    rcases hx.lt_or_eq with hpos | rfl
    · -- what a positive number is rounded to may be zero, so the two cases come again
      obtain ⟨-, hy⟩ : (Number.finite y).isFinite = true ∧ 0 ≤ y :=
        (h ▸ Number.nearest_atLeast onGrid_zero (le_refl 0) hx :
          (Number.finite y).AtLeast 0).resolve_left (by simp)
      rcases hy.lt_or_eq with hypos | rfl
      · exact nearest_of_onGrid hypos (onGrid_of_nearest hpos h) (nearest_lt_limit hpos h)
      · rfl
    · cases h
      rfl

end Rounding

namespace Number

/-! ## What an operation rounds -/

/-- A number that rounding keeps. -/
def KeptBy (ρ : Rounding) : Number → Prop
  | finite x => ρ x = .finite x
  | _ => True

theorem keptBy_nearest (h : a.IsDouble) : a.KeptBy .nearest := by
  cases a with
  | finite x => exact h
  | _ => trivial

theorem keptBy_exact (a : Number) : a.KeptBy .exact := by
  cases a with
  | finite x => rfl
  | _ => trivial

theorem place_zero (negative : Bool) : (zero negative).place = some (0, 0) := by
  cases negative <;> rfl

section Places

variable (hρ : ρ.IsMonotone)
include hρ

theorem place_mul (ha : a.isFinite = true) (hb : b.isFinite = true) :
    (mul ρ a b).place = (ρ (a.value * b.value)).place := by
  rw [mul_of_isFinite ρ ha hb]
  split
  · rename_i hzero
    rw [hzero, hρ.zero, place_zero]
    rfl
  · rfl

theorem place_div (ha : a.isFinite = true) (hb : b.isFinite = true) (hne : b.value ≠ 0) :
    (div ρ a b).place = (ρ (a.value / b.value)).place := by
  rw [div_of_isFinite ρ ha hb hne]
  split
  · rename_i hzero
    rw [hzero, zero_div, hρ.zero, place_zero]
    rfl
  · rfl

theorem place_of_keptBy (ha : a.isFinite = true) (ka : a.KeptBy ρ) :
    a.place = (ρ a.value).place := by
  rcases finite_or_negZero ha with ⟨x, rfl⟩ | rfl
  · exact congrArg place (show ρ x = finite x from ka).symm
  · change (finite 0).place = (ρ 0).place
    rw [hρ.zero]

/-- A sum with a negative zero is not rounded, so the other number has to be one that rounding
keeps. -/
theorem place_add (ha : a.isFinite = true) (hb : b.isFinite = true) (ka : a.KeptBy ρ)
    (kb : b.KeptBy ρ) : (add ρ a b).place = (ρ (a.value + b.value)).place := by
  rcases finite_or_negZero ha with ⟨x, rfl⟩ | rfl
  · rcases finite_or_negZero hb with ⟨y, rfl⟩ | rfl
    · -- a sum of zero is exact, and rounding agrees as it keeps zero
      change (if x + y = 0 then finite 0 else ρ (x + y)).place = (ρ (x + y)).place
      split
      · rename_i hzero
        rw [hzero, hρ.zero]
      · rfl
    · change (finite x).place = (ρ (x + 0)).place
      rw [add_zero, show ρ x = finite x from ka]
  · rcases finite_or_negZero hb with ⟨y, rfl⟩ | rfl
    · change (finite y).place = (ρ (0 + y)).place
      rw [zero_add, show ρ y = finite y from kb]
    · change negZero.place = (ρ (0 + 0)).place
      rw [add_zero, hρ.zero]
      rfl

end Places

/-! ## Between bounds

The numbers that a score is made of are finite and lie between zero and small integers. -/

theorem isFinite_iff_place : a.isFinite = true ↔ a.place = some (0, a.value) := by
  rcases a with x | _ | (_ | _) | _ <;> simp [isFinite, place, value]

/-- Numbers in the same place are between the same bounds. -/
theorem within_congr (h : a.place = b.place) {low high : ℚ} :
    a.Within low high ↔ b.Within low high := by
  have hiff : ∀ c : Number, c.Within low high ↔ ∃ v, c.place = some (0, v) ∧ low ≤ v ∧
      v ≤ high := by
    intro c
    constructor
    · rintro ⟨hfinite, hlow, hhigh⟩
      exact ⟨c.value, isFinite_iff_place.mp hfinite, hlow, hhigh⟩
    · rintro ⟨v, hv, hlow, hhigh⟩
      rcases c with x | _ | (_ | _) | _ <;> simp_all [place, Within, isFinite, value]
  rw [hiff, hiff, h]

section Within

variable (hρ : ρ.IsMonotone)
include hρ

theorem round_within (hk : k ≤ 2 ^ 53) (h0 : 0 ≤ x) (h : x ≤ k) : (ρ x).Within 0 k := by
  have hlow := hρ.mono le_rfl h0
  have hhigh := hρ.mono h0 h
  rw [hρ.zero] at hlow
  rw [hρ.natCast hk] at hhigh
  have hfinite := (atLeast_zero hlow).isFinite_of_le rfl hhigh
  exact ⟨hfinite, (le_iff_value_le rfl hfinite).mp hlow, (le_iff_value_le hfinite rfl).mp hhigh⟩

theorem add_within {k l : ℕ} (hkl : k + l ≤ 2 ^ 53) (ha : a.Within 0 k) (hb : b.Within 0 l) :
    (add ρ a b).Within 0 (k + l : ℕ) := by
  obtain ⟨fa, a0, ak⟩ := ha
  obtain ⟨fb, b0, bl⟩ := hb
  have hk0 : (0 : ℚ) ≤ k := Nat.cast_nonneg k
  have hl0 : (0 : ℚ) ≤ l := Nat.cast_nonneg l
  rcases finite_or_negZero fa with ⟨x, rfl⟩ | rfl
  · rcases finite_or_negZero fb with ⟨y, rfl⟩ | rfl
    · -- only a sum of two finite numbers is rounded, and the bound is an integer, so it is kept
      change (if x + y = 0 then finite 0 else ρ (x + y)).Within 0 (k + l : ℕ)
      split
      · exact within_finite (le_refl _) (Nat.cast_nonneg _)
      · exact round_within hρ hkl (add_nonneg a0 b0) (by push_cast; exact add_le_add ak bl)
    · exact within_finite a0 (ak.trans (by push_cast; linarith))
  · rcases finite_or_negZero fb with ⟨y, rfl⟩ | rfl
    · exact within_finite b0 (bl.trans (by push_cast; linarith))
    · exact ⟨rfl, le_refl _, Nat.cast_nonneg _⟩

theorem mul_within {k l : ℕ} (hkl : k * l ≤ 2 ^ 53) (ha : a.Within 0 k) (hb : b.Within 0 l) :
    (mul ρ a b).Within 0 (k * l : ℕ) := by
  obtain ⟨fa, a0, ak⟩ := ha
  obtain ⟨fb, b0, bl⟩ := hb
  rw [within_congr (place_mul hρ fa fb)]
  refine round_within hρ hkl (mul_nonneg a0 b0) ?_
  push_cast
  exact mul_le_mul ak bl b0 (Nat.cast_nonneg k)

/-- A divisor of at least one half at most doubles a number. -/
theorem div_within {high : ℚ} (hk : k * 2 ≤ 2 ^ 53) (ha : a.Within 0 k)
    (hb : b.Within (1 / 2) high) : (div ρ a b).Within 0 (k * 2 : ℕ) := by
  obtain ⟨fa, a0, ak⟩ := ha
  obtain ⟨fb, b1, -⟩ := hb
  have hb0 : 0 < b.value := lt_of_lt_of_le (by norm_num) b1
  rw [within_congr (place_div hρ fa fb hb0.ne')]
  refine round_within hρ hk (div_nonneg a0 hb0.le) ?_
  rw [div_le_iff₀ hb0]
  push_cast
  have hk0 : (0 : ℚ) ≤ k := Nat.cast_nonneg k
  nlinarith

/-- Adding more numbers adds their bounds. -/
theorem foldl_add_within (xs : List Number) (hx : ∀ x ∈ xs, x.Within 0 k) :
    ∀ {a : Number} {s : ℕ}, s + xs.length * k ≤ 2 ^ 53 → a.Within 0 s →
      (xs.foldl (add ρ) a).Within 0 (s + xs.length * k : ℕ) := by
  induction xs with
  | nil =>
      intro a s _ ha
      simpa using ha
  | cons x rest ih =>
      intro a s hs ha
      rw [List.length_cons, Nat.succ_mul] at hs
      have hstep : (add ρ a x).Within 0 (s + k : ℕ) :=
        add_within hρ (by omega) ha (hx x List.mem_cons_self)
      have hrest := ih (fun y hy => hx y (List.mem_cons_of_mem _ hy)) (by omega) hstep
      have heq : s + k + rest.length * k = s + (rest.length + 1) * k := by
        rw [Nat.succ_mul]
        omega
      rw [List.length_cons, ← heq]
      exact hrest

theorem sum_within {xs : List Number} (hk : xs.length * k ≤ 2 ^ 53) (hx : ∀ x ∈ xs, x.Within 0 k) :
    (sum ρ xs).Within 0 (xs.length * k : ℕ) := by
  have h :=
    foldl_add_within hρ (a := .finite 0) (s := 0) xs hx (by omega) ⟨rfl, le_refl _, by simp [value]⟩
  rw [Nat.zero_add] at h
  exact h

end Within

/-! ## Amounts -/

/-- A number that is not negative and that rounding keeps. Sums of amounts are amounts. -/
def IsAmount (ρ : Rounding) (a : Number) : Prop := a.AtLeast 0 ∧ a.KeptBy ρ

/-- Two amounts, of which the first is at most the second. -/
structure RisesTo (ρ : Rounding) (a b : Number) : Prop where
  left : a.IsAmount ρ
  right : b.IsAmount ρ
  le : a.le b = true

section Amounts

variable (hρ : ρ.IsMonotone)
include hρ

theorem isAmount_round (hx : 0 ≤ x) : (ρ x).IsAmount ρ := by
  have hle := hρ.mono le_rfl hx
  rw [hρ.zero] at hle
  refine ⟨atLeast_zero hle, ?_⟩
  cases h : ρ x with
  | finite y => exact hρ.again hx h
  | _ => trivial

theorem isAmount_zero (negative : Bool) : (zero negative).IsAmount ρ := by
  cases negative
  · exact ⟨Or.inr ⟨rfl, le_refl _⟩, hρ.zero⟩
  · exact ⟨Or.inr ⟨rfl, le_refl _⟩, trivial⟩

theorem isAmount_mul (ha : a.isFinite = true) (ha0 : 0 ≤ a.value) (hb : b.isFinite = true)
    (hb0 : 0 ≤ b.value) : (mul ρ a b).IsAmount ρ := by
  rw [mul_of_isFinite ρ ha hb]
  split
  · exact isAmount_zero hρ _
  · exact isAmount_round hρ (mul_nonneg ha0 hb0)

theorem isAmount_add (ha : a.IsAmount ρ) (hb : b.IsAmount ρ) : (add ρ a b).IsAmount ρ := by
  have hinf : (infinite false).IsAmount ρ := ⟨Or.inl rfl, trivial⟩
  rcases ha.1 with rfl | ⟨fa, va⟩
  · rw [add_infinite_left ρ hb.1]
    exact hinf
  rcases hb.1 with rfl | ⟨fb, vb⟩
  · rw [add_infinite_right ρ ha.1]
    exact hinf
  rcases finite_or_negZero fa with ⟨x, rfl⟩ | rfl
  · rcases finite_or_negZero fb with ⟨y, rfl⟩ | rfl
    · change (if x + y = 0 then finite 0 else ρ (x + y)).IsAmount ρ
      split
      · exact isAmount_zero hρ false
      · exact isAmount_round hρ (add_nonneg va vb)
    · exact ha
  · -- the zero with a sign leaves the other number as it is
    rcases finite_or_negZero fb with ⟨y, rfl⟩ | rfl
    · exact hb
    · exact hb

/-- Sums of amounts grow with both summands. -/
theorem RisesTo.add {a a' b b' : Number} (ha : a.RisesTo ρ a') (hb : b.RisesTo ρ b') :
    (Number.add ρ a b).RisesTo ρ (Number.add ρ a' b') := by
  have hsum := isAmount_add hρ ha.left hb.left
  refine ⟨hsum, isAmount_add hρ ha.right hb.right, ?_⟩
  rcases ha.right.1 with rfl | ⟨fa', -⟩
  · rw [add_infinite_left ρ hb.right.1]
    exact le_infinite hsum.1.ne_nan
  rcases hb.right.1 with rfl | ⟨fb', -⟩
  · rw [add_infinite_right ρ ha.right.1]
    exact le_infinite hsum.1.ne_nan
  -- what lies below a finite amount is finite
  have fa := ha.left.1.isFinite_of_le fa' ha.le
  have fb := hb.left.1.isFinite_of_le fb' hb.le
  rw [le_congr (place_add hρ fa fb ha.left.2 hb.left.2)
    (place_add hρ fa' fb' ha.right.2 hb.right.2)]
  have hvalue := (le_iff_value_le fa fa').mp ha.le
  have hvalue' := (le_iff_value_le fb fb').mp hb.le
  have hva : 0 ≤ a.value := (le_iff_value_le rfl fa).mp ha.left.1.zero_le
  have hvb : 0 ≤ b.value := (le_iff_value_le rfl fb).mp hb.left.1.zero_le
  exact hρ.mono (add_nonneg hva hvb) (add_le_add hvalue hvalue')

/-- Products grow with the second factor. -/
theorem risesTo_mul {a b b' : Number} {high : ℚ} (fa : a.isFinite = true) (ha : 0 ≤ a.value)
    (hb : b.Within 0 high) (hb' : b'.Within 0 high) (h : b.le b' = true) :
    (mul ρ a b).RisesTo ρ (mul ρ a b') := by
  refine ⟨isAmount_mul hρ fa ha hb.1 hb.2.1, isAmount_mul hρ fa ha hb'.1 hb'.2.1, ?_⟩
  rw [le_congr (place_mul hρ fa hb.1) (place_mul hρ fa hb'.1)]
  exact hρ.mono (mul_nonneg ha hb.2.1)
    (mul_le_mul_of_nonneg_left ((le_iff_value_le hb.1 hb'.1).mp h) ha)

theorem ratio_eq (n : Int) (d : ℕ) : ratio ρ n d = ρ (n / d) := by
  unfold ratio
  split
  · rename_i hzero
    rw [hzero, Int.cast_zero, zero_div, hρ.zero]
  · rw [Rat.mkRat_eq_div]

theorem ratio_mono {n n' : Int} {d : ℕ} (hn : 0 ≤ n) (h : n ≤ n') :
    (ratio ρ n d).le (ratio ρ n' d) = true := by
  have hn' : (0 : ℚ) ≤ n := by exact_mod_cast hn
  have hle : (n : ℚ) ≤ n' := by exact_mod_cast h
  rw [ratio_eq hρ, ratio_eq hρ]
  exact hρ.mono (div_nonneg hn' (Nat.cast_nonneg d))
    (div_le_div_of_nonneg_right hle (Nat.cast_nonneg d))

theorem div_mono {a a' b : Number} (fa : a.isFinite = true) (ha : 0 ≤ a.value)
    (fa' : a'.isFinite = true) (h : a.value ≤ a'.value) (fb : b.isFinite = true)
    (hb : 0 < b.value) : (div ρ a b).le (div ρ a' b) = true := by
  rw [le_congr (place_div hρ fa fb hb.ne') (place_div hρ fa' fb hb.ne')]
  exact hρ.mono (div_nonneg ha hb.le) (div_le_div_of_nonneg_right h hb.le)

/-! ## Sums -/

theorem isAmount_foldl_add (xs : List Number) (hx : ∀ x ∈ xs, x.IsAmount ρ) :
    ∀ {a : Number}, a.IsAmount ρ → (xs.foldl (add ρ) a).IsAmount ρ := by
  induction xs with
  | nil => exact fun ha => ha
  | cons x rest ih =>
      intro a ha
      exact ih (fun y hy => hx y (List.mem_cons_of_mem _ hy))
        (isAmount_add hρ ha (hx x List.mem_cons_self))

theorem risesTo_foldl_add {xs ys : List Number} (h : List.Forall₂ (RisesTo ρ) xs ys) :
    ∀ {a b : Number}, a.RisesTo ρ b → (xs.foldl (add ρ) a).RisesTo ρ (ys.foldl (add ρ) b) := by
  induction h with
  | nil => exact fun hab => hab
  | cons hhead _ ih =>
      intro a b hab
      exact ih (hab.add hρ hhead)

/-- A sum of amounts grows with each of them. -/
theorem risesTo_sum {xs ys : List Number} (h : List.Forall₂ (RisesTo ρ) xs ys) :
    (sum ρ xs).RisesTo ρ (sum ρ ys) :=
  risesTo_foldl_add hρ h ⟨isAmount_zero hρ false, isAmount_zero hρ false, rfl⟩

theorem le_add_right (ha : a.IsAmount ρ) (hb : b.IsAmount ρ) : a.le (add ρ a b) = true := by
  rcases ha.1 with rfl | ⟨fa, va⟩
  · rw [add_infinite_left ρ hb.1]
    rfl
  rcases hb.1 with rfl | ⟨fb, vb⟩
  · rw [add_infinite_right ρ ha.1]
    exact le_infinite ha.1.ne_nan
  rw [le_congr (place_of_keptBy hρ fa ha.2) (place_add hρ fa fb ha.2 hb.2)]
  exact hρ.mono va (le_add_of_nonneg_right vb)

theorem le_add_left (ha : a.IsAmount ρ) (hb : b.IsAmount ρ) : b.le (add ρ a b) = true := by
  rcases hb.1 with rfl | ⟨fb, vb⟩
  · rw [add_infinite_right ρ ha.1]
    rfl
  rcases ha.1 with rfl | ⟨fa, va⟩
  · rw [add_infinite_left ρ hb.1]
    exact le_infinite hb.1.ne_nan
  rw [le_congr (place_of_keptBy hρ fb hb.2) (place_add hρ fa fb ha.2 hb.2)]
  exact hρ.mono vb (le_add_of_nonneg_left va)

theorem le_foldl_add (xs : List Number) (hx : ∀ x ∈ xs, x.IsAmount ρ) :
    ∀ {a : Number}, a.IsAmount ρ → a.le (xs.foldl (add ρ) a) = true := by
  induction xs with
  | nil => exact fun ha => le_self ha.1.ne_nan
  | cons x rest ih =>
      intro a ha
      have hhead := hx x List.mem_cons_self
      exact Number.le_trans (le_add_right hρ ha hhead)
        (ih (fun y hy => hx y (List.mem_cons_of_mem _ hy)) (isAmount_add hρ ha hhead))

/-- A sum of amounts with a positive one among them is positive. -/
theorem sum_pos {xs : List Number} (hx : ∀ x ∈ xs, x.IsAmount ρ) {x : Number} (hmem : x ∈ xs)
    (hpos : Number.lt (.finite 0) x = true) : Number.lt (.finite 0) (sum ρ xs) = true := by
  obtain ⟨before, after, rfl⟩ := List.append_of_mem hmem
  have hzero := isAmount_zero hρ false
  have hhead := hx x hmem
  have hbefore : (before.foldl (add ρ) (.finite 0)).IsAmount ρ :=
    isAmount_foldl_add hρ before (fun y hy => hx y (List.mem_append_left _ hy)) hzero
  have hstep : x.le (add ρ (before.foldl (add ρ) (.finite 0)) x) = true :=
    le_add_left hρ hbefore hhead
  rw [sum, List.foldl_append, List.foldl_cons]
  exact Number.lt_of_lt_of_le hpos (Number.le_trans hstep
    (le_foldl_add hρ after (fun y hy => hx y (List.mem_append_right _ (List.mem_cons_of_mem _ hy)))
      (isAmount_add hρ hbefore hhead)))

end Amounts

/-! ## Moving into a range -/

theorem clamp_of_not_lt {high : ℚ} (hh : 0 < high) (h : a.lt (.finite high) = false) :
    a.clamp (.finite 0) (.finite high) = .finite high := by
  have hpos : Number.lt (.finite 0) (.finite high) = true := (lt_iff_value_lt rfl rfl).mpr hh
  simp [clamp, h, hpos]

theorem clamp_mono {high : ℚ} (hh : 0 < high) (h : a.le b = true) :
    (a.clamp (.finite 0) (.finite high)).le (b.clamp (.finite 0) (.finite high)) = true := by
  have ha := clamp_within hh.le a
  have hb := clamp_within hh.le b
  by_cases hlt : b.lt (.finite high) = true
  · have hlt' : a.lt (.finite high) = true := Number.lt_of_le_of_lt h hlt
    by_cases hpos : Number.lt (.finite 0) a = true
    · have hpos' : Number.lt (.finite 0) b = true := Number.lt_of_lt_of_le hpos h
      simpa [clamp, hlt, hlt', hpos, hpos'] using h
    · have hzero : a.clamp (.finite 0) (.finite high) = .finite 0 := by simp [clamp, hlt', hpos]
      rw [hzero]
      exact hb.le_and_le.1
  · have htop : b.clamp (.finite 0) (.finite high) = .finite high :=
      clamp_of_not_lt hh (by simpa using hlt)
    rw [htop]
    exact ha.le_and_le.2

/-- A quotient that is moved into a range grows with the dividend, even where it is not a number: an
infinite sum over an infinite one goes to the upper end of the range. -/
theorem clamp_div_mono (hρ : ρ.IsMonotone) {a a' b : Number} {high : ℚ} (hh : 0 < high)
    (ha : a.AtLeast 0) (ha' : a'.AtLeast 0) (h : a.le a' = true)
    (hb : Number.lt (.finite 0) b = true) :
    ((div ρ a b).clamp (.finite 0) (.finite high)).le
      ((div ρ a' b).clamp (.finite 0) (.finite high)) = true := by
  rcases ha' with rfl | ⟨fa', -⟩
  · -- an infinite dividend goes to the upper end, where nothing is above it
    have hnot : (div ρ (.infinite false) b).lt (.finite high) = false := by
      rcases b with y | _ | t | _
      · have hy : ¬y < 0 := ((lt_iff_value_lt rfl rfl).mp hb).not_gt
        simp [div, isNegative, hy, lt, place]
      · simp [lt, place] at hb
      · rfl
      · rfl
    rw [clamp_of_not_lt hh hnot]
    exact (clamp_within hh.le _).le_and_le.2
  have fa := ha.isFinite_of_le fa' h
  have hvalue := (le_iff_value_le fa fa').mp h
  have hnonneg : 0 ≤ a.value := (le_iff_value_le rfl fa).mp ha.zero_le
  rcases b with y | _ | (_ | _) | _
  · exact clamp_mono hh (div_mono hρ fa hnonneg fa' hvalue rfl ((lt_iff_value_lt rfl rfl).mp hb))
  · simp [lt, place] at hb
  · -- a finite dividend over an infinite divisor goes to the lower end
    have hzero : ∃ negative, div ρ a (.infinite false) = zero negative := by
      rcases finite_or_negZero fa with ⟨x, rfl⟩ | rfl
      · exact ⟨_, rfl⟩
      · exact ⟨_, rfl⟩
    obtain ⟨negative, hzero⟩ := hzero
    have hlow : (zero negative).clamp (.finite 0) (.finite high) = .finite 0 := by
      cases negative <;> simp [clamp, zero, lt, place, hh]
    rw [hzero, hlow]
    exact (clamp_within hh.le _).le_and_le.1
  · simp [lt, place] at hb
  · simp [lt, place] at hb

/-! ## Tenths -/

theorem tenths_mono (hx : 0 ≤ x) (h : x ≤ y) : tenths x ≤ tenths y := by
  refine roundQuotient_mono x.den_pos y.den_pos ?_
  rw [Nat.mul_assoc, Nat.mul_assoc]
  exact Nat.mul_le_mul_left 10 (Rounding.natAbs_mul_den_le hx h)

theorem roundTenth_eq_ratio (ρ : Rounding) (hx : 0 ≤ x) :
    (finite x).roundTenth ρ = ratio ρ (tenths x) 10 := by
  have hneg : ¬x < 0 := not_lt.mpr hx
  simp only [roundTenth, ratio, if_neg hneg, decide_eq_false hneg, zero, Int.natCast_eq_zero]
  rfl

section Tenths

variable (hρ : ρ.IsMonotone)
include hρ

theorem place_roundTenth (fa : a.isFinite = true) (ha : 0 ≤ a.value) :
    (a.roundTenth ρ).place = (ρ (tenths a.value / 10)).place := by
  rcases finite_or_negZero fa with ⟨x, rfl⟩ | rfl
  · rw [roundTenth_eq_ratio ρ (x := x) ha, ratio_eq hρ, Int.cast_natCast]
    rfl
  · have hzero : tenths negZero.value = 0 := by decide
    rw [hzero, Nat.cast_zero, zero_div, hρ.zero]
    rfl

theorem roundTenth_within (hk : k ≤ 2 ^ 53) (ha : a.Within 0 k) : (a.roundTenth ρ).Within 0 k := by
  obtain ⟨fa, a0, ak⟩ := ha
  have htenths : tenths a.value ≤ 10 * k := by
    have hinteger : tenths (k : ℚ) = 10 * k := by simp [tenths, roundQuotient, Nat.mod_one]
    exact hinteger ▸ tenths_mono a0 ak
  have hle : ((tenths a.value : ℕ) : ℚ) ≤ 10 * k := by exact_mod_cast htenths
  rw [within_congr (place_roundTenth hρ fa a0)]
  exact round_within hρ hk (by positivity) (by linarith)

theorem roundTenth_mono (fa : a.isFinite = true) (ha : 0 ≤ a.value) (fb : b.isFinite = true)
    (h : a.value ≤ b.value) : (a.roundTenth ρ).le (b.roundTenth ρ) = true := by
  rw [le_congr (place_roundTenth hρ fa ha) (place_roundTenth hρ fb (ha.trans h))]
  have htenths : ((tenths a.value : ℕ) : ℚ) ≤ tenths b.value := by exact_mod_cast tenths_mono ha h
  exact hρ.mono (by positivity) (div_le_div_of_nonneg_right htenths (by norm_num))

end Tenths

/-! ## Without rounding -/

theorem add_exact (x : ℚ) (fb : b.isFinite = true) :
    add .exact (.finite x) b = .finite (x + b.value) := by
  rcases finite_or_negZero fb with ⟨y, rfl⟩ | rfl
  · change (if x + y = 0 then finite 0 else finite (x + y)) = finite (x + y)
    split
    · rename_i hzero
      rw [hzero]
    · rfl
  · change finite x = finite (x + 0)
    rw [add_zero]

theorem foldl_add_exact {xs : List Number} (h : ∀ x ∈ xs, x.isFinite = true) (s : ℚ) :
    xs.foldl (add .exact) (.finite s) = .finite (s + (xs.map value).sum) := by
  induction xs generalizing s with
  | nil => simp
  | cons x rest ih =>
      rw [List.foldl_cons, add_exact s (h x List.mem_cons_self),
        ih (fun y hy => h y (List.mem_cons_of_mem _ hy)), List.map_cons, List.sum_cons, add_assoc]

theorem sum_exact {xs : List Number} (h : ∀ x ∈ xs, x.isFinite = true) :
    sum .exact xs = .finite (xs.map value).sum := by
  rw [sum, foldl_add_exact h, zero_add]

theorem value_of_place (h : a.place = (finite x).place) : a.isFinite = true ∧ a.value = x := by
  have hwithin : a.Within x x := (within_congr h).mpr (within_finite le_rfl le_rfl)
  exact ⟨hwithin.1, le_antisymm hwithin.2.2 hwithin.2.1⟩

theorem mul_exact (fa : a.isFinite = true) (fb : b.isFinite = true) :
    (mul .exact a b).isFinite = true ∧ (mul .exact a b).value = a.value * b.value :=
  value_of_place (place_mul Rounding.isMonotone_exact fa fb)

theorem div_exact (hx : 0 ≤ x) (hy : 0 < y) :
    div .exact (.finite x) (.finite y) = .finite (x / y) := by
  have hnegative : (decide (x < 0) != decide (y < 0)) = false := by
    rw [decide_eq_false (not_lt.mpr hx), decide_eq_false (not_lt.mpr hy.le)]
    rfl
  rw [div_of_isFinite .exact (a := .finite x) (b := .finite y) rfl rfl hy.ne']
  change (if x = 0 then zero (decide (x < 0) != decide (y < 0)) else finite (x / y)) =
    finite (x / y)
  split
  · rename_i hzero
    rw [hnegative, hzero, zero_div]
    rfl
  · rfl

theorem clamp_finite {x high : ℚ} (hx : 0 ≤ x) (h : x ≤ high) :
    (finite x).clamp (.finite 0) (.finite high) = .finite x := by
  have hlt : ∀ y z : ℚ, (finite y).lt (finite z) = decide (y < z) := by
    intro y z
    rw [Bool.eq_iff_iff, lt_iff_value_lt rfl rfl, decide_eq_true_eq]
    rfl
  rcases hx.lt_or_eq with hpos | rfl
  · rcases h.lt_or_eq with hhigh | rfl
    · simp [clamp, hlt, hpos, hhigh]
    · simp [clamp, hlt, hpos]
  · rcases h.lt_or_eq with hhigh | rfl
    · simp [clamp, hlt, hhigh]
    · simp [clamp, hlt]

theorem ratio_exact (n : Int) (d : ℕ) : ratio .exact n d = .finite (n / d) :=
  ratio_eq Rounding.isMonotone_exact n d

theorem roundTenth_exact (hx : 0 ≤ x) : (finite x).roundTenth .exact = .finite (tenths x / 10) := by
  rw [roundTenth_eq_ratio _ hx, ratio_exact, Int.cast_natCast]
  rfl

end Number

end Scorecard
