import Scorecard.Proofs.Rounding

set_option autoImplicit false

/-! # Bounds through arithmetic

What is known of a number while scores are computed: that it is finite and lies between two small
integers (`Number.Within`), or that it is at least some value, possibly infinite (`Number.AtLeast`).
Sums, products and quotients carry both along, since rounding does not cross the bounds.
`Number.IsDouble` says that a value is one that double precision has at all.
-/

namespace Scorecard

variable {a b : Number} {x : ℚ}

namespace Number

/-! ## Order -/

/-- What a finite number is: a rational, or the zero with a sign. -/
theorem finite_or_negZero (h : a.isFinite = true) : (∃ x, a = .finite x) ∨ a = .negZero := by
  cases a with
  | finite x => exact Or.inl ⟨x, rfl⟩
  | negZero => exact Or.inr rfl
  | infinite s => cases h
  | nan => cases h

theorem place_of_isFinite (h : a.isFinite = true) : a.place = some (0, a.value) := by
  rcases finite_or_negZero h with ⟨x, rfl⟩ | rfl
  · rfl
  · rfl

theorem lt_iff_value_lt (ha : a.isFinite = true) (hb : b.isFinite = true) :
    a.lt b = true ↔ a.value < b.value := by
  simp [lt, place_of_isFinite ha, place_of_isFinite hb]

theorem le_iff_value_le (ha : a.isFinite = true) (hb : b.isFinite = true) :
    a.le b = true ↔ a.value ≤ b.value := by
  simp [le, place_of_isFinite ha, place_of_isFinite hb]

/-- Two numbers that are comparable at all are in one order or the other. -/
theorem le_of_not_lt (ha : a ≠ .nan) (hb : b ≠ .nan) (h : b.lt a = false) : a.le b = true := by
  obtain ⟨p, hp⟩ : ∃ p, a.place = some p := by
    rcases a with x | _ | (_ | _) | _ <;> simp_all [place]
  obtain ⟨q, hq⟩ : ∃ q, b.place = some q := by
    rcases b with x | _ | (_ | _) | _ <;> simp_all [place]
  obtain ⟨i, x⟩ := p
  obtain ⟨j, y⟩ := q
  simp only [lt, hp, hq, Bool.or_eq_false_iff, Bool.and_eq_false_iff, decide_eq_false_iff_not] at h
  simp only [le, hp, hq, Bool.or_eq_true, Bool.and_eq_true, decide_eq_true_eq]
  rcases lt_trichotomy i j with hij | hij | hij
  · exact Or.inl hij
  · refine Or.inr ⟨hij, not_lt.mp ?_⟩
    rcases h.2 with h' | h'
    · exact absurd hij.symm h'
    · exact h'
  · exact absurd hij h.1

/-! ## Between bounds -/

/-- Finite and between two bounds. -/
def Within (low high : ℚ) (a : Number) : Prop := a.isFinite = true ∧ low ≤ a.value ∧ a.value ≤ high

theorem within_finite {low high x : ℚ} (hl : low ≤ x) (hh : x ≤ high) :
    Within low high (.finite x) := ⟨rfl, hl, hh⟩

/-- A number between bounds compares with them as it should. -/
theorem Within.le_and_le {low high : ℚ} (h : a.Within low high) :
    Number.le (.finite low) a = true ∧ a.le (.finite high) = true :=
  ⟨(le_iff_value_le rfl h.1).mpr h.2.1, (le_iff_value_le h.1 rfl).mpr h.2.2⟩

theorem nearest_within {k : ℕ} (hk : k ≤ 2 ^ 53) (h0 : 0 ≤ x) (h : x ≤ k) :
    (Rounding.nearest x).Within 0 k := by
  rcases h0.lt_or_eq with hx | rfl
  · have hlimit : (k : ℚ) < Rounding.limit := by
      exact_mod_cast hk.trans_lt Rounding.two_pow_53_lt_limit
    obtain ⟨y, hy, hy0, hyk⟩ :=
      Rounding.nearest_le_of_le_grid hx (Rounding.onGrid_natCast hk) hlimit h
    rw [hy]
    exact within_finite hy0 hyk
  · exact within_finite (le_refl _) h

/-- Products of finite numbers round the product of their values. -/
theorem mul_of_isFinite (ρ : Rounding) (ha : a.isFinite = true) (hb : b.isFinite = true) :
    mul ρ a b = if a.value * b.value = 0 then zero (a.isNegative != b.isNegative) else ρ
      (a.value * b.value) := by
  rcases finite_or_negZero ha with ⟨x, rfl⟩ | rfl
  · rcases finite_or_negZero hb with ⟨y, rfl⟩ | rfl
    · rfl
    · rfl
  · rcases finite_or_negZero hb with ⟨y, rfl⟩ | rfl
    · rfl
    · rfl

/-- Quotients of finite numbers by a number that is not zero round the quotient of their values. -/
theorem div_of_isFinite (ρ : Rounding) (ha : a.isFinite = true) (hb : b.isFinite = true)
    (h : b.value ≠ 0) :
    div ρ a b = if a.value = 0 then zero (a.isNegative != b.isNegative) else ρ
      (a.value / b.value) := by
  -- the signed zero has the value zero, so one formula covers all four pairs of finite numbers
  have hdef : div ρ a b = if b.value = 0 then
      if a.value = 0 then .nan else .infinite (a.isNegative != b.isNegative)
    else if a.value = 0 then .zero (a.isNegative != b.isNegative) else ρ (a.value / b.value) := by
    rcases finite_or_negZero ha with ⟨x, rfl⟩ | rfl
    · rcases finite_or_negZero hb with ⟨y, rfl⟩ | rfl
      · rfl
      · rfl
    · rcases finite_or_negZero hb with ⟨y, rfl⟩ | rfl
      · rfl
      · rfl
  rw [hdef, if_neg h]

/-- Whatever a number is, `clamp` gives one between the bounds. -/
theorem clamp_within {high : ℚ} (hh : 0 ≤ high) (a : Number) :
    (a.clamp (.finite 0) (.finite high)).Within 0 high := by
  have hupper : Within 0 high (.finite high) := within_finite hh (le_refl _)
  have hlower : Within 0 high (.finite 0) := within_finite (le_refl _) hh
  by_cases hlt : a.lt (.finite high) = true
  · by_cases hpos : Number.lt (.finite 0) a = true
    · -- a number strictly between two finite ones is finite
      have hfin : a.isFinite = true := by
        rcases a with x | _ | (_ | _) | _ <;> simp_all [lt, place, isFinite]
      have heq : a.clamp (.finite 0) (.finite high) = a := by simp [clamp, hlt, hpos]
      rw [heq]
      exact ⟨hfin, ((lt_iff_value_lt rfl hfin).mp hpos).le, ((lt_iff_value_lt hfin rfl).mp hlt).le⟩
    · have heq : a.clamp (.finite 0) (.finite high) = .finite 0 := by simp [clamp, hlt, hpos]
      rw [heq]
      exact hlower
  · have heq : a.clamp (.finite 0) (.finite high) =
        if Number.lt (.finite 0) (.finite high) = true then .finite high else .finite 0 := by
          simp [clamp, hlt]
    rw [heq]
    split
    · exact hupper
    · exact hlower

/-! ## At least a bound -/

/-- Infinite, or finite and not below a bound. -/
def AtLeast (low : ℚ) (a : Number) : Prop :=
  a = .infinite false ∨ (a.isFinite = true ∧ low ≤ a.value)

theorem AtLeast.ne_nan {low : ℚ} (h : a.AtLeast low) : a ≠ .nan := by
  rcases h with rfl | ⟨hf, -⟩
  · simp
  · rintro rfl
    cases hf

/-- A finite number below a bound is less than what is at least the bound. -/
theorem AtLeast.lt {low : ℚ} (hb : b.AtLeast low) (ha : a.isFinite = true) (hlt : a.value < low) :
    a.lt b = true := by
  rcases hb with rfl | ⟨hf, hv⟩
  · have hplace : (infinite false).place = some (1, 0) := rfl
    simp [Number.lt, place_of_isFinite ha, hplace]
  · exact (lt_iff_value_lt ha hf).mpr (hlt.trans_le hv)

theorem nearest_atLeast {x g : ℚ} (hgrid : Rounding.OnGrid g) (hg : 0 ≤ g) (h : g ≤ x) :
    (Rounding.nearest x).AtLeast g := by
  rcases (hg.trans h).lt_or_eq with hx | rfl
  · rcases Rounding.grid_le_nearest hx hgrid h with hinf | ⟨y, hy, hgy⟩
    · exact Or.inl hinf
    · rw [hy]
      exact Or.inr ⟨rfl, hgy⟩
  · exact Or.inr ⟨rfl, h⟩

/-- An infinite summand makes the sum infinite. -/
theorem add_infinite_left (ρ : Rounding) {low : ℚ} (hb : b.AtLeast low) :
    add ρ (.infinite false) b = .infinite false := by
  rcases hb with rfl | ⟨hfinite, -⟩
  · rfl
  · rcases finite_or_negZero hfinite with ⟨y, rfl⟩ | rfl
    · rfl
    · rfl

theorem add_infinite_right (ρ : Rounding) {low : ℚ} (ha : a.AtLeast low) :
    add ρ a (.infinite false) = .infinite false := by
  rcases ha with rfl | ⟨hfinite, -⟩
  · rfl
  · rcases finite_or_negZero hfinite with ⟨x, rfl⟩ | rfl
    · rfl
    · rfl

theorem add_atLeast {g h : ℚ} (hgrid : Rounding.OnGrid (g + h)) (hg : 0 ≤ g) (hh : 0 ≤ h)
    (ha : a.AtLeast g) (hb : b.AtLeast h) : (add .nearest a b).AtLeast (g + h) := by
  rcases ha with rfl | ⟨fa, va⟩
  · exact Or.inl (add_infinite_left _ hb)
  · rcases hb with rfl | ⟨fb, vb⟩
    · exact Or.inl (add_infinite_right _ (Or.inr ⟨fa, va⟩))
    · rcases finite_or_negZero fa with ⟨x, rfl⟩ | rfl
      · rcases finite_or_negZero fb with ⟨y, rfl⟩ | rfl
        · have va : g ≤ x := va
          have vb : h ≤ y := vb
          change (if x + y = 0 then Number.finite 0 else Rounding.nearest (x + y)).AtLeast (g + h)
          split
          · rename_i hzero
            exact Or.inr ⟨rfl, hzero ▸ add_le_add va vb⟩
          · exact nearest_atLeast hgrid (add_nonneg hg hh) (add_le_add va vb)
        · have va : g ≤ x := va
          have vb : h ≤ 0 := vb
          exact Or.inr ⟨rfl, show g + h ≤ x by linarith⟩
      · have va : g ≤ 0 := va
        have hadd : add .nearest .negZero b = b := by
          rcases finite_or_negZero fb with ⟨y, rfl⟩ | rfl
          · rfl
          · rfl
        rw [hadd]
        exact Or.inr ⟨fb, by linarith⟩

/-- Adding numbers that are not negative keeps a lower bound. -/
theorem foldl_add_atLeast {g : ℚ} (hgrid : Rounding.OnGrid g) (hg : 0 ≤ g) (xs : List Number)
    (hx : ∀ x ∈ xs, x.AtLeast 0) : ∀ {a : Number}, a.AtLeast g →
    (xs.foldl (add .nearest) a).AtLeast g := by
  induction xs with
  | nil =>
      intro a ha
      exact ha
  | cons x rest ih =>
      intro a ha
      refine ih (fun y hy => hx y (List.mem_cons_of_mem _ hy)) ?_
      have hstep :=
        add_atLeast (by rw [add_zero]; exact hgrid) hg (le_refl 0) ha (hx x List.mem_cons_self)
      rw [add_zero] at hstep
      exact hstep

/-- A sum of numbers that are not negative is at least each of them. -/
theorem sum_atLeast {g : ℚ} (hgrid : Rounding.OnGrid g) (hg : 0 ≤ g) {xs : List Number}
    (hx : ∀ x ∈ xs, x.AtLeast 0) {x : Number} (hmem : x ∈ xs) (hxg : x.AtLeast g) :
    (sum .nearest xs).AtLeast g := by
  obtain ⟨before, after, rfl⟩ := List.append_of_mem hmem
  have hbefore : (before.foldl (add .nearest) (.finite 0)).AtLeast 0 :=
    foldl_add_atLeast Rounding.onGrid_zero (le_refl 0) before
      (fun y hy => hx y (List.mem_append_left _ hy))
      (Or.inr ⟨rfl, le_refl _⟩)
  have hstep := add_atLeast (by rw [zero_add]; exact hgrid) (le_refl 0) hg hbefore hxg
  rw [zero_add] at hstep
  rw [sum, List.foldl_append, List.foldl_cons]
  exact foldl_add_atLeast hgrid hg after
    (fun y hy => hx y (List.mem_append_right _ (List.mem_cons_of_mem _ hy))) hstep

theorem sum_atLeast_zero {xs : List Number} (hx : ∀ x ∈ xs, x.AtLeast 0) :
    (sum .nearest xs).AtLeast 0 :=
  foldl_add_atLeast Rounding.onGrid_zero (le_refl 0) xs hx (Or.inr ⟨rfl, le_refl _⟩)

/-- A finite summand does not make a sum undefined. -/
theorem add_ne_nan (ha : a ≠ .nan) (hb : b.isFinite = true) : add .nearest a b ≠ .nan := by
  rcases finite_or_negZero hb with ⟨y, rfl⟩ | rfl
  · rcases a with x | _ | s | _
    · change (if x + y = 0 then Number.finite 0 else Rounding.nearest (x + y)) ≠ .nan
      split
      · simp
      · exact Rounding.nearest_ne_nan _
    · simp [add]
    · simp [add]
    · exact absurd rfl ha
  · rcases a with x | _ | s | _
    · simp [add]
    · simp [add]
    · simp [add]
    · exact absurd rfl ha

theorem abs_ne_nan (h : a ≠ .nan) : a.abs ≠ .nan := by
  rcases a with x | _ | s | _
  · simp only [abs, neg]
    split
    · split <;> simp
    · simp
  · simp [abs, neg, isNegative]
  · simp only [abs, neg]
    split <;> simp
  · exact absurd rfl h

/-! ## Doubles -/

/-- A number that double precision has: rounding keeps its value. -/
def IsDouble : Number → Prop
  | finite x => Rounding.nearest x = .finite x
  | _ => True

instance (a : Number) : Decidable a.IsDouble := by
  unfold IsDouble
  split <;> infer_instance

/-! ## Near one -/

theorem neg_finite_one : neg (.finite 1) = .finite (-1) := by
  rw [neg, if_neg one_ne_zero]

theorem nearest_neg (hx : 0 < x) : Rounding.nearest (-x) = (Rounding.nearest x).neg := by
  have hn : x.num.natAbs ≠ 0 := (Int.natAbs_pos.mpr (Rat.num_pos.mpr hx).ne').ne'
  have hneg : ¬x < 0 := not_lt.mpr hx.le
  have hnum : (-x).num.natAbs = x.num.natAbs := by rw [Rat.num_neg_eq_neg_num, Int.natAbs_neg]
  have hden : (-x).den = x.den := Rat.den_neg_eq_den x
  have hlt : -x < 0 := neg_neg_of_pos hx
  simp only [Rounding.nearest, hnum, hden, hn, if_false, decide_eq_true hlt, decide_eq_false hneg]
  split
  · rfl
  · rename_i hm
    split
    · rfl
    · simpa [neg] using hm

/-- Away from zero, the size of the rounded value keeps a lower bound. -/
theorem abs_nearest_atLeast {x g : ℚ} (hgrid : Rounding.OnGrid g) (hg : 0 < g) (h : g ≤ |x|) :
    (Rounding.nearest x).abs.AtLeast g := by
  -- a lower bound above zero rules out that the rounded value is a zero with a sign
  have hpositive : ∀ {y : ℚ}, g ≤ y → (Rounding.nearest y).isNegative = false := by
    intro y hy
    rcases nearest_atLeast hgrid hg.le hy with hinf | ⟨hf, hv⟩
    · rw [hinf]
      rfl
    · cases hz : Rounding.nearest y with
      | finite z =>
          rw [hz] at hv
          have hv : g ≤ z := hv
          exact decide_eq_false (not_lt.mpr (hg.le.trans hv))
      | negZero =>
          rw [hz] at hv
          exact absurd hv (not_le.mpr hg)
      | infinite s => rw [hz] at hf; cases hf
      | nan => rfl
  rcases le_or_gt 0 x with hx | hx
  · rw [abs_of_nonneg hx] at h
    simpa [Number.abs, hpositive h] using nearest_atLeast hgrid hg.le h
  · rw [abs_of_neg hx] at h
    have hneg : Rounding.nearest x = (Rounding.nearest (-x)).neg := by
      have := nearest_neg (x := -x) (by linarith)
      rwa [neg_neg] at this
    rcases nearest_atLeast hgrid hg.le h with hinf | ⟨hf, hv⟩
    · rw [hneg, hinf]
      exact Or.inl rfl
    · cases hz : Rounding.nearest (-x) with
      | finite z =>
          rw [hz] at hv
          have hv : g ≤ z := hv
          have hz0 : 0 < z := hg.trans_le hv
          have hlt : -z < 0 := by linarith
          rw [hneg, hz]
          refine Or.inr ?_
          simp [Number.abs, neg, hz0.ne', isNegative, hlt, isFinite, value, hv]
      | negZero =>
          rw [hz] at hv
          exact absurd hv (not_le.mpr hg)
      | infinite s => rw [hz] at hf; cases hf
      | nan => rw [hz] at hf; cases hf

/-- A number that differs from one by little is finite and near one. -/
theorem within_of_near_one {tolerance t : Number} (htol : tolerance.Within 0 (1 / 4))
    (ht : t ≠ .nan) (h : tolerance.lt (sub .nearest t (.finite 1)).abs = false) :
    t.Within (1 / 2) (3 / 2) := by
  have hgrid : Rounding.OnGrid (1 / 2) := ⟨1, -1, by norm_num, by norm_num, by norm_num⟩
  -- a difference of one half or more is not tolerated
  have hsmall : ¬(sub .nearest t (.finite 1)).abs.AtLeast (1 / 2) := by
    intro hge
    have hlt := hge.lt htol.1 (lt_of_le_of_lt htol.2.2 (by norm_num))
    rw [h] at hlt
    cases hlt
  cases t with
  | finite x =>
      have hsub : sub .nearest (.finite x) (.finite 1) =
          if x + -1 = 0 then .finite 0 else Rounding.nearest (x + -1) := by
        rw [sub, neg_finite_one]
        rfl
      rw [hsub] at hsmall
      by_contra hout
      have hfar : 1 / 2 ≤ |x + -1| := by
        by_contra hnear
        obtain ⟨h1, h2⟩ := abs_lt.mp (not_le.mp hnear)
        exact hout ⟨rfl, show 1 / 2 ≤ x by linarith, show x ≤ 3 / 2 by linarith⟩
      have hne : x + -1 ≠ 0 := by
        intro hzero
        rw [hzero, abs_zero] at hfar
        norm_num at hfar
      rw [if_neg hne] at hsmall
      exact hsmall (abs_nearest_atLeast hgrid (by norm_num) hfar)
  | negZero =>
      exfalso
      apply hsmall
      have hsub : (sub .nearest .negZero (.finite 1)).abs = .finite 1 := by decide +kernel
      rw [hsub]
      exact Or.inr ⟨rfl, by norm_num [value]⟩
  | infinite s =>
      exfalso
      apply hsmall
      have hsub : (sub .nearest (.infinite s) (.finite 1)).abs = .infinite false := by
        rw [sub, neg_finite_one]
        cases s <;> rfl
      exact Or.inl hsub
  | nan => exact absurd rfl ht

/-- **A number near one differs from one exactly**: the difference is not rounded. -/
theorem sub_one_of_onGrid (hgrid : Rounding.OnGrid x) (hlow : 1 / 2 ≤ x) (hhigh : x ≤ 3 / 2) :
    sub .nearest (.finite x) (.finite 1) = .finite (x - 1) := by
  obtain ⟨n, hn⟩ := hgrid.exists_nat hlow
  have hsub : sub .nearest (.finite x) (.finite 1) = if x + -1 = 0 then .finite 0
      else Rounding.nearest (x + -1) := by
    rw [sub, neg_finite_one]
    rfl
  rw [hsub, sub_eq_add_neg]
  have hunit : (0 : ℚ) < 2 ^ (-53 : Int) := two_zpow_pos _
  have hscale : (2 ^ 53 : ℚ) * 2 ^ (-53 : Int) = 1 := by norm_num
  -- the grid around zero has every integer of these units
  have hrounds : ∀ k : ℕ, 0 < k → k ≤ 2 ^ 53 →
      Rounding.nearest (k * 2 ^ (-53 : Int)) = .finite (k * 2 ^ (-53 : Int)) := by
    intro k hk hle
    refine Rounding.nearest_of_onGrid (mul_pos (by exact_mod_cast hk) hunit)
      (Rounding.onGrid_unit hle) ?_
    have hle' : (k : ℚ) ≤ 2 ^ 53 := by exact_mod_cast hle
    calc (k : ℚ) * 2 ^ (-53 : Int) ≤ 2 ^ 53 * 2 ^ (-53 : Int) :=
           mul_le_mul_of_nonneg_right hle' hunit.le
      _ = 1 := hscale
      _ < Rounding.limit := by exact_mod_cast lt_trans (by norm_num) Rounding.two_pow_53_lt_limit
  rcases lt_trichotomy x 1 with hx | rfl | hx
  · have hlt : n < 2 ^ 53 := by
      rw [hn, ← hscale] at hx
      exact_mod_cast lt_of_mul_lt_mul_right hx hunit.le
    have hdiff : x + -1 = -(((2 ^ 53 - n : ℕ) : ℚ) * 2 ^ (-53 : Int)) := by
      rw [Nat.cast_sub hlt.le, Nat.cast_pow, Nat.cast_ofNat, sub_mul, hscale, ← hn]
      ring
    have hpos : 0 < ((2 ^ 53 - n : ℕ) : ℚ) * 2 ^ (-53 : Int) :=
      mul_pos (by exact_mod_cast Nat.sub_pos_of_lt hlt) hunit
    rw [if_neg (by linarith), hdiff, nearest_neg hpos,
      hrounds _ (Nat.sub_pos_of_lt hlt) (Nat.sub_le _ _), neg, if_neg hpos.ne']
  · rw [if_pos (by norm_num), add_neg_cancel]
  · have hlt : 2 ^ 53 < n := by
      rw [hn, ← hscale] at hx
      exact_mod_cast lt_of_mul_lt_mul_right hx hunit.le
    have hdiff : x + -1 = ((n - 2 ^ 53 : ℕ) : ℚ) * 2 ^ (-53 : Int) := by
      rw [Nat.cast_sub hlt.le, Nat.cast_pow, Nat.cast_ofNat, sub_mul, hscale, ← hn]
      ring
    have hle : n - 2 ^ 53 ≤ 2 ^ 53 := by
      have : (n : ℚ) * 2 ^ (-53 : Int) ≤ (2 * 2 ^ 53) * 2 ^ (-53 : Int) := by
        rw [← hn, mul_assoc, hscale]
        linarith
      have : (n : ℚ) ≤ 2 * 2 ^ 53 := le_of_mul_le_mul_right this hunit
      have : n ≤ 2 * 2 ^ 53 := by exact_mod_cast this
      omega
    rw [if_neg (by linarith), hdiff, hrounds _ (Nat.sub_pos_of_lt hlt) hle]

/-- The distance of such a number from one is an integer in units of the 53rd binary place. -/
theorem exists_abs_sub_one (hgrid : Rounding.OnGrid x) (hlow : 1 / 2 ≤ x) :
    ∃ k : ℕ, |x - 1| = k * 2 ^ (-53 : Int) := by
  obtain ⟨n, hn⟩ := hgrid.exists_nat hlow
  have hscale : (2 ^ 53 : ℚ) * 2 ^ (-53 : Int) = 1 := by norm_num
  refine ⟨((n : Int) - 2 ^ 53).natAbs, ?_⟩
  rw [Nat.cast_natAbs, Int.cast_abs, ← abs_of_pos (two_zpow_pos (-53)), ← abs_mul, hn]
  rw [Int.cast_sub, Int.cast_natCast, Int.cast_pow, Int.cast_ofNat, sub_mul, hscale]

theorem value_abs : (Number.finite x).abs.value = |x| ∧
    (Number.finite x).abs.isFinite = true := by
  rcases lt_or_ge x 0 with hx | hx
  · simp [Number.abs, isNegative, hx, neg, hx.ne, value, isFinite, abs_of_neg hx]
  · simp [Number.abs, isNegative, not_lt.mpr hx, value, isFinite, abs_of_nonneg hx]

/-! ## Sums on the grid -/

/-- A number that comes out of a sum of numbers that are not negative: it is infinite, or rounding
keeps it. -/
def IsRoundedSum (a : Number) : Prop :=
  a = .infinite false ∨ ∃ x, a = .finite x ∧ 0 ≤ x ∧ Rounding.OnGrid x

theorem add_isRoundedSum (ha : a.IsRoundedSum) (hb : b.AtLeast 0) :
    (add .nearest a b).IsRoundedSum := by
  rcases ha with rfl | ⟨x, rfl, hx, hgrid⟩
  · exact Or.inl (add_infinite_left _ hb)
  · rcases hb with rfl | ⟨hfinite, hy⟩
    · exact Or.inl rfl
    · rcases finite_or_negZero hfinite with ⟨y, rfl⟩ | rfl
      · change 0 ≤ y at hy
        have hadd : add .nearest (.finite x) (.finite y) = if x + y = 0 then .finite 0
            else Rounding.nearest (x + y) := rfl
        rw [hadd]
        split
        · exact Or.inr ⟨0, rfl, le_rfl, 0, 0, by norm_num, by norm_num, by norm_num⟩
        · rename_i hne
          have hpos : 0 < x + y := lt_of_le_of_ne (add_nonneg hx hy) (Ne.symm hne)
          -- the sum overflows, or it is rounded to the grid
          obtain ⟨m, -, -, hround⟩ := Rounding.nearest_of_pos hpos
          split at hround
          · exact Or.inl hround
          · exact Or.inr ⟨_, hround, mul_nonneg (Nat.cast_nonneg m) (two_zpow_pos _).le,
              Rounding.onGrid_of_nearest hpos hround⟩
      · exact Or.inr ⟨x, rfl, hx, hgrid⟩

theorem foldl_add_isRoundedSum (xs : List Number) (hx : ∀ x ∈ xs, x.AtLeast 0) :
    ∀ a : Number, a.IsRoundedSum → (xs.foldl (add .nearest) a).IsRoundedSum := by
  induction xs with
  | nil => exact fun a ha => ha
  | cons y rest ih =>
      intro a ha
      exact ih (fun x h => hx x (List.mem_cons_of_mem _ h))
        _ (add_isRoundedSum ha (hx y List.mem_cons_self))

theorem sum_isRoundedSum {xs : List Number} (hx : ∀ x ∈ xs, x.AtLeast 0) :
    (sum .nearest xs).IsRoundedSum :=
  foldl_add_isRoundedSum xs hx _ (Or.inr ⟨0, rfl, le_rfl, 0,
    0, by norm_num, by norm_num, by norm_num⟩)

end Number

end Scorecard
