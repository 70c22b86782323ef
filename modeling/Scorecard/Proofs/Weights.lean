import Scorecard.Proofs.Monotone
import Scorecard.Proofs.Registry
import Scorecard.Score.Weights

set_option autoImplicit false

/-! # Category weights that resolve

The weights of the categories are resolved twice in a run, before the rules and when the report is
made. The overrides are put into the table of the defaults one after the other, which leaves each
category with its last override (`withDefaults_eq_map`). Weights that resolve resolve to themselves
(`resolve_resolve`), and they are small, with a sum near one (`Resolved`), which keeps the overall
score in range.
-/

namespace Scorecard

variable {ρ : Rounding} {overrides ws : Weights}

namespace Weights

/-- A weight that is not refused. -/
def Sound (w : Number) : Prop := w.isFinite = true ∧ w.lt (.finite 0) = false

theorem Sound.atLeast {w : Number} (h : Sound w) : w.AtLeast 0 := by
  refine Or.inr ⟨h.1, not_lt.mp fun hneg => ?_⟩
  have hlt : w.lt (.finite 0) = true := (Number.lt_iff_value_lt h.1 rfl).mpr hneg
  rw [h.2] at hlt
  cases hlt

theorem sound_iff {w : Number} : Sound w ↔ w.isFinite = true ∧ 0 ≤ w.value := by
  unfold Sound
  refine and_congr_right fun hfinite => ?_
  rw [← not_lt, ← Bool.not_eq_true, Number.lt_iff_value_lt hfinite rfl]
  rfl

theorem overrideError?_eq_none_iff (ws : Weights) :
    overrideError? ws = none ↔ ∀ p ∈ ws, Sound p.2 := by
  induction ws with
  | nil => simp [overrideError?]
  | cons entry rest ih =>
      obtain ⟨c, w⟩ := entry
      rw [overrideError?]
      by_cases hfinite : w.isFinite = true
      · by_cases hneg : w.lt (.finite 0) = true
        · simp [hfinite, hneg, Sound]
        · simp [hfinite, hneg, Sound, ih]
      · simp [hfinite, Sound]

theorem sound_defaultWeight : Sound defaultWeight := by
  unfold Sound
  decide +kernel

theorem lookup_map_self (f : Category → Number) {cs : List Category} {c : Category} (hc : c ∈ cs) :
    (cs.map fun d => (d, f d)).lookup c = some (f c) := by
  induction cs with
  | nil => cases hc
  | cons d rest ih =>
      by_cases hd : c = d
      · simp [hd]
      · have hne : (c == d) = false := by simpa using hd
        simp only [List.map_cons, List.lookup_cons, hne]
        exact ih ((List.mem_cons.mp hc).resolve_left hd)

/-! ## Overrides in place -/

/-- In the table of a function, to set a weight is to change the function at one category. -/
theorem set_map (f : Category → Number) {cs : List Category} (hcs : cs.Nodup) {c : Category}
    (hc : c ∈ cs) (w : Number) :
    set (cs.map fun d => (d, f d)) c w = cs.map fun d => (d, if d = c then w else f d) := by
  induction cs with
  | nil => cases hc
  | cons d rest ih =>
      obtain ⟨hd, hrest⟩ := List.nodup_cons.mp hcs
      rw [List.map_cons, List.map_cons, set]
      by_cases hdc : d = c
      · -- no later category is this one, so the rest stays as it is
        rw [if_pos hdc, if_pos hdc]
        refine congrArg _ (List.map_congr_left fun e he => ?_)
        rw [if_neg fun hec : e = c => hd (hdc ▸ hec ▸ he)]
      · rw [if_neg hdc, if_neg hdc,
          ih hrest ((List.mem_cons.mp hc).resolve_left fun e => hdc e.symm)]

/-- **Each category has its last override**, or else the default. -/
theorem withDefaults_eq_map (overrides : Weights) :
    withDefaults overrides = Category.all.map fun c =>
      (c, (overrides.reverse.lookup c).getD defaultWeight) := by
  induction overrides using List.reverseRecOn with
  | nil => rfl
  | append_singleton before entry ih =>
      obtain ⟨c, w⟩ := entry
      have hstep : withDefaults (before ++ [(c, w)]) = (withDefaults before).set c w := by
        rw [withDefaults, List.foldl_append]
        rfl
      rw [hstep, ih, set_map _ Category.all_nodup (Category.mem_all c)]
      refine List.map_congr_left fun d _ => ?_
      rw [List.reverse_append, List.reverse_singleton, List.singleton_append, List.lookup_cons]
      by_cases hd : d = c
      · simp [hd]
      · have hne : (d == c) = false := by simpa using hd
        rw [if_neg hd, hne]

/-- With one override for a category, its place among the others makes no difference. -/
theorem withDefaults_of_nodup (h : (overrides.map (·.1)).Nodup) :
    withDefaults overrides = Category.all.map fun c =>
      (c, (overrides.lookup c).getD defaultWeight) := by
  rw [withDefaults_eq_map]
  refine List.map_congr_left fun c _ => ?_
  rw [lookup_perm h (List.reverse_perm overrides).symm]

theorem withDefaults_categories (overrides : Weights) :
    (withDefaults overrides).map (·.1) = Category.all := by
  rw [withDefaults_eq_map, List.map_map]
  exact List.map_id _

theorem sound_withDefaults (h : ∀ p ∈ overrides, Sound p.2) :
    ∀ p ∈ withDefaults overrides, Sound p.2 := by
  rw [withDefaults_eq_map]
  refine List.forall_mem_map.mpr fun c _ => ?_
  cases hlookup : overrides.reverse.lookup c with
  | none => exact sound_defaultWeight
  | some w => exact h (c, w) (List.mem_reverse.mp (mem_of_lookup_eq_some hlookup))

/-- All ten weights are there, so no default is used any more. -/
theorem withDefaults_withDefaults (overrides : Weights) :
    withDefaults (withDefaults overrides) = withDefaults overrides := by
  have hnodup : ((withDefaults overrides).map (·.1)).Nodup :=
    withDefaults_categories overrides ▸ Category.all_nodup
  rw [withDefaults_of_nodup hnodup, withDefaults_eq_map overrides]
  refine List.map_congr_left fun c hc => ?_
  rw [lookup_map_self _ hc]
  rfl

/-- What is known of weights that resolve. -/
structure Resolved (ρ : Rounding) (ws : Weights) : Prop where
  categories_eq : ws.map (·.1) = Category.all
  within : ∀ p ∈ ws, p.2.Within 0 2
  total_within : (ws.total ρ).Within (1 / 2) (3 / 2)

/-- Without overrides all weights are the default. -/
theorem resolve_nil : resolve .nearest [] = .ok (withDefaults []) := by decide +kernel

/-- Resolving puts the overrides in place if they are sound and the sum is tolerated. -/
theorem resolve_eq_ok_iff_sound :
    resolve ρ overrides = .ok ws ↔ ws = withDefaults overrides ∧ (∀ p ∈ overrides, Sound p.2) ∧
      Number.lt categoryWeightTolerance (Number.sub ρ (ws.total ρ) (.finite 1)).abs = false := by
  rw [← overrideError?_eq_none_iff]
  unfold resolve
  cases overrideError? overrides with
  | some e => simp
  | none =>
      by_cases htotal : Number.lt categoryWeightTolerance
          (Number.sub ρ ((withDefaults overrides).total ρ) (.finite 1)).abs = true
      · simp only [htotal, if_true, true_and]
        constructor
        · intro h
          cases h
        · rintro ⟨rfl, hsmall⟩
          rw [htotal] at hsmall
          cases hsmall
      · simp only [htotal, true_and]
        constructor
        · intro h
          cases h
          exact ⟨rfl, by simpa using htotal⟩
        · rintro ⟨rfl, -⟩
          rfl

/-- Weights that resolve resolve to themselves. -/
theorem resolve_resolve (h : resolve ρ overrides = .ok ws) : resolve ρ ws = .ok ws := by
  obtain ⟨rfl, hsound, htotal⟩ := resolve_eq_ok_iff_sound.mp h
  exact resolve_eq_ok_iff_sound.mpr ⟨(withDefaults_withDefaults overrides).symm,
    sound_withDefaults hsound, htotal⟩

theorem tolerance_within : categoryWeightTolerance.Within 0 (1 / 4) := by
  unfold Number.Within
  decide +kernel

/-- The tolerance lies between the same two integers, in units of the 53rd binary place, as one
millionth. -/
theorem tolerance_units : categoryWeightTolerance.isFinite = true ∧ 9007199254 * 2 ^
    (-53 : Int) ≤ categoryWeightTolerance.value ∧
    categoryWeightTolerance.value < 9007199255 * 2 ^ (-53 : Int) := by
  decide +kernel

/-- **What it means to add up to one**: the sum is within one millionth of one. Neither the
subtraction nor the tolerance is off by a rounding. -/
theorem near_one_iff (hws : ∀ p ∈ ws, Sound p.2) :
    Number.lt categoryWeightTolerance (Number.sub .nearest (ws.total .nearest) (.finite 1)).abs =
      false ↔
      (ws.total .nearest).isFinite = true ∧ |(ws.total .nearest).value - 1| ≤ 1 / 10 ^ 6 := by
  have hnonneg : ∀ w ∈ ws.map (·.2), w.AtLeast 0 := by
    intro w hw
    obtain ⟨p, hp, rfl⟩ := List.mem_map.mp hw
    exact (hws p hp).atLeast
  obtain ⟨htol, htolLow, htolHigh⟩ := tolerance_units
  have hunit : (0 : ℚ) < 2 ^ (-53 : Int) := two_zpow_pos _
  -- near one, both sides compare the same integer
  have hnear : ∀ x : ℚ, Rounding.OnGrid x → 1 / 2 ≤ x → x ≤ 3 / 2 →
      (Number.lt categoryWeightTolerance (Number.sub .nearest (.finite x) (.finite 1)).abs = false ↔
        |x - 1| ≤ 1 / 10 ^ 6) := by
    intro x hgrid hlow hhigh
    obtain ⟨k, hk⟩ := Number.exists_abs_sub_one hgrid hlow
    rw [Number.sub_one_of_onGrid hgrid hlow hhigh, ← Bool.not_eq_true,
      Number.lt_iff_value_lt htol Number.value_abs.2, Number.value_abs.1, not_lt, hk]
    have hmillionth : 9007199254 * 2 ^ (-53 : Int) ≤ (1 / 10 ^ 6 : ℚ) ∧
        (1 / 10 ^ 6 : ℚ) < 9007199255 * 2 ^ (-53 : Int) := by
      norm_num
    have hunits : ∀ y : ℚ, 9007199254 * 2 ^ (-53 : Int) ≤ y → y < 9007199255 * 2 ^ (-53 : Int) →
        (k * 2 ^ (-53 : Int) ≤ y ↔ k ≤ 9007199254) := by
      intro y hy hy'
      constructor
      · intro hle
        have hlt : (k : ℚ) < 9007199255 := lt_of_mul_lt_mul_right (hle.trans_lt hy') hunit.le
        exact Nat.lt_succ_iff.mp (by exact_mod_cast hlt)
      · intro hle
        have hle' : (k : ℚ) ≤ 9007199254 := by exact_mod_cast hle
        exact (mul_le_mul_of_nonneg_right hle' hunit.le).trans hy
    rw [hunits _ htolLow htolHigh, hunits _ hmillionth.1 hmillionth.2]
  constructor
  · intro htotal
    have hwithin : (ws.total .nearest).Within (1 / 2) (3 / 2) :=
      Number.within_of_near_one tolerance_within (Number.sum_atLeast_zero hnonneg).ne_nan htotal
    refine ⟨hwithin.1, ?_⟩
    rcases Number.sum_isRoundedSum hnonneg with hinf | ⟨x, hx, -, hgrid⟩
    · rw [total, hinf] at hwithin
      cases hwithin.1
    · rw [total, hx] at htotal hwithin ⊢
      exact (hnear x hgrid hwithin.2.1 hwithin.2.2).mp htotal
  · rintro ⟨hfinite, hle⟩
    rcases Number.sum_isRoundedSum hnonneg with hinf | ⟨x, hx, -, hgrid⟩
    · rw [total, hinf] at hfinite
      cases hfinite
    · rw [total, hx] at hle ⊢
      obtain ⟨hlow, hhigh⟩ := abs_le.mp hle
      change -(1 / 10 ^ 6) ≤ x - 1 at hlow
      change x - 1 ≤ 1 / 10 ^ 6 at hhigh
      exact (hnear x hgrid (by linarith) (by linarith)).mpr hle

/-- Sound weights with a sum near one are small: a weight above two would be in the sum. -/
theorem resolved_of_total (hsound : ∀ p ∈ overrides, Sound p.2)
    (htotal : Number.lt categoryWeightTolerance
      (Number.sub .nearest ((withDefaults overrides).total .nearest) (.finite 1)).abs = false) :
    (withDefaults overrides).Resolved .nearest := by
  have hall := sound_withDefaults hsound
  have hnonneg : ∀ w ∈ (withDefaults overrides).map (·.2), w.AtLeast 0 := by
    intro w hw
    obtain ⟨p, hp, rfl⟩ := List.mem_map.mp hw
    exact (hall p hp).atLeast
  have hwithin : ((withDefaults overrides).total .nearest).Within (1 / 2) (3 / 2) :=
    Number.within_of_near_one tolerance_within (Number.sum_atLeast_zero hnonneg).ne_nan htotal
  refine ⟨withDefaults_categories overrides, fun p hp => ?_, hwithin⟩
  obtain ⟨hfinite, hnn⟩ := sound_iff.mp (hall p hp)
  refine ⟨hfinite, hnn, ?_⟩
  by_contra hlarge
  -- two is on the grid, so rounding does not take a larger sum below it
  have hgrid : Rounding.OnGrid 2 := by simpa using Rounding.onGrid_natCast (k := 2) (by norm_num)
  have hsum : ((withDefaults overrides).total .nearest).AtLeast 2 :=
    Number.sum_atLeast hgrid (by norm_num) hnonneg (List.mem_map.mpr ⟨p, hp, rfl⟩)
      (Or.inr ⟨hfinite, (not_le.mp hlarge).le⟩)
  rcases hsum with hinf | ⟨-, hge⟩
  · rw [hinf] at hwithin
    cases hwithin.1
  · have hle := hwithin.2.2
    linarith

/-- **When weights resolve**: the overrides are finite and not negative, and with the defaults they
add up to one. -/
theorem resolve_eq_ok_iff :
    resolve .nearest overrides = .ok ws ↔
      ws = withDefaults overrides ∧ (∀ p ∈ overrides, p.2.isFinite = true ∧ 0 ≤ p.2.value) ∧
        (ws.total .nearest).isFinite = true ∧ |(ws.total .nearest).value - 1| ≤ 1 / 10 ^ 6 := by
  rw [resolve_eq_ok_iff_sound]
  simp only [← sound_iff]
  refine and_congr_right fun hws => and_congr_right fun hsound => ?_
  exact near_one_iff (hws ▸ sound_withDefaults hsound)

/-- Resolving gives the ten weights, and these resolve to themselves. -/
theorem resolve_eq_ok (h : resolve .nearest overrides = .ok ws) :
    ws.Resolved .nearest ∧ resolve .nearest ws = .ok ws := by
  obtain ⟨hws, hsound, htotal⟩ := resolve_eq_ok_iff_sound.mp h
  refine ⟨?_, resolve_resolve h⟩
  rw [hws] at htotal ⊢
  exact resolved_of_total hsound htotal

theorem Resolved.weightOf_within (h : ws.Resolved ρ) (c : Category) :
    (ws.weightOf c).Within 0 2 := by
  unfold weightOf
  cases hlookup : ws.lookup c with
  | none => exact Number.within_finite (le_refl _) (by norm_num)
  | some w =>
      obtain ⟨before, later, heq, -⟩ := List.lookup_eq_some_iff.mp hlookup
      refine h.within (c, w) ?_
      rw [heq]
      exact List.mem_append_right _ List.mem_cons_self

/-! ## Without rounding -/

theorem total_exact (h : ∀ p ∈ ws, Sound p.2) :
    ws.total .exact = .finite (ws.map fun p => p.2.value).sum := by
  have hfinite : ∀ w ∈ ws.map (·.2), w.isFinite = true := by
    intro w hw
    obtain ⟨p, hp, rfl⟩ := List.mem_map.mp hw
    exact (h p hp).1
  rw [total, Number.sum_exact hfinite, List.map_map]
  rfl

/-- Without rounding, too, weights that resolve are small and have a sum near one. -/
theorem resolved_exact (h : resolve .exact overrides = .ok ws) : ws.Resolved .exact := by
  obtain ⟨rfl, hsound, htotal⟩ := resolve_eq_ok_iff_sound.mp h
  have hall := sound_withDefaults hsound
  have hsum := total_exact hall
  set x := ((withDefaults overrides).map fun p => p.2.value).sum
  have hnear : |x - 1| ≤ 1 / 4 := by
    have hsub : Number.sub .exact (.finite x) (.finite 1) = .finite (x - 1) := by
      rw [Number.sub, Number.neg_finite_one, Number.add_exact x rfl, sub_eq_add_neg]
      rfl
    rw [hsum, hsub, ← Bool.not_eq_true,
      Number.lt_iff_value_lt tolerance_within.1 Number.value_abs.2, not_lt,
      Number.value_abs.1] at htotal
    exact htotal.trans tolerance_within.2.2
  obtain ⟨hlow, hhigh⟩ := abs_le.mp hnear
  refine ⟨withDefaults_categories overrides, fun p hp => ?_, ?_⟩
  · obtain ⟨hfinite, hnonneg⟩ := sound_iff.mp (hall p hp)
    -- no weight is negative, so each is at most their sum
    have hle : p.2.value ≤ x := by
      refine List.single_le_sum ?_ _ (List.mem_map.mpr ⟨p, hp, rfl⟩)
      intro y hy
      obtain ⟨q, hq, rfl⟩ := List.mem_map.mp hy
      exact (sound_iff.mp (hall q hq)).2
    exact ⟨hfinite, hnonneg, by linarith⟩
  · rw [hsum]
    exact Number.within_finite (by linarith) (by linarith)

end Weights

end Scorecard
