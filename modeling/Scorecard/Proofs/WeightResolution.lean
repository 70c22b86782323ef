import Scorecard.Proofs.Except
import Scorecard.Proofs.Outcome

set_option autoImplicit false

/-! # Overrides in any order

Overrides are a finite map from categories to numbers, given as entries with distinct categories.
The entries are looked at and put in place one after the other, and the first one that is wrong is
told. Their order decides only which of several wrong ones this is (`isTrueOf_perm`): whether
weights resolve, and to what, is a matter of the map (`resolve_perm_eq_ok_iff`). A run resolves the
weights before the rules and once more for the report. The second time they are the map that the
first time gave, so it cannot fail (`runWith_weights`).
-/

namespace Scorecard

/-- A number within one millionth of one. -/
def Number.IsNearOne (x : Number) : Prop := x.isFinite = true ∧ |x.value - 1| ≤ 1 / 10 ^ 6

namespace Weights

variable {overrides overrides' ws : Weights} {e : WeightError}

/-- The weight of a category under a map of overrides: its own, or else the default. -/
def under (overrides : Weights) (c : Category) : Number := (overrides.lookup c).getD defaultWeight

/-- The sum of the ten weights under a map of overrides, in the order of the categories. -/
def totalUnder (overrides : Weights) : Number :=
  Number.sum .nearest (Category.all.map (under overrides))

/-! ## What resolving gives -/

theorem total_withDefaults (h : (overrides.map (·.1)).Nodup) :
    (withDefaults overrides).total .nearest = totalUnder overrides := by
  calc (withDefaults overrides).total .nearest
      = total .nearest (Category.all.map fun c => (c, under overrides c)) := by
        rw [withDefaults_of_nodup h]; rfl
    _ = totalUnder overrides := by rw [total, List.map_map]; rfl

/-- **When a map of overrides resolves.** -/
theorem exists_resolve_iff (h : (overrides.map (·.1)).Nodup) :
    (∃ ws, resolve .nearest overrides = .ok ws) ↔
      (∀ p ∈ overrides, p.2.isFinite = true ∧ 0 ≤ p.2.value) ∧
        (totalUnder overrides).IsNearOne := by
  constructor
  · rintro ⟨ws, hws⟩
    obtain ⟨rfl, hsound, htotal⟩ := resolve_eq_ok_iff.mp hws
    rw [total_withDefaults h] at htotal
    exact ⟨hsound, htotal⟩
  · rintro ⟨hsound, htotal⟩
    refine ⟨withDefaults overrides, resolve_eq_ok_iff.mpr ⟨rfl, hsound, ?_⟩⟩
    rw [total_withDefaults h]
    exact htotal

/-- Entries in another order are put into the same table. -/
theorem withDefaults_perm (h : (overrides.map (·.1)).Nodup) (hperm : overrides.Perm overrides') :
    withDefaults overrides' = withDefaults overrides := by
  have h' : (overrides'.map (·.1)).Nodup := (hperm.map _).nodup_iff.mp h
  rw [withDefaults_of_nodup h, withDefaults_of_nodup h']
  apply List.map_congr_left
  intro c _
  rw [lookup_perm h hperm c]

/-- **The order of the overrides makes no difference to the weights.** -/
theorem resolve_perm_eq_ok_iff (h : (overrides.map (·.1)).Nodup)
    (hperm : overrides.Perm overrides') :
    resolve .nearest overrides' = .ok ws ↔ resolve .nearest overrides = .ok ws := by
  have hsound :
      (∀ p ∈ overrides', p.2.isFinite = true ∧ 0 ≤ p.2.value) ↔
        ∀ p ∈ overrides, p.2.isFinite = true ∧ 0 ≤ p.2.value :=
    forall_congr' fun p => by rw [hperm.mem_iff]
  rw [resolve_eq_ok_iff, resolve_eq_ok_iff, withDefaults_perm h hperm, hsound]

/-! ## What is told -/

/-- What an error says holds of the map: the weight that it names is an override and is wrong, or
all overrides are in order and the sum that it names is not near one. -/
def IsTrueOf (overrides : Weights) : WeightError → Prop
  | .notFinite c w => (c, w) ∈ overrides ∧ w.isFinite = false
  | .negative c w => (c, w) ∈ overrides ∧ w.isFinite = true ∧ w.value < 0
  | .badSum sum ws => (∀ p ∈ overrides, p.2.isFinite = true ∧ 0 ≤ p.2.value) ∧
      ws = Category.all.map (fun c => (c, under overrides c)) ∧ sum = totalUnder overrides ∧
        ¬sum.IsNearOne

/-- The first wrong override is told. -/
theorem isTrueOf_overrideError? (h : overrideError? overrides = some e) : IsTrueOf overrides e := by
  induction overrides with
  | nil => cases h
  | cons entry rest ih =>
      obtain ⟨c, w⟩ := entry
      rw [overrideError?] at h
      by_cases hfinite : w.isFinite = true
      · by_cases hneg : w.lt (.finite 0) = true
        · simp only [hfinite, hneg, Bool.not_true, Bool.false_eq_true, if_false, if_true,
            Option.some.injEq] at h
          subst h
          exact ⟨List.mem_cons_self, hfinite, (Number.lt_iff_value_lt hfinite rfl).mp hneg⟩
        · simp only [hfinite, hneg, Bool.not_true, Bool.false_eq_true, if_false] at h
          cases e with
          | notFinite c' w' => exact ⟨List.mem_cons_of_mem _ (ih h).1, (ih h).2⟩
          | negative c' w' => exact ⟨List.mem_cons_of_mem _ (ih h).1, (ih h).2⟩
          | badSum sum ws =>
              -- this is not told of an override
              have hright : overrideError? rest = none :=
                (overrideError?_eq_none_iff rest).mpr fun p hp => sound_iff.mpr ((ih h).1 p hp)
              rw [hright] at h
              cases h
      · simp only [hfinite, Bool.not_false, if_true, Option.some.injEq] at h
        subst h
        exact ⟨List.mem_cons_self, Bool.eq_false_iff.mpr hfinite⟩

/-- What is told is true. -/
theorem isTrueOf_of_resolve (h : (overrides.map (·.1)).Nodup)
    (herror : resolve .nearest overrides = .error e) : IsTrueOf overrides e := by
  unfold resolve at herror
  split at herror
  · rename_i e' hwrong
    cases herror
    exact isTrueOf_overrideError? hwrong
  · rename_i hright
    have hsound := (overrideError?_eq_none_iff overrides).mp hright
    dsimp only at herror
    split at herror
    · rename_i hfar
      cases herror
      refine ⟨fun p hp => sound_iff.mp (hsound p hp), withDefaults_of_nodup h, total_withDefaults h,
        fun hnear => ?_⟩
      rw [(near_one_iff (sound_withDefaults hsound)).mpr hnear] at hfar
      cases hfar
    · cases herror

/-- What is told does not depend on the order to be true. -/
theorem isTrueOf_perm (h : (overrides.map (·.1)).Nodup) (hperm : overrides.Perm overrides')
    (htrue : IsTrueOf overrides' e) : IsTrueOf overrides e := by
  have hunder : under overrides' = under overrides :=
    funext fun c => by rw [under, under, lookup_perm h hperm c]
  cases e with
  | notFinite c w => exact ⟨hperm.mem_iff.mpr htrue.1, htrue.2⟩
  | negative c w => exact ⟨hperm.mem_iff.mpr htrue.1, htrue.2⟩
  | badSum sum ws =>
      rw [IsTrueOf, totalUnder, hunder] at htrue
      exact ⟨fun p hp => htrue.1 p (hperm.mem_iff.mp hp), htrue.2⟩

end Weights

/-! ## The second time -/

section Run

variable {ρ : Rounding} {weights ws : Weights}

/-- Weights that resolve are not what a report fails for. -/
theorem aggregate_ne_weights (h : Weights.resolve ρ weights = .ok ws) (scores : List CategoryScore)
    (bounds : ReportBounds) (e : WeightError) :
    aggregate ρ scores weights bounds ≠ .error (.weights e) := by
  intro herror
  unfold aggregate at herror
  split at herror
  · cases herror
  dsimp only at herror
  split at herror
  · cases herror
  rw [h] at herror
  unfold reportOf at herror
  dsimp only at herror
  split at herror
  · cases herror
  split at herror
  · cases herror
  split at herror
  · cases herror
  · cases herror

/-- A failure of a run that has to do with the weights, the first or the second time. -/
def RunError.IsAboutWeights (e : RunError) : Prop := ∃ w, e = .weights w ∨ e = .report (.weights w)

/-- The rules run with weights that are resolved, and do not fail for them. -/
theorem not_isAboutWeights_of_runRules (h : Weights.resolve ρ weights = .ok ws) {m : FactModel}
    {c : Config} {r : Registry} {active : List String} {e : RunError}
    (herror : runRules ρ m c r weights active = .error e) : ¬e.IsAboutWeights := by
  rintro ⟨w, hw⟩
  unfold runRules at herror
  split at herror
  · cases herror
    rcases hw with hw | hw <;> cases hw
  · cases herror
    rcases hw with hw | hw <;> cases hw
  · cases herror
    rcases hw with hw | hw <;> cases hw
  · obtain ⟨e', he', rfl⟩ := mapError_eq_error_iff.mp herror
    rcases hw with hw | hw
    · cases hw
    · cases hw
      exact aggregate_ne_weights h _ _ w he'

/-- **A run fails for the weights only at first**, before any rule runs. -/
theorem runWith_weights (m : FactModel) (c : Config) (r : Registry) (wait : Wait)
    (e : WeightError) :
    (runWith ρ m c r wait = .error (.weights e) ↔ Weights.resolve ρ c.weights = .error e) ∧
      runWith ρ m c r wait ≠ .error (.report (.weights e)) := by
  cases hresolve : Weights.resolve ρ c.weights with
  | error e' =>
      have hrun : runWith ρ m c r wait = .error (.weights e') := by rw [runWith, hresolve]
      rw [hrun]
      refine ⟨⟨?_, ?_⟩, ?_⟩
      · intro heq
        cases heq
        rfl
      · intro heq
        cases heq
        rfl
      · intro heq
        cases heq
  | ok ws =>
      have hnot : ∀ x, runWith ρ m c r wait = .error x → ¬x.IsAboutWeights := by
        rintro x herror ⟨w, hw⟩
        unfold runWith at herror
        rw [hresolve] at herror
        dsimp only at herror
        split at herror
        · cases herror
          rcases hw with hw | hw <;> cases hw
        · split at herror
          · rename_i hwait
            cases herror
            rcases Wait.error?_eq_some hwait with ⟨b, left, rfl⟩ | ⟨-, -, rfl⟩
            · rcases hw with hw | hw <;> cases hw
            · rcases hw with hw | hw <;> cases hw
          · -- the rules are given weights that have been resolved before
            exact not_isAboutWeights_of_runRules (Weights.resolve_resolve hresolve) herror ⟨w, hw⟩
      refine ⟨⟨fun herror => absurd ⟨e, Or.inl rfl⟩ (hnot _ herror), fun heq => ?_⟩,
        fun herror => hnot _ herror ⟨e, Or.inr rfl⟩⟩
      cases heq

end Run

/-! ## Resolution -/

/-- **Category weights resolve in any order, and once for all.** A map of overrides resolves if and
only if all of them are finite and not negative and the ten weights add up to one. The result has
the ten categories in their order, each with its override or the default, and it resolves to itself,
so that no report fails for it. Another order of the overrides gives the same result, and what is
told of overrides that do not resolve is true of the map. A run can fail for the weights only where
it resolves them first. -/
theorem weights_resolve_in_any_order (overrides : Weights) (hmap : (overrides.map (·.1)).Nodup) :
    ((∃ ws, Weights.resolve .nearest overrides = .ok ws) ↔
      (∀ p ∈ overrides, p.2.isFinite = true ∧ 0 ≤ p.2.value) ∧
        (Weights.totalUnder overrides).IsNearOne) ∧
    (∀ ws, Weights.resolve .nearest overrides = .ok ws →
      ws = Category.all.map (fun c => (c, Weights.under overrides c)) ∧
        Weights.resolve .nearest ws = .ok ws ∧
        ∀ scores bounds e, aggregate .nearest scores ws bounds ≠ .error (.weights e)) ∧
    (∀ overrides', overrides.Perm overrides' →
      (∀ ws, Weights.resolve .nearest overrides' = .ok ws ↔
        Weights.resolve .nearest overrides = .ok ws) ∧
        ∀ e, Weights.resolve .nearest overrides' = .error e → Weights.IsTrueOf overrides e) ∧
    ∀ m c r wait e, c.weights = overrides →
      (runWith .nearest m c r wait = .error (.weights e) ↔
        Weights.resolve .nearest overrides = .error e) ∧
        runWith .nearest m c r wait ≠ .error (.report (.weights e)) := by
  refine ⟨Weights.exists_resolve_iff hmap, fun ws hws => ?_,
    fun overrides' hperm => ⟨fun ws => ?_, fun e he => ?_⟩, ?_⟩
  · have hself := Weights.resolve_resolve hws
    obtain ⟨rfl, -⟩ := Weights.resolve_eq_ok_iff_sound.mp hws
    exact ⟨Weights.withDefaults_of_nodup hmap, hself, aggregate_ne_weights hself⟩
  · exact Weights.resolve_perm_eq_ok_iff hmap hperm
  · have hmap' : (overrides'.map (·.1)).Nodup := (hperm.map _).nodup_iff.mp hmap
    exact Weights.isTrueOf_perm hmap hperm (Weights.isTrueOf_of_resolve hmap' he)
  · rintro m c r wait e rfl
    exact runWith_weights m c r wait e

/-- A negative zero counts as a weight of zero. Two overrides with it resolve in either order, and
with an infinity in it the map does not. -/
theorem weights_resolve_in_any_order_swapped :
    let overrides : Weights := [(.naming, .negZero), (.layout, .ofDecimal false 2 (-1))]
    let wrong : Weights := [(.naming, .negZero), (.layout, .infinite false)]
    (overrides.map (·.1)).Nodup ∧ (wrong.map (·.1)).Nodup ∧
      Weights.resolve .nearest overrides.reverse =
        .ok (Category.all.map fun c => (c, Weights.under overrides c)) ∧
      ∀ ws, Weights.resolve .nearest wrong ≠ .ok ws := by
  intro overrides wrong
  have hmap : (overrides.map (·.1)).Nodup := by decide
  have hwrong : (wrong.map (·.1)).Nodup := by decide
  obtain ⟨-, hresult, horder, -⟩ := weights_resolve_in_any_order overrides hmap
  obtain ⟨hresolves, -⟩ := weights_resolve_in_any_order wrong hwrong
  have hws : Weights.resolve .nearest overrides = .ok (Weights.withDefaults overrides) := by
    decide +kernel
  refine ⟨hmap, hwrong, ?_, fun ws heq => ?_⟩
  · rw [← (hresult _ hws).1]
    exact ((horder _ (List.reverse_perm overrides).symm).1 _).mpr hws
  · obtain ⟨hsound, -⟩ := hresolves.mp ⟨ws, heq⟩
    cases (hsound (.layout, .infinite false) (List.mem_cons_of_mem _ List.mem_cons_self)).1

end Scorecard
