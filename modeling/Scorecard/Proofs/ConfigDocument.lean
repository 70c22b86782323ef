import Mathlib.Data.List.TakeWhile
import Scorecard.Proofs.ConfigSettings

set_option autoImplicit false

/-! # Configurations that are shown

A configuration is shown as a document with every setting in it: the defaults are written out, and
so are all ten weights. Such a document can be read again (`Config.ofFields_shownFields`). It gives
the configuration that was shown, except that the weights that were defaults have become settings.
Weights that resolve resolve to themselves, so nothing that depends on the configuration can tell
the two apart (`runWith_resolved`).
-/

namespace Scorecard

/-! ## Values that are shown -/

/-- What may be missing is shown as `null`, which is read as missing. -/
theorem optionally_orNull {α : Type} {Means : Value → α → Prop} {toValue : α → Value} {r : Option α}
    (h : ∀ a, r = some a → Means (toValue a) a) :
    Optionally Means (some (Value.orNull toValue r)) r := by
  cases r with
  | none => exact .null
  | some a => exact .set (h a rfl)

theorem isNumber_number {x : Number} (h : x.isFinite = true) : IsNumber (.number x) x := if_pos h

/-- A list is shown also if it is empty, so it is never missing. -/
theorem exists_isTexts (texts : List String) :
    ∃ r, Optionally IsTexts (some (.ofTexts texts)) r ∧ texts = r.getD [] :=
  ⟨some texts, .set rfl, rfl⟩

/-! ## Names

The names that are shown are in the form to which a name is brought before it is looked up. -/

theorem Text.map_eq_self {s : String} {f : Char → Char} (h : ∀ c ∈ s.toList, f c = c) :
    s.map f = s := by
  rw [← String.toList_inj, String.toList_map]
  exact (List.map_congr_left h).trans (List.map_id _)

/-- A text without white space has nothing to strip. -/
theorem Text.strip_eq_self {s : String} (h : ∀ c ∈ s.toList, isBlank c = false) : strip s = s := by
  have hdrop : ∀ cs : List Char, (∀ c ∈ cs, isBlank c = false) → cs.dropWhile isBlank = cs :=
    fun cs hcs =>
    List.dropWhile_eq_self_iff.mpr fun hl => by simp [hcs _ (List.getElem_mem hl)]
  rw [strip, dropEnd, hdrop _ h, hdrop _ fun c hc => h c (List.mem_reverse.mp hc),
    List.reverse_reverse, String.ofList_toList]

/-- A slug has no capitals, no hyphens and no white space. -/
theorem Category.slug_plain (c : Category) :
    ∀ x ∈ c.slug.toList, x.toLower = x ∧ x ≠ '-' ∧ Text.isBlank x = false := by
  have hall :
      (c.slug.toList.all fun x => x.toLower == x && x != '-' && !Text.isBlank x) = true := by
        cases c <;> decide
  simpa only [List.all_eq_true, Bool.and_eq_true, beq_iff_eq, bne_iff_ne, Bool.not_eq_true',
    and_assoc] using hall

theorem Category.ofSlug?_slug (c : Category) : Category.ofSlug? c.slug = some c := by
  cases c <;> rfl

/-- The slug of a category is one of the names that mean it. -/
theorem Category.named?_slug (c : Category) : Category.named? c.slug = some c := by
  have hplain := c.slug_plain
  have hhyphen : ∀ x ∈ c.slug.toList, (if x == '-' then '_' else x) = x :=
    fun x hx => if_neg (by simpa using (hplain x hx).2.1)
  rw [named?, Text.strip_eq_self fun x hx => (hplain x hx).2.2, Text.lower,
    Text.map_eq_self fun x hx => (hplain x hx).1, Text.map_eq_self hhyphen, c.ofSlug?_slug]

theorem Format.lower_name (f : Format) : Text.lower f.name = f.name := by
  have hplain : ∀ x ∈ f.name.toList, x.toLower = x := by cases f <;> simp [Format.name]
  exact Text.map_eq_self hplain

/-! ## Weights -/

theorem Weights.set_of_not_mem {ws : Weights} {c : Category} (h : c ∉ ws.map (·.1)) (w : Number) :
    ws.set c w = ws ++ [(c, w)] := by
  induction ws with
  | nil => rfl
  | cons entry rest ih =>
      obtain ⟨d, v⟩ := entry
      rw [List.map_cons, List.mem_cons, not_or] at h
      rw [Weights.set, if_neg (Ne.symm h.1), ih h.2, List.cons_append]

/-- Overrides of distinct categories are put in one behind the other. -/
theorem Weights.foldl_set (entries : Weights) :
    ∀ found : Weights, ((found ++ entries).map (·.1)).Nodup →
    entries.foldl (fun ws entry => Weights.set ws entry.1 entry.2) found = found ++ entries := by
  induction entries with
  | nil =>
      intro found _
      exact (List.append_nil found).symm
  | cons entry rest ih =>
      intro found hnodup
      obtain ⟨c, w⟩ := entry
      -- what has been put in so far does not have the next category
      have hnew : c ∉ found.map (·.1) := by
        rw [List.map_append, List.map_cons] at hnodup
        exact fun hc => (List.nodup_append.mp hnodup).2.2 c hc c List.mem_cons_self rfl
      calc ((c, w) :: rest).foldl (fun ws entry => Weights.set ws entry.1 entry.2) found
          = rest.foldl (fun ws entry => Weights.set ws entry.1 entry.2) (found ++ [(c, w)]) := by
            rw [List.foldl_cons, Weights.set_of_not_mem hnew]
        _ = found ++ [(c, w)] ++ rest := ih _ (by rwa [List.append_assoc])
        _ = found ++ (c, w) :: rest := List.append_assoc _ _ _

/-- Weights that are shown are read as these weights. -/
theorem Weights.exists_isOverrides {ws : Weights} (hnodup : (ws.map (·.1)).Nodup)
    (hfinite : ∀ p ∈ ws, p.2.isFinite = true) :
    ∃ overrides, IsOverrides (ws.map fun p => (p.1.slug, .number p.2)) overrides ∧
      ws = overrides.foldl (fun ws entry => Weights.set ws entry.1 entry.2) [] := by
  refine ⟨ws, ?_, (Weights.foldl_set ws [] hnodup).symm⟩
  rw [IsOverrides, List.forall₂_map_left_iff, List.forall₂_same]
  intro p hp
  exact ⟨p.1.named?_slug, isNumber_number (hfinite p hp)⟩

/-! ## Limits -/

/-- All limits are shown, so no default is left when they are read. -/
theorem Limits.exists_isLimits {l : Limits} (h : l.ArePositive) :
    ∃ entries, IsLimits (Limits.fields.map fun f => (f.name, .int (f.get l))) entries ∧
      l = entries.foldl (fun l entry => entry.1.set entry.2 l) {} := by
  refine ⟨Limits.fields.map fun f => (f, f.get l), ?_, by cases l; rfl⟩
  rw [IsLimits, List.forall₂_map_left_iff, List.forall₂_map_right_iff, List.forall₂_same]
  intro f hf
  exact ⟨hf, rfl, rfl, h f hf⟩

/-! ## Whole configurations -/

namespace Config

/-- The configuration with all its weights as settings. -/
def withWeights (c : Config) (ws : Weights) : Config := { c with weights := ws }

theorem toValue_eq_ok {ρ : Rounding} {c : Config} {ws : Weights}
    (h : Weights.resolve ρ c.weights = .ok ws) : c.toValue ρ = .ok (.table (c.shownFields ws)) := by
  rw [toValue, h]
  rfl

/-- The settings that are shown come to the configuration that is shown. -/
theorem setBy_shownFields {source : String} {c : Config} {ws : Weights} (hc : c.WithinBounds)
    (hsource : c.source = some source) (hnodup : (ws.map (·.1)).Nodup)
    (hfinite : ∀ p ∈ ws, p.2.isFinite = true) :
    (c.withWeights ws).SetBy source (c.shownFields ws) where
  tables := by
    simp only [tableNames, List.forall_mem_cons]
    exact ⟨Or.inr (Or.inr ⟨_, rfl⟩), Or.inr (Or.inr ⟨_, rfl⟩), Or.inr (Or.inr ⟨_, rfl⟩),
      Or.inr (Or.inr ⟨_, rfl⟩), Or.inr (Or.inr ⟨_, rfl⟩), List.forall_mem_nil _⟩
  format := Or.inr ⟨c.format.name, rfl, c.format.lower_name⟩
  failUnder := optionally_orNull fun x hx => isNumber_number (hc.failUnder x hx).1
  included := exists_isTexts c.included
  excluded := exists_isTexts c.excluded
  weights := Weights.exists_isOverrides hnodup hfinite
  enabled := optionally_orNull fun _ _ => rfl
  disabled := exists_isTexts c.disabled
  bounds := ⟨rfl, isNumber_number hc.bounds.isFinite.2, isNumber_number hc.bounds.isFinite.1⟩
  workers := optionally_orNull fun _ _ => rfl
  budget := optionally_orNull fun x hx => isNumber_number (hc.budget x hx).1
  limits := Limits.exists_isLimits hc.limits
  source := hsource

/-- **What is shown is read as what was shown.** -/
theorem ofFields_shownFields {source : String} {c : Config} {ws : Weights} (hc : c.WithinBounds)
    (hsource : c.source = some source) (h : Weights.resolve .nearest c.weights = .ok ws) :
    Config.ofFields .nearest source (c.shownFields ws) = .ok (c.withWeights ws) := by
  obtain ⟨hresolved, hagain⟩ := Weights.resolve_eq_ok h
  obtain ⟨hws, hsound, htotal⟩ := Weights.resolve_eq_ok_iff.mp hagain
  have hnodup : (ws.map (·.1)).Nodup := hresolved.categories_eq ▸ Category.all_nodup
  refine ofFields_eq_ok_iff.mpr ⟨setBy_shownFields hc hsource hnodup fun p hp =>
    (hsound p hp).1, ?_⟩
  -- the bounds of everything but the weights are those of `c`
  refine ⟨hc.failUnder, hsound, ?_, hc.bounds, hc.workers, hc.budget, hc.limits, hc.commitSubject⟩
  change ((Weights.withDefaults ws).total .nearest).isFinite = true ∧
    |((Weights.withDefaults ws).total .nearest).value - 1| ≤ 1 / 10 ^ 6
  rw [← hws]
  exact htotal

end Config

/-- A run resolves the weights, so it does not matter if they have been resolved before. -/
theorem runWith_resolved {c : Config} {ws : Weights}
    (h : Weights.resolve .nearest c.weights = .ok ws) (m : FactModel) (r : Registry) (wait : Wait) :
    runWith .nearest m (c.withWeights ws) r wait = runWith .nearest m c r wait := by
  have hagain : Weights.resolve .nearest (c.withWeights ws).weights = .ok ws :=
    (Weights.resolve_eq_ok h).2
  unfold runWith
  rw [h, hagain]
  rfl

theorem run_resolved {c : Config} {ws : Weights} (h : Weights.resolve .nearest c.weights = .ok ws)
    (m : FactModel) (wait : Wait) :
    run .nearest m (c.withWeights ws) wait = run .nearest m c wait := by
  have hlimits : (c.withWeights ws).limits = c.limits := rfl
  unfold run
  rw [hlimits]
  cases Registry.ofLimits .nearest c.limits with
  | ok r => exact runWith_resolved h m r wait
  | error e => rfl

/-- **A configuration that is shown can be read again.** From the document that shows a
configuration that was read, the same source gives the same configuration, except that all ten
weights are settings now. It is shown by the same document, and every run under it ends as a run
under the first one, with any registry of rules and with the built-in rules. -/
theorem shown_configuration_reads_back (source : String) (fields : Fields) (c : Config)
    (hread : Config.ofFields .nearest source fields = .ok c) :
    ∃ ws shown, Weights.resolve .nearest c.weights = .ok ws ∧ ws.map (·.1) = Category.all ∧
      c.toValue .nearest = .ok (.table shown) ∧
      Config.ofFields .nearest source shown = .ok { c with weights := ws } ∧
      Config.toValue .nearest { c with weights := ws } = .ok (.table shown) ∧
      (∀ m r wait, runWith .nearest m { c with weights := ws } r wait =
        runWith .nearest m c r wait) ∧
      ∀ m wait, run .nearest m { c with weights := ws } wait = run .nearest m c wait := by
  obtain ⟨hset, hin⟩ := Config.ofFields_eq_ok_iff.mp hread
  obtain ⟨ws, hws, hcategories, -⟩ := hin.resolve
  refine ⟨ws, c.shownFields ws, hws, hcategories, Config.toValue_eq_ok hws,
    Config.ofFields_shownFields hin hset.source hws, ?_, runWith_resolved hws, run_resolved hws⟩
  exact Config.toValue_eq_ok (c := c.withWeights ws) (Weights.resolve_eq_ok hws).2

/-- Settings in unusual forms: a format in capitals, an integer for a number, a category by another
name, a list that is `null` and one that is empty. -/
theorem shown_configuration_reads_back_unusual :
    let fields : Fields :=
      [("format", .text "JSON"), ("fail_under", .int 7),
       ("weights", .table [(" Version-Control", .int 0),
         ("testing", .number (.ofDecimal false 2 (-1)))]),
       ("rules", .table [("enable", .list []), ("disable", .null)]),
         ("limits", .table [("max_arguments", .int 8)])]
    let c : Config :=
      { format := .json, failUnder := some (.finite 7)
        weights := [(.versionControl, .finite 0), (.testing, .ofDecimal false 2 (-1))]
        enabled := some [], limits := { arguments := 8 }, source := some "scorecard.toml" }
    Config.ofFields .nearest "scorecard.toml" fields = .ok c ∧
      ∃ ws shown, Weights.resolve .nearest c.weights = .ok ws ∧ ws ≠ c.weights ∧
        c.toValue .nearest = .ok (.table shown) ∧
        Config.ofFields .nearest "scorecard.toml" shown = .ok { c with weights := ws } := by
  intro fields c
  have hread : Config.ofFields .nearest "scorecard.toml" fields = .ok c := by decide +kernel
  obtain ⟨ws, shown, hws, hcategories, hshown, hagain, -⟩ :=
    shown_configuration_reads_back "scorecard.toml" fields c hread
  refine ⟨hread, ws, shown, hws, ?_, hshown, hagain⟩
  intro hsame
  rw [hsame] at hcategories
  exact absurd hcategories (by decide)

end Scorecard
