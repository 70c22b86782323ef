import Scorecard.Proofs.BuiltIn
import Scorecard.Report.Run

set_option autoImplicit false

/-! # The order of registration

What a registry holds is determined by the rules it accepted, in any arithmetic (`holds_afterAll`).
A list of rules is registered and the registry frozen exactly if the list is `Registrable`, which
looks at each category by itself. So only the order within a category matters: lists with the same
rules in each category, in the same order, are accepted or refused together, and no reader of the
registries can tell them apart (`registration_order_irrelevant`).
-/

namespace Scorecard

variable {ρ : Rounding} {rs : List Rule}

namespace Registry

/-! ## What a registry holds -/

/-- The tables of a registry that has accepted the rules `rs`, in this order. -/
structure Holds (r : Registry) (rs : List Rule) : Prop where
  byId_eq : r.byId = rs.map fun rule => (rule.id, rule)
  ids_nodup : (rs.map (·.id)).Nodup
  categories_nodup : (r.byCategory.map (·.1)).Nodup
  /-- A category has an entry once it has a rule. -/
  lookup_eq : ∀ c, r.byCategory.lookup c =
    if rs.filter (·.category = c) = [] then none else some (rs.filter (·.category = c))

theorem holds_empty : empty.Holds [] where
  byId_eq := rfl
  ids_nodup := List.nodup_nil
  categories_nodup := List.nodup_nil
  lookup_eq := by intro c; rfl

namespace Holds

variable {r : Registry}

theorem rulesFor_eq (h : r.Holds rs) (c : Category) :
    r.rulesFor c = rs.filter (·.category = c) := by
  rw [rulesFor, h.lookup_eq]
  by_cases hempty : rs.filter (·.category = c) = []
  · rw [if_pos hempty, hempty]
    rfl
  · rw [if_neg hempty]
    rfl

theorem keys_eq (h : r.Holds rs) : r.byId.map (·.1) = rs.map (·.id) := by
  rw [h.byId_eq, List.map_map]
  rfl

theorem get?_eq_some_iff (h : r.Holds rs) {id : String} {rule : Rule} :
    r.get? id = some rule ↔ rule ∈ rs ∧ rule.id = id := by
  constructor
  · intro hget
    have hmem := mem_of_lookup_eq_some hget
    rw [h.byId_eq] at hmem
    obtain ⟨other, hother, heq⟩ := List.mem_map.mp hmem
    injection heq with hid hrule
    rw [← hrule]
    exact ⟨hother, hid⟩
  · rintro ⟨hmem, rfl⟩
    have hentry : (rule.id, rule) ∈ r.byId := by
      rw [h.byId_eq]
      exact List.mem_map.mpr ⟨rule, hmem, rfl⟩
    have hnodup : (r.byId.map (·.1)).Nodup := h.keys_eq ▸ h.ids_nodup
    exact lookup_eq_some_of_mem hnodup hentry

theorem contains_eq_false_iff (h : r.Holds rs) {id : String} :
    r.contains id = false ↔ ∀ rule ∈ rs, rule.id ≠ id := by
  rw [contains, Option.isSome_eq_false_iff, Option.isNone_iff_eq_none,
    Option.eq_none_iff_forall_ne_some]
  constructor
  · intro hnone rule hrule hid
    exact hnone rule (h.get?_eq_some_iff.mpr ⟨hrule, hid⟩)
  · intro hne rule hget
    obtain ⟨hrule, hid⟩ := h.get?_eq_some_iff.mp hget
    exact hne rule hrule hid

/-- An accepted rule goes to the end of both tables. -/
theorem added (h : r.Holds rs) {rule : Rule} (haccepts : Accepts ρ r rule) :
    (r.added rule).Holds (rs ++ [rule]) := by
  have hbyId : (r.added rule).byId = (rs ++ [rule]).map fun rule => (rule.id, rule) := by
    rw [rules_added haccepts.fresh, h.byId_eq, List.map_append]
    rfl
  have hnodup : ((rs ++ [rule]).map (·.id)).Nodup := by
    rw [List.map_append, List.nodup_append]
    refine ⟨h.ids_nodup, List.nodup_singleton _, ?_⟩
    intro id hid id' hid'
    obtain ⟨other, hother, rfl⟩ := List.mem_map.mp hid
    have hsame : id' = rule.id := by simpa using hid'
    rw [hsame]
    exact h.contains_eq_false_iff.mp haccepts.fresh other hother
  refine ⟨hbyId, hnodup, nodup_keys_alterEntry h.categories_nodup, ?_⟩
  intro c
  rw [lookup_byCategory_added]
  by_cases hc : c = rule.category
  · subst hc
    rw [if_pos rfl, h.rulesFor_eq rule.category, List.filter_append]
    simp
  · have hc' : ¬rule.category = c := fun e => hc e.symm
    rw [if_neg hc, h.lookup_eq, List.filter_append]
    simp [hc']

theorem frozen (h : r.Holds rs) : Holds { r with frozen := true } rs :=
  ⟨h.byId_eq, h.ids_nodup, h.categories_nodup, h.lookup_eq⟩

theorem after (h : r.Holds rs) (ρ : Rounding) (call : Call) :
    (r.after ρ call).Holds (rs ++ call.accepted ρ r) := by
  rcases perform_cases ρ call r with ⟨-, hsame, hnone⟩ | ⟨rule, -, haccepts, hadd, hone⟩ | ⟨-, -,
    hfreeze, hnone⟩
  · rw [hsame, hnone, List.append_nil]
    exact h
  · rw [hadd, hone]
    exact h.added haccepts
  · rw [hfreeze, hnone, List.append_nil]
    exact h.frozen

theorem afterAll (h : r.Holds rs) (ρ : Rounding) (calls : List Call) :
    (r.afterAll ρ calls).Holds (rs ++ accepted ρ r calls) := by
  induction calls generalizing r rs with
  | nil =>
      rw [accepted, List.append_nil]
      exact h
  | cons call rest ih =>
      have hrest := ih (h.after ρ call)
      rw [List.append_assoc] at hrest
      exact hrest

end Holds

/-- **What a registry holds** after any calls, in any arithmetic: the rules that were accepted, in
the order of the calls. -/
theorem holds_afterAll (ρ : Rounding) (calls : List Call) :
    (empty.afterAll ρ calls).Holds (accepted ρ empty calls) :=
  holds_empty.afterAll ρ calls

/-! ## Which lists are accepted -/

/-- Registers rules and freezes the registry. -/
def setUp (ρ : Rounding) (rs : List Rule) : RegistryM Unit := do
  registerAll ρ rs
  freeze ρ

theorem build_eq_setUp (ρ : Rounding) (limits : Limits) :
    build ρ limits = setUp ρ (Catalog.rules ρ limits) := rfl

/-- The rules can be registered and the registry can be frozen. Apart from the ids this is a matter
of each rule and of each category by itself. -/
structure Registrable (ρ : Rounding) (rs : List Rule) : Prop where
  ids_nodup : (rs.map (·.id)).Nodup
  positive : ∀ rule ∈ rs, Number.lt (.finite 0) rule.weight = true
  atMostOne : ∀ rule ∈ rs, rule.weight.le (.finite 1) = true
  /-- No weight goes above the bound when it is added. -/
  fits : ∀ c, fits ρ (.finite 0) ((rs.filter (·.category = c)).map (·.weight)) = true
  complete : ∀ c, rs.filter (·.category = c) ≠ [] →
    isComplete ρ (Number.sum ρ ((rs.filter (·.category = c)).map (·.weight))) = true

/-- If no rule is refused, the weights of each category fit on top of the sum it has. -/
theorem fits_of_registerAll {r r' : Registry} (h : registerAll ρ rs r = .ok () r') :
    (∀ rule ∈ rs, Number.lt (.finite 0) rule.weight = true ∧ rule.weight.le (.finite 1) = true) ∧
      ∀ c, fits ρ (r.categoryWeight ρ c) ((rs.filter (·.category = c)).map (·.weight)) = true := by
  induction rs generalizing r with
  | nil =>
      refine ⟨?_, ?_⟩
      · intro rule hrule
        cases hrule
      · intro c
        rfl
  | cons rule rest ih =>
      rw [registerAll_cons] at h
      rcases register_cases ρ rule r with ⟨e, herror⟩ | ⟨haccepts, hok⟩
      · rw [herror] at h
        cases h
      · rw [hok] at h
        obtain ⟨hweights, hfits⟩ := ih h
        refine ⟨?_, ?_⟩
        · intro other hother
          rcases List.mem_cons.mp hother with rfl | hother
          · exact ⟨haccepts.positive, haccepts.atMostOne⟩
          · exact hweights other hother
        · intro c
          have hrest := hfits c
          rw [categoryWeight, rulesFor_added] at hrest
          -- the sum that the rest starts from has the first rule in it, if that is of this category
          by_cases hc : c = rule.category
          · subst hc
            rw [if_pos rfl, weightSum_append] at hrest
            have hnotAbove := haccepts.fits
            rw [categoryWeight] at hnotAbove
            rw [List.filter_cons_of_pos (by simp), List.map_cons, Registry.fits, categoryWeight,
              hnotAbove, hrest]
            rfl
          · have hc' : ¬rule.category = c := fun e => hc e.symm
            rw [if_neg hc] at hrest
            rw [List.filter_cons_of_neg (by simpa using hc')]
            exact hrest

/-- A registry is frozen exactly if its categories are complete. -/
theorem Holds.freeze_eq_ok_iff {r r' : Registry} (h : r.Holds rs) :
    freeze ρ r = .ok () r' ↔
      (∀ c, rs.filter (·.category = c) ≠ [] →
        isComplete ρ (Number.sum ρ ((rs.filter (·.category = c)).map (·.weight))) = true) ∧
      r' = { r with frozen := true } := by
  -- no category has an empty entry, so the entries that are checked are the categories with rules
  have hentry : ∀ p ∈ r.byCategory, rs.filter (·.category = p.1) ≠ [] ∧
      p.2 = rs.filter (·.category = p.1) := by
    intro p hp
    have hlookup := lookup_eq_some_of_mem h.categories_nodup hp
    rw [h.lookup_eq] at hlookup
    by_cases hempty : rs.filter (·.category = p.1) = []
    · rw [if_pos hempty] at hlookup
      cases hlookup
    · rw [if_neg hempty] at hlookup
      exact ⟨hempty, (Option.some.inj hlookup).symm⟩
  constructor
  · intro hfreeze
    rcases freeze_cases ρ r with ⟨e, herror⟩ | ⟨hcomplete, hok⟩
    · rw [herror] at hfreeze
      cases hfreeze
    · rw [hok] at hfreeze
      injection hfreeze with _ hr
      refine ⟨?_, hr.symm⟩
      intro c hne
      have hlookup := h.lookup_eq c
      rw [if_neg hne] at hlookup
      exact hcomplete _ (mem_of_lookup_eq_some hlookup)
  · rintro ⟨hcomplete, rfl⟩
    have hnone : (r.byCategory.find? fun p => !isComplete ρ (weightSum ρ p.2)) = none := by
      rw [List.find?_eq_none]
      intro p hp
      obtain ⟨hne, heq⟩ := hentry p hp
      have hdone := hcomplete p.1 hne
      rw [← heq] at hdone
      simp [weightSum, hdone]
    rw [freeze_run, hnone]

theorem holds_of_registerAll {r : Registry} (h : registerAll ρ rs empty = .ok () r) :
    r.Holds rs := by
  obtain ⟨hafter, haccepted⟩ := registerAll_eq_ok h
  have hall := holds_afterAll ρ (rs.map Call.register)
  rwa [haccepted, ← hafter] at hall

theorem setUp_run (ρ : Rounding) (rs : List Rule) (r : Registry) :
    setUp ρ rs r =
      match registerAll ρ rs r with
      | .ok _ r' => freeze ρ r'
      | .error e r' => .error e r' := by
  change EStateM.bind _ _ r = _
  rw [EStateM.bind]
  cases registerAll ρ rs r <;> rfl

/-- A registry that is set up holds the rules it was set up with, and nothing was refused. -/
theorem holds_of_setUp {r : Registry} (h : setUp ρ rs empty = .ok () r) :
    r.Holds rs ∧ Registrable ρ rs := by
  rw [setUp_run] at h
  cases hregister : registerAll ρ rs empty with
  | error e r' =>
      rw [hregister] at h
      cases h
  | ok u r' =>
      rw [hregister] at h
      have hholds : r'.Holds rs := holds_of_registerAll hregister
      obtain ⟨hweights, hfits⟩ := fits_of_registerAll hregister
      obtain ⟨hcomplete, rfl⟩ := hholds.freeze_eq_ok_iff.mp h
      refine ⟨hholds.frozen, hholds.ids_nodup, ?_, ?_, hfits, hcomplete⟩
      · intro rule hrule
        exact (hweights rule hrule).1
      · intro rule hrule
        exact (hweights rule hrule).2

/-- **Which lists are accepted.** -/
theorem setUp_eq_ok_iff : (∃ r, setUp ρ rs empty = .ok () r) ↔ Registrable ρ rs := by
  constructor
  · rintro ⟨r, hr⟩
    exact (holds_of_setUp hr).2
  · intro h
    obtain ⟨r, hregister⟩ : ∃ r, registerAll ρ rs empty = .ok () r :=
      registerAll_of_fits rfl (fun _ _ => rfl) h.ids_nodup h.positive h.atMostOne h.fits
    refine ⟨{ r with frozen := true }, ?_⟩
    rw [setUp_run, hregister]
    exact (holds_of_registerAll hregister).freeze_eq_ok_iff.mpr ⟨h.complete, rfl⟩

/-! ## Registries that answer alike -/

/-- The registries give the same answers, by id and by category. The order of their entries may
differ. -/
structure Alike (r r' : Registry) : Prop where
  lookup_eq : ∀ c, r.byCategory.lookup c = r'.byCategory.lookup c
  get?_eq : ∀ id, r.get? id = r'.get? id
  size_eq : r.size = r'.size

namespace Alike

variable {r r' : Registry}

theorem rulesFor_eq (h : Alike r r') (c : Category) : r.rulesFor c = r'.rulesFor c := by
  rw [rulesFor, rulesFor, h.lookup_eq]

theorem categories_eq (h : Alike r r') : r.categories = r'.categories := by
  unfold categories
  simp only [h.lookup_eq]

theorem contains_eq (h : Alike r r') (id : String) : r.contains id = r'.contains id := by
  rw [contains, contains, h.get?_eq]

theorem toList_eq (h : Alike r r') : r.toList = r'.toList := by
  rw [toList, toList, h.categories_eq, funext h.rulesFor_eq]

theorem select_eq (h : Alike r r') (enabled : Option (List String)) (disabled : List String) :
    r.select enabled disabled = r'.select enabled disabled := by
  unfold select unknownIds
  simp only [h.contains_eq, h.toList_eq]

theorem activeRules_eq (h : Alike r r') (active : Option (List String)) (c : Category) :
    r.activeRules active c = r'.activeRules active c := by
  rw [activeRules, activeRules, h.rulesFor_eq]

theorem evaluate_eq (h : Alike r r') (ρ : Rounding) (m : FactModel) (active : Option (List String))
    (c : Category) : evaluate ρ m r active c = evaluate ρ m r' active c := by
  rw [evaluate, evaluate, h.activeRules_eq]

theorem evaluateAll_eq (h : Alike r r') (ρ : Rounding) (m : FactModel)
    (active : Option (List String)) (workers : Option Int) :
    evaluateAll ρ m r active workers = evaluateAll ρ m r' active workers := by
  have hstalls : stalls r active = stalls r' active := by
    funext c
    rw [stalls, stalls, h.activeRules_eq]
  have hevaluate : evaluate ρ m r active = evaluate ρ m r' active :=
    funext (h.evaluate_eq ρ m active)
  unfold evaluateAll
  rw [h.categories_eq, hstalls, hevaluate]

theorem runWith_eq (h : Alike r r') (ρ : Rounding) (m : FactModel) (c : Config) (wait : Wait) :
    runWith ρ m c r wait = runWith ρ m c r' wait := by
  unfold runWith runRules
  simp only [h.select_eq, h.evaluateAll_eq]

end Alike

/-! ## The order of the categories -/

/-- The lists have the same rules in each category, in the same order. -/
def SameByCategory (first second : List Rule) : Prop :=
  ∀ c, first.filter (·.category = c) = second.filter (·.category = c)

namespace SameByCategory

variable {first second : List Rule}

theorem perm (h : SameByCategory first second) : first.Perm second := by
  have hsorted :
      ∀ rs : List Rule, (Category.all.flatMap fun c => rs.filter (·.category = c)).Perm rs :=
        fun rs =>
    flatMap_filter_perm _ Category.all_nodup rs fun rule _ => Category.mem_all rule.category
  have hfirst := hsorted first
  rw [funext h] at hfirst
  exact hfirst.symm.trans (hsorted second)

theorem registrable_iff (h : SameByCategory first second) (ρ : Rounding) :
    Registrable ρ first ↔ Registrable ρ second := by
  -- one direction for both: the relation is symmetric
  have hmove : ∀ {rs rs' : List Rule}, SameByCategory rs rs' → Registrable ρ rs →
      Registrable ρ rs' := by
    intro rs rs' hsame hrs
    have hperm := hsame.perm
    refine ⟨(hperm.map _).nodup_iff.mp hrs.ids_nodup, ?_, ?_, ?_, ?_⟩
    · intro rule hrule
      exact hrs.positive rule (hperm.mem_iff.mpr hrule)
    · intro rule hrule
      exact hrs.atMostOne rule (hperm.mem_iff.mpr hrule)
    · intro c
      rw [← hsame c]
      exact hrs.fits c
    · intro c
      rw [← hsame c]
      exact hrs.complete c
  exact ⟨hmove h, hmove fun c => (h c).symm⟩

/-- Registries that hold such lists answer alike. -/
theorem alike (h : SameByCategory first second) {r r' : Registry} (hr : r.Holds first)
    (hr' : r'.Holds second) : Alike r r' := by
  refine ⟨?_, ?_, ?_⟩
  · intro c
    rw [hr.lookup_eq, hr'.lookup_eq, h c]
  · intro id
    refine Option.ext fun rule => ?_
    rw [hr.get?_eq_some_iff, hr'.get?_eq_some_iff, h.perm.mem_iff]
  · rw [size, size, hr.byId_eq, hr'.byId_eq, List.length_map, List.length_map, h.perm.length_eq]

end SameByCategory

/-- **The order of registration across categories is irrelevant.** Take two lists that have the same
rules in each category, in the same order. Either both can be registered and the registry be frozen,
or neither can. If they can, the two registries give the same answers, every category has the same
score on every fact model, and every run ends in the same way. -/
theorem registration_order_irrelevant (ρ : Rounding) {first second : List Rule}
    (h : SameByCategory first second) :
    ((∃ r, setUp ρ first empty = .ok () r) ↔ ∃ r, setUp ρ second empty = .ok () r) ∧
      ∀ r r', setUp ρ first empty = .ok () r → setUp ρ second empty = .ok () r' →
        (∀ c, r.rulesFor c = r'.rulesFor c) ∧ r.categories = r'.categories ∧
          (∀ id, r.get? id = r'.get? id) ∧ (∀ id, r.contains id = r'.contains id) ∧
          r.size = r'.size ∧ r.toList = r'.toList ∧
          (∀ m active c, evaluate ρ m r active c = evaluate ρ m r' active c) ∧
          (∀ m active workers, evaluateAll ρ m r active workers =
            evaluateAll ρ m r' active workers) ∧
          ∀ m c wait, runWith ρ m c r wait = runWith ρ m c r' wait := by
  refine ⟨?_, ?_⟩
  · rw [setUp_eq_ok_iff, setUp_eq_ok_iff]
    exact h.registrable_iff ρ
  · intro r r' hr hr'
    have halike : Alike r r' := h.alike (holds_of_setUp hr).1 (holds_of_setUp hr').1
    exact ⟨halike.rulesFor_eq, halike.categories_eq, halike.get?_eq, halike.contains_eq,
      halike.size_eq, halike.toList_eq,
      halike.evaluate_eq ρ, halike.evaluateAll_eq ρ, halike.runWith_eq ρ⟩

/-- A rule for layout before, between or after two rules for naming: the tables by id differ, and
runs do not. -/
theorem registration_order_irrelevant_interleaved :
    let rule (id : String) (c : Category) (w : Number) : Rule :=
      { id := id, category := c, weight := w, description := "",
        evaluate := fun _ => .raised ⟨"ValueError", id⟩ }
    let short := rule "naming.short" .naming (.ofDecimal false 4 (-1))
    let plain := rule "naming.plain" .naming (.ofDecimal false 6 (-1))
    let tree := rule "layout.tree" .layout (.finite 1)
    SameByCategory [short, tree, plain] [tree, short, plain] ∧
      ∃ r r', setUp .nearest [short, tree, plain] empty = .ok () r ∧
        setUp .nearest [tree, short, plain] empty = .ok () r' ∧
        r.byId.map (·.1) ≠ r'.byId.map (·.1) ∧ r.toList = r'.toList ∧
        ∀ m c wait, runWith .nearest m c r wait = runWith .nearest m c r' wait := by
  intro rule short plain tree
  have hsame : SameByCategory [short, tree, plain] [tree, short, plain] := by
    intro c
    cases c <;> rfl
  obtain ⟨hiff, hagree⟩ := registration_order_irrelevant .nearest hsame
  have hregistrable : Registrable .nearest [short, tree, plain] := by
    refine ⟨by decide, by decide +kernel, by decide +kernel, ?_, ?_⟩
    · have hfits : ∀ c ∈ Category.all, fits .nearest (.finite 0)
          (([short, tree, plain].filter (·.category = c)).map (·.weight)) = true := by
            decide +kernel
      exact fun c => hfits c (Category.mem_all c)
    · have hcomplete :
          ∀ c ∈ Category.all, ([short, tree, plain].filter (·.category = c)).isEmpty = false →
          isComplete .nearest
            (Number.sum .nearest (([short, tree, plain].filter (·.category = c)).map (·.weight))) =
            true := by
        decide +kernel
      exact fun c hne => hcomplete c (Category.mem_all c) (by simpa using hne)
  obtain ⟨r, hr⟩ := setUp_eq_ok_iff.mpr hregistrable
  obtain ⟨r', hr'⟩ := hiff.mp ⟨r, hr⟩
  obtain ⟨-, -, -, -, -, htoList, -, -, hrun⟩ := hagree r r' hr hr'
  refine ⟨hsame, r, r', hr, hr', ?_, htoList, hrun⟩
  -- the table by id keeps the order of registration, which is what differs
  rw [(holds_of_setUp hr).1.keys_eq, (holds_of_setUp hr').1.keys_eq]
  decide

end Registry

end Scorecard
