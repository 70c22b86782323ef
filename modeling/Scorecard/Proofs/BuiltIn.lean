import Scorecard.Proofs.Registry

set_option autoImplicit false

/-! # The built-in registry

The built-in rules are registered one by one and the registry is frozen, and nothing of this is
refused, whatever the limits are (`build_eq_ok`). A list of rules is accepted if its ids are
distinct and the weights of each category fit (`registerAll_of_fits`). These are facts about the
places of the rules, which do not depend on the limits, and they are computed.
-/

namespace Scorecard

variable {ρ : Rounding}

namespace Registry

/-! ## Registering a list of rules -/

theorem registerAll_cons (ρ : Rounding) (rule : Rule) (rest : List Rule) (r : Registry) :
    registerAll ρ (rule :: rest) r =
      match register ρ rule r with
      | .ok _ r' => registerAll ρ rest r'
      | .error e r' => .error e r' := by
  change EStateM.bind _ _ r = _
  simp only [EStateM.bind]
  cases register ρ rule r <;> rfl

/-- If no rule is refused, all of them are accepted, in their order. -/
theorem registerAll_eq_ok {rs : List Rule} {r r' : Registry} (h : registerAll ρ rs r = .ok () r') :
    r' = r.afterAll ρ (rs.map Call.register) ∧ accepted ρ r (rs.map Call.register) = rs := by
  induction rs generalizing r with
  | nil =>
      have hsame : EStateM.Result.ok () r = .ok () r' := h
      injection hsame with _ hr
      exact ⟨hr.symm, rfl⟩
  | cons rule rest ih =>
      rw [registerAll_cons] at h
      cases hregister : register ρ rule r with
      | error e r₁ =>
          rw [hregister] at h
          cases h
      | ok u r₁ =>
          rw [hregister] at h
          obtain ⟨hafter, hall⟩ := ih h
          have hstep : r.after ρ (.register rule) = r₁ := by
            simp [after, RegistryM.leaves, Call.perform, hregister]
          have hone : (Call.register rule).accepted ρ r = [rule] := by
            simp [Call.accepted, hregister]
          constructor
          · rw [hafter, ← hstep]
            rfl
          · rw [List.map_cons, accepted, hstep, hone, hall]
            rfl

theorem contains_added (r : Registry) (rule : Rule) (id : String) :
    (r.added rule).contains id = (decide (id = rule.id) || r.contains id) := by
  have hlookup :
      (r.added rule).byId.lookup id = if id = rule.id then some rule else r.byId.lookup id :=
    lookup_alterEntry rule.id id (fun _ => rule) r.byId
  rw [contains, get?, hlookup]
  by_cases hid : id = rule.id
  · simp [hid]
  · simp [hid, contains, get?]

/-- Whether weights can be added one after the other to a sum without going above the bound. -/
def fits (ρ : Rounding) (total : Number) : List Number → Bool
  | [] => true
  | w :: rest =>
    !Number.lt (Number.add ρ (.finite 1) weightTolerance) (Number.add ρ total w) &&
      fits ρ (Number.add ρ total w) rest

/-- Rules with new and distinct ids and with weights that fit are accepted. -/
theorem registerAll_of_fits {rs : List Rule} {r : Registry} (hopen : r.frozen = false)
    (hfresh : ∀ rule ∈ rs, r.contains rule.id = false) (hids : (rs.map (·.id)).Nodup)
    (hpositive : ∀ rule ∈ rs, Number.lt (.finite 0) rule.weight = true)
    (hone : ∀ rule ∈ rs, rule.weight.le (.finite 1) = true)
    (hfits : ∀ c,
      fits ρ (r.categoryWeight ρ c) ((rs.filter (·.category = c)).map (·.weight)) = true) :
    ∃ r', registerAll ρ rs r = .ok () r' := by
  -- for every registry: the rules that are left are new to it and fit on top of the sums it has
  induction rs generalizing r with
  | nil => exact ⟨r, rfl⟩
  | cons rule rest ih =>
      rw [List.map_cons, List.nodup_cons] at hids
      have hown := hfits rule.category
      rw [List.filter_cons_of_pos (by simp), List.map_cons, fits, Bool.and_eq_true] at hown
      have haccepts : Accepts ρ r rule :=
        ⟨hopen, hfresh rule List.mem_cons_self, hpositive rule List.mem_cons_self,
          hone rule List.mem_cons_self, by simpa using hown.1⟩
      rw [registerAll_cons, register_of_accepts haccepts]
      refine ih hopen ?_ hids.2 (fun other hother => hpositive other
        (List.mem_cons_of_mem _ hother))
        (fun other hother => hone other (List.mem_cons_of_mem _ hother)) ?_
      · intro other hother
        have hne : ¬other.id = rule.id := fun e => hids.1 (List.mem_map.mpr ⟨other, hother, e⟩)
        rw [contains_added, hfresh other (List.mem_cons_of_mem _ hother)]
        simp [hne]
      · intro c
        by_cases hc : c = rule.category
        · -- the sum now has the weight of the rule
          subst hc
          rw [categoryWeight, rulesFor_added, if_pos rfl, weightSum_append]
          exact hown.2
        · have hother := hfits c
          have hc' : ¬rule.category = c := fun e => hc e.symm
          rw [List.filter_cons_of_neg (by simpa using hc')] at hother
          rw [categoryWeight, rulesFor_added, if_neg hc]
          exact hother

/-! ## Building -/

/-- The calls that build a registry. -/
def buildCalls (rs : List Rule) : List Call := rs.map Call.register ++ [.freeze]

theorem afterAll_buildCalls (ρ : Rounding) (rs : List Rule) (r : Registry) :
    r.afterAll ρ (buildCalls rs) = (r.afterAll ρ (rs.map Call.register)).after ρ .freeze := by
  rw [afterAll, buildCalls, List.foldl_append]
  rfl

theorem accepted_append_freeze (ρ : Rounding) (calls : List Call) (r : Registry) :
    accepted ρ r (calls ++ [.freeze]) = accepted ρ r calls := by
  induction calls generalizing r with
  | nil => rfl
  | cons call rest ih => rw [List.cons_append, accepted, accepted, ih]

/-- A registry is frozen if all its categories are complete. -/
theorem freeze_of_complete {r : Registry} (h : Consistent ρ r)
    (hcomplete : ∀ c, r.rulesFor c ≠ [] → isComplete ρ (r.categoryWeight ρ c) = true) :
    freeze ρ r = .ok () { r with frozen := true } := by
  have hnone : (r.byCategory.find? fun p => !isComplete ρ (weightSum ρ p.2)) = none := by
    rw [List.find?_eq_none]
    intro p hp
    have hfor : r.rulesFor p.1 = p.2 := by
      rw [rulesFor, lookup_eq_some_of_mem h.categories_nodup hp]
      rfl
    have hdone := hcomplete p.1 (hfor ▸ h.nonempty p hp)
    rw [categoryWeight, hfor] at hdone
    simp [hdone]
  rw [freeze_run, hnone]

/-! ## The catalog -/

/-- A rule without its judgement and its description. -/
structure Place where
  id : String
  category : Category
  weight : Number
  stalls : Bool
deriving DecidableEq

def place (rule : Rule) : Place := ⟨rule.id, rule.category, rule.weight, rule.stalls⟩

/-- The places of the built-in rules. -/
def places : List Place := (Catalog.rules .nearest {}).map place

/-- They are the same in any arithmetic and for all limits, which change the texts and the
judgements of rules only. -/
theorem map_place_rules (ρ : Rounding) (limits : Limits) :
    (Catalog.rules ρ limits).map place = places := by
  simp only [places, Catalog.rules, Catalog.layout, Catalog.naming, Catalog.functionDesign,
    Catalog.classDesign,
    Catalog.errorHandling, Catalog.configuration, Catalog.testing, Catalog.logging,
      Catalog.performance,
    Catalog.versionControl, Catalog.ratio, Catalog.penalty, Catalog.presence, List.map_append,
      List.map_cons, List.map_nil]
  rfl

/-- What is true of all places is true of all built-in rules. -/
theorem forall_catalog {P : Place → Prop} (h : ∀ p ∈ places, P p) (limits : Limits) :
    ∀ rule ∈ Catalog.rules ρ limits, P (place rule) := by
  intro rule hrule
  refine h _ ?_
  rw [← map_place_rules ρ limits]
  exact List.mem_map.mpr ⟨rule, hrule, rfl⟩

/-- What holds of each place by itself. -/
structure Place.Sound (p : Place) : Prop where
  positive : Number.lt (.finite 0) p.weight = true
  atMostOne : p.weight.le (.finite 1) = true
  isDouble : p.weight.IsDouble
  quick : p.stalls = false

instance (p : Place) : Decidable p.Sound :=
  decidable_of_iff (Number.lt (.finite 0) p.weight = true ∧ p.weight.le (.finite 1) = true ∧
    p.weight.IsDouble ∧ p.stalls = false)
    ⟨fun ⟨hpositive, hone, hdouble, hquick⟩ => ⟨hpositive, hone, hdouble, hquick⟩,
      fun h => ⟨h.positive, h.atMostOne, h.isDouble, h.quick⟩⟩

/-- What holds of the places together: no two have an identifier in common, each category has some,
and their weights add up. -/
theorem places_sound : (∀ p ∈ places, p.Sound) ∧ (places.map (·.id)).Nodup ∧
    ∀ c ∈ Category.all, (∃ p ∈ places, p.category = c) ∧
      fits .nearest (.finite 0) ((places.filter (·.category = c)).map (·.weight)) = true ∧
      isComplete .nearest (Number.sum .nearest ((places.filter (·.category = c)).map (·.weight))) =
        true := by
  decide +kernel

theorem catalog_sound (limits : Limits) : ∀ rule ∈ Catalog.rules ρ limits, (place rule).Sound :=
  forall_catalog places_sound.1 limits

theorem catalog_ids_nodup (limits : Limits) : ((Catalog.rules ρ limits).map (·.id)).Nodup := by
  have hids : (Catalog.rules ρ limits).map (·.id) = places.map (·.id) := by
    rw [← map_place_rules ρ limits, List.map_map]
    rfl
  rw [hids]
  exact places_sound.2.1

/-- The weights of a category of built-in rules. -/
theorem catalog_weights (limits : Limits) (c : Category) :
    ((Catalog.rules ρ limits).filter (·.category = c)).map (·.weight) =
      (places.filter (·.category = c)).map (·.weight) := by
  rw [← map_place_rules ρ limits, List.filter_map, List.map_map]
  rfl

/-- Every category has built-in rules. -/
theorem exists_catalog (ρ : Rounding) (limits : Limits) (c : Category) :
    ∃ rule ∈ Catalog.rules ρ limits, rule.category = c := by
  obtain ⟨⟨p, hp, hcategory⟩, -⟩ := places_sound.2.2 c (Category.mem_all c)
  rw [← map_place_rules ρ limits] at hp
  obtain ⟨rule, hrule, rfl⟩ := List.mem_map.mp hp
  exact ⟨rule, hrule, hcategory⟩

/-- **Nothing is refused** when the built-in rules are registered and the registry is frozen. -/
theorem build_eq_ok (limits : Limits) :
    build .nearest limits empty = .ok () (builtIn .nearest limits) ∧
      builtIn .nearest limits =
        empty.afterAll .nearest (buildCalls (Catalog.rules .nearest limits)) ∧
      accepted .nearest empty (buildCalls (Catalog.rules .nearest limits)) =
        Catalog.rules .nearest limits := by
  set rs := Catalog.rules .nearest limits with hrs
  -- no partial sum exceeds one, which is a matter of the weights alone and was decided for the
  -- places
  obtain ⟨r, hr⟩ : ∃ r, registerAll .nearest rs empty = .ok () r := by
    refine registerAll_of_fits rfl (fun _ _ => rfl) (catalog_ids_nodup limits)
      (fun rule h => (catalog_sound limits rule h).positive)
      (fun rule h => (catalog_sound limits rule h).atMostOne) fun c => ?_
    rw [catalog_weights limits c]
    exact (places_sound.2.2 c (Category.mem_all c)).2.1
  obtain ⟨hafter, haccepted⟩ := registerAll_eq_ok hr
  have hconsistent : Consistent .nearest r := hafter ▸ consistent_afterAll _
  have hrules : r.rules = rs := by
    rw [hafter, rules_afterAll, haccepted]
    rfl
  -- and each total is near enough to one for the registry to be frozen
  have hfreeze : freeze .nearest r = .ok () { r with frozen := true } := by
    refine freeze_of_complete hconsistent fun c _ => ?_
    rw [categoryWeight, hconsistent.rulesFor_eq, hrules, weightSum, catalog_weights limits c]
    exact (places_sound.2.2 c (Category.mem_all c)).2.2
  have hbuild : build .nearest limits empty = .ok () { r with frozen := true } := by
    change EStateM.bind _ _ empty = _
    simp only [EStateM.bind, ← hrs, hr]
    exact hfreeze
  have hbuilt : builtIn .nearest limits = { r with frozen := true } := by
    rw [builtIn, RegistryM.leaves, hbuild]
  refine ⟨by rw [hbuilt, hbuild], ?_, ?_⟩
  · rw [hbuilt, afterAll_buildCalls, ← hafter, after, RegistryM.leaves, Call.perform, hfreeze]
  · rw [buildCalls, accepted_append_freeze, haccepted]

end Registry

end Scorecard
