import Scorecard.Proofs.Bounds
import Scorecard.Proofs.Entries
import Scorecard.Rule.Registry

set_option autoImplicit false

/-! # Registries under any calls

A registry keeps its rules twice, by id and by category. The calls that change it are `register` and
`freeze`, each of which may be refused. Whatever the calls are, the two tables hold the same rules,
the weights of a category never exceed one, and a frozen registry has complete categories and does
not change any more (`consistent_afterAll`, `afterAll_of_frozen`). What is iterated is the list of
accepted rules, sorted stably by category (`Consistent.toList_eq`).
-/

namespace Scorecard

variable {ρ : Rounding} {r r' : Registry} {f : Rule → Rule} {rule : Rule}

theorem Category.mem_all (c : Category) : c ∈ Category.all := by cases c <;> decide

theorem Category.all_nodup : Category.all.Nodup := by decide

/-- The order of a category is its place among all categories. -/
theorem Category.getElem?_order (c : Category) : Category.all[c.order]? = some c := by
  cases c <;> rfl

theorem Category.order_injective : Function.Injective Category.order := by
  intro c d h
  have hsome : some c = some d := by rw [← c.getElem?_order, ← d.getElem?_order, h]
  exact Option.some.inj hsome

namespace Registry

/-! ## What an operation does -/

/-- The registered rules in the order of registration. -/
def rules (r : Registry) : List Rule := r.byId.map (·.2)

/-- The registry with one more rule. -/
def added (rule : Rule) (r : Registry) : Registry := (r.addById rule).addToCategory rule

/-- A rule is added as the last thing, after all that may refuse it. -/
theorem register_run (ρ : Rounding) (rule : Rule) (r : Registry) :
    register ρ rule r =
      if r.frozen then .error (.frozen rule.id) r
      else if r.contains rule.id then .error (.duplicate rule.id) r
      else if !(Number.lt (.finite 0) rule.weight && rule.weight.le (.finite 1)) then
        .error (.weightRange rule.id rule.category rule.weight) r
      else if Number.lt (Number.add ρ (.finite 1) weightTolerance)
          (Number.add ρ (r.categoryWeight ρ rule.category) rule.weight) then
        .error (.sumTooLarge rule.id rule.category rule.weight
          (Number.add ρ (r.categoryWeight ρ rule.category) rule.weight)) r
      else .ok () (r.added rule) := by
  -- the checks only read the registry, so the monad unfolds to one chain of conditions
  have h : register ρ rule r = (if r.frozen then throw (.frozen rule.id)
      else if r.contains rule.id then throw (.duplicate rule.id)
      else if !(Number.lt (.finite 0) rule.weight && rule.weight.le (.finite 1)) then
        throw (.weightRange rule.id rule.category rule.weight)
      else if Number.lt (Number.add ρ (.finite 1) weightTolerance)
          (Number.add ρ (r.categoryWeight ρ rule.category) rule.weight) then
        throw (.sumTooLarge rule.id rule.category rule.weight
          (Number.add ρ (r.categoryWeight ρ rule.category) rule.weight))
      else do
        modify (addById rule)
        modify (addToCategory rule) : RegistryM Unit) r := rfl
  rw [h]
  split
  · rfl
  · split
    · rfl
    · split
      · rfl
      · split
        · rfl
        · rfl

/-- What is known when a rule is accepted. -/
structure Accepts (ρ : Rounding) (r : Registry) (rule : Rule) : Prop where
  open_ : r.frozen = false
  fresh : r.contains rule.id = false
  positive : Number.lt (.finite 0) rule.weight = true
  atMostOne : rule.weight.le (.finite 1) = true
  fits : Number.lt (Number.add ρ (.finite 1) weightTolerance)
    (Number.add ρ (r.categoryWeight ρ rule.category) rule.weight) = false

theorem register_of_accepts (h : Accepts ρ r rule) : register ρ rule r = .ok () (r.added rule) := by
  rw [register_run]
  simp [h.open_, h.fresh, h.positive, h.atMostOne, h.fits]

/-- Registering is refused and changes nothing, or adds the rule to both tables. -/
theorem register_cases (ρ : Rounding) (rule : Rule) (r : Registry) :
    (∃ e, register ρ rule r = .error e r) ∨
      (Accepts ρ r rule ∧ register ρ rule r = .ok () (r.added rule)) := by
  rw [register_run]
  split
  · exact Or.inl ⟨_, rfl⟩
  · rename_i hopen
    split
    · exact Or.inl ⟨_, rfl⟩
    · rename_i hfresh
      split
      · exact Or.inl ⟨_, rfl⟩
      · rename_i hweight
        split
        · exact Or.inl ⟨_, rfl⟩
        · rename_i hfits
          -- nothing refused the rule, so all that `Accepts` asks for was checked
          have hweight' : Number.lt (.finite 0) rule.weight = true ∧
              rule.weight.le (.finite 1) = true := by
            simpa using hweight
          exact Or.inr ⟨⟨by simpa using hopen, by simpa using hfresh, hweight'.1,
            hweight'.2, by simpa using hfits⟩, rfl⟩

/-- Checking the categories changes nothing. It is refused for the first category that is not
complete. -/
theorem forM_checkComplete_run (ρ : Rounding) (entries : List (Category × List Rule))
    (r : Registry) : entries.forM (checkComplete ρ) r =
      match entries.find? fun p => !isComplete ρ (weightSum ρ p.2) with
      | some p => .error (.incompleteSum p.1 (weightSum ρ p.2)) r
      | none => .ok () r := by
  induction entries with
  | nil => rfl
  | cons entry rest ih =>
      obtain ⟨c, rules⟩ := entry
      by_cases h : isComplete ρ (weightSum ρ rules) = true
      · have hcheck : checkComplete ρ (c, rules) r = .ok () r := by
          simp only [checkComplete, h, if_true]
          rfl
        -- a category that is complete leaves the answer to the rest
        have hcons :
            ((c, rules) :: rest).forM (checkComplete ρ) r = rest.forM (checkComplete ρ) r := by
          change EStateM.bind _ _ r = _
          simp [EStateM.bind, hcheck]
        rw [hcons, ih]
        simp [h]
      · have hcheck :
            checkComplete ρ (c, rules) r = .error (.incompleteSum c (weightSum ρ rules)) r := by
          simp only [checkComplete, h]
          rfl
        have hcons : ((c, rules) :: rest).forM (checkComplete ρ) r =
            .error (.incompleteSum c (weightSum ρ rules)) r := by
          change EStateM.bind _ _ r = _
          simp [EStateM.bind, hcheck]
        rw [hcons]
        simp [h]

/-- The registry is frozen as the last thing, after all categories are checked. -/
theorem freeze_run (ρ : Rounding) (r : Registry) :
    freeze ρ r =
      match r.byCategory.find? fun p => !isComplete ρ (weightSum ρ p.2) with
      | some p => .error (.incompleteSum p.1 (weightSum ρ p.2)) r
      | none => .ok () { r with frozen := true } := by
  have hrun : freeze ρ r =
      match r.byCategory.forM (checkComplete ρ) r with
      | .ok _ r' => .ok () { r' with frozen := true }
      | .error e r' => .error e r' := by
    change EStateM.bind _ _ r = _
    simp only [EStateM.bind]
    cases r.byCategory.forM (checkComplete ρ) r <;> rfl
  rw [hrun, forM_checkComplete_run]
  cases r.byCategory.find? fun p => !isComplete ρ (weightSum ρ p.2) <;> rfl

/-- Freezing is refused and changes nothing, or all categories are complete and the registry is
frozen. -/
theorem freeze_cases (ρ : Rounding) (r : Registry) :
    (∃ e, freeze ρ r = .error e r) ∨
      ((∀ p ∈ r.byCategory, isComplete ρ (weightSum ρ p.2) = true) ∧
        freeze ρ r = .ok () { r with frozen := true }) := by
  rw [freeze_run]
  cases hfind : r.byCategory.find? fun p => !isComplete ρ (weightSum ρ p.2) with
  | some p => exact Or.inl ⟨_, rfl⟩
  | none =>
      refine Or.inr ⟨?_, rfl⟩
      intro p hp
      simpa using List.find?_eq_none.mp hfind p hp

/-! ## Calls -/

/-- A call that may change a registry. -/
inductive Call where
  | register (rule : Rule)
  | freeze

/-- What a call does. -/
def Call.perform (ρ : Rounding) : Call → RegistryM Unit
  | .register rule => Registry.register ρ rule
  | .freeze => Registry.freeze ρ

/-- The registry after a call, refused or not. -/
def after (ρ : Rounding) (r : Registry) (call : Call) : Registry := (call.perform ρ).leaves r

/-- The registry after some calls. -/
def afterAll (ρ : Rounding) (r : Registry) (calls : List Call) : Registry := calls.foldl (after ρ) r

/-- The rule that a call adds. -/
def Call.accepted (ρ : Rounding) (r : Registry) : Call → List Rule
  | .register rule =>
    match Registry.register ρ rule r with
    | .ok _ _ => [rule]
    | .error _ _ => []
  | .freeze => []

/-- The rules that some calls add, in the order of the calls. -/
def accepted (ρ : Rounding) (r : Registry) : List Call → List Rule
  | [] => []
  | call :: rest => call.accepted ρ r ++ accepted ρ (r.after ρ call) rest

/-- A call that is refused changes nothing; otherwise it adds a rule or freezes. -/
theorem perform_cases (ρ : Rounding) (call : Call) (r : Registry) :
    ((∃ e, call.perform ρ r = .error e r) ∧ r.after ρ call = r ∧ call.accepted ρ r = []) ∨
      (∃ rule, call = .register rule ∧ Accepts ρ r rule ∧ r.after ρ call = r.added rule ∧
        call.accepted ρ r = [rule]) ∨
      (call = .freeze ∧ (∀ p ∈ r.byCategory, isComplete ρ (weightSum ρ p.2) = true) ∧
        r.after ρ call = { r with frozen := true } ∧ call.accepted ρ r = []) := by
  cases call with
  | register rule =>
      rcases register_cases ρ rule r with ⟨e, he⟩ | ⟨haccepts, hok⟩
      · refine Or.inl ⟨⟨e, he⟩, ?_, ?_⟩
        · simp [after, RegistryM.leaves, Call.perform, he]
        · simp [Call.accepted, he]
      · refine Or.inr (Or.inl ⟨rule, rfl, haccepts, ?_, ?_⟩)
        · simp [after, RegistryM.leaves, Call.perform, hok]
        · simp [Call.accepted, hok]
  | freeze =>
      rcases freeze_cases ρ r with ⟨e, he⟩ | ⟨hcomplete, hok⟩
      · refine Or.inl ⟨⟨e, he⟩, ?_, rfl⟩
        simp [after, RegistryM.leaves, Call.perform, he]
      · refine Or.inr (Or.inr ⟨rfl, hcomplete, ?_, rfl⟩)
        simp [after, RegistryM.leaves, Call.perform, hok]

theorem perform_error {call : Call} {e : RegistryError} (h : call.perform ρ r = .error e r') :
    r' = r := by
  cases call with
  | register rule =>
      rcases register_cases ρ rule r with ⟨e', he⟩ | ⟨-, hok⟩
      · rw [Call.perform, he] at h
        injection h with _ hr
        exact hr.symm
      · rw [Call.perform, hok] at h
        cases h
  | freeze =>
      rcases freeze_cases ρ r with ⟨e', he⟩ | ⟨-, hok⟩
      · rw [Call.perform, he] at h
        injection h with _ hr
        exact hr.symm
      · rw [Call.perform, hok] at h
        cases h

/-- Nothing changes a frozen registry. -/
theorem after_of_frozen (h : r.frozen = true) (call : Call) : r.after ρ call = r := by
  rcases perform_cases ρ call r with ⟨-, hsame, -⟩ | ⟨rule, -, haccepts, -, -⟩ | ⟨-, -, hfrozen, -⟩
  · exact hsame
  · rw [haccepts.open_] at h
    cases h
  · rw [hfrozen, ← h]

theorem afterAll_of_frozen (h : r.frozen = true) (calls : List Call) : r.afterAll ρ calls = r := by
  induction calls with
  | nil => rfl
  | cons call rest ih =>
      rw [afterAll, List.foldl_cons, after_of_frozen h]
      exact ih

/-! ## The tables agree -/

theorem rules_added (h : r.contains rule.id = false) :
    (r.added rule).byId = r.byId ++ [(rule.id, rule)] := by
  have hnone : r.byId.lookup rule.id = none := by simpa [contains, get?] using h
  exact alterEntry_of_lookup_none _ hnone

/-- The list of the rule's own category grows, the others stay as they are. -/
theorem lookup_byCategory_added (r : Registry) (rule : Rule) (c : Category) :
    (r.added rule).byCategory.lookup c =
      if c = rule.category then some (r.rulesFor rule.category ++ [rule])
      else r.byCategory.lookup c :=
  lookup_alterEntry rule.category c _ r.byCategory

theorem rulesFor_added (r : Registry) (rule : Rule) (c : Category) :
    (r.added rule).rulesFor c =
      if c = rule.category then r.rulesFor c ++ [rule] else r.rulesFor c := by
  rw [rulesFor, lookup_byCategory_added]
  by_cases hc : c = rule.category
  · subst hc
    rw [if_pos rfl, if_pos rfl]
    rfl
  · rw [if_neg hc, if_neg hc]
    rfl

/-- The weights are summed from left to right, so one more rule is one more addition. -/
theorem weightSum_append (ρ : Rounding) (rules : List Rule) (rule : Rule) :
    weightSum ρ (rules ++ [rule]) = Number.add ρ (weightSum ρ rules) rule.weight := by
  simp [weightSum, Number.sum]

/-- What holds of a registry at any time. -/
structure Consistent (ρ : Rounding) (r : Registry) : Prop where
  /-- A rule is found by its own id. -/
  id_eq : ∀ p ∈ r.byId, p.2.id = p.1
  ids_nodup : (r.byId.map (·.1)).Nodup
  categories_nodup : (r.byCategory.map (·.1)).Nodup
  /-- The list of a category has exactly the rules of the category, in the order of registration. -/
  rulesFor_eq : ∀ c, r.rulesFor c = r.rules.filter (·.category = c)
  nonempty : ∀ p ∈ r.byCategory, p.2 ≠ []
  positive : ∀ rule ∈ r.rules, Number.lt (.finite 0) rule.weight = true
  atMostOne : ∀ rule ∈ r.rules, rule.weight.le (.finite 1) = true
  categoryWeight_le :
      ∀ c, (r.categoryWeight ρ c).le (Number.add ρ (.finite 1) weightTolerance) = true
  complete : r.frozen = true → ∀ c, r.rulesFor c ≠ [] →
    (Number.sub ρ (r.categoryWeight ρ c) (.finite 1)).abs.le weightTolerance = true

theorem atLeast_zero_of_positive {w : Number} (h : Number.lt (.finite 0) w = true) :
    w.AtLeast 0 := by
  rcases w with x | _ | (_ | _) | _
  · exact Or.inr ⟨rfl, ((Number.lt_iff_value_lt rfl rfl).mp h).le⟩
  · exact Or.inr ⟨rfl, le_refl _⟩
  · exact Or.inl rfl
  · simp [Number.lt, Number.place] at h
  · simp [Number.lt, Number.place] at h

theorem weightSum_atLeast_zero {rules : List Rule}
    (h : ∀ rule ∈ rules, Number.lt (.finite 0) rule.weight = true) :
    (weightSum .nearest rules).AtLeast 0 := by
  refine Number.sum_atLeast_zero ?_
  intro w hw
  obtain ⟨rule, hrule, rfl⟩ := List.mem_map.mp hw
  exact atLeast_zero_of_positive (h rule hrule)

/-- The largest sum that is accepted is a number. -/
theorem bound_ne_nan : Number.add .nearest (.finite 1) weightTolerance ≠ .nan := by decide +kernel

theorem le_tolerance_of_isComplete {total : Number} (ht : total.AtLeast 0)
    (h : isComplete .nearest total = true) :
    (Number.sub .nearest total (.finite 1)).abs.le weightTolerance = true := by
  refine Number.le_of_not_lt ?_ (by decide +kernel) (by simpa [isComplete] using h)
  rw [Number.sub, Number.neg_finite_one]
  exact Number.abs_ne_nan (Number.add_ne_nan ht.ne_nan rfl)

theorem consistent_empty (ρ : Rounding)
    (hρ : Number.le (.finite 0) (Number.add ρ (.finite 1) weightTolerance) = true) :
    Consistent ρ empty where
  id_eq := by intro p hp; cases hp
  ids_nodup := List.nodup_nil
  categories_nodup := List.nodup_nil
  rulesFor_eq := by intro c; rfl
  nonempty := by intro p hp; cases hp
  positive := by intro rule hrule; cases hrule
  atMostOne := by intro rule hrule; cases hrule
  categoryWeight_le := by intro c; exact hρ
  complete := by intro h; cases h

/-- An accepted rule keeps the tables in agreement. -/
theorem Consistent.added (h : Consistent .nearest r) (haccepts : Accepts .nearest r rule) :
    Consistent .nearest (r.added rule) := by
  have hbyId := rules_added haccepts.fresh
  have hrules : (r.added rule).rules = r.rules ++ [rule] := by simp [rules, hbyId]
  have hmem : ∀ {other : Rule}, other ∈ (r.added rule).rules → other ∈ r.rules ∨ other = rule := by
    intro other hother
    simpa [hrules] using hother
  have hfresh : rule.id ∉ r.byId.map (·.1) := by
    intro hin
    obtain ⟨p, hp, hpid⟩ := List.mem_map.mp hin
    have hlookup := lookup_eq_some_of_mem h.ids_nodup hp
    have hcontains := haccepts.fresh
    rw [contains, get?, ← hpid, hlookup] at hcontains
    cases hcontains
  have hpositive : ∀ other ∈ (r.added rule).rules, Number.lt (.finite 0) other.weight = true := by
    intro other hother
    rcases hmem hother with hold | rfl
    · exact h.positive other hold
    · exact haccepts.positive
  have hfor : ∀ c, (r.added rule).rulesFor c = (r.added rule).rules.filter (·.category = c) := by
    intro c
    rw [rulesFor_added, h.rulesFor_eq, hrules, List.filter_append]
    by_cases hc : c = rule.category
    · simp [hc]
    · have hc' : ¬rule.category = c := fun e => hc e.symm
      simp [hc, hc']
  refine ⟨?_, ?_, nodup_keys_alterEntry h.categories_nodup, hfor, ?_, hpositive, ?_, ?_, ?_⟩
  · intro p hp
    rw [hbyId, List.mem_append, List.mem_singleton] at hp
    rcases hp with hp | rfl
    · exact h.id_eq p hp
    · rfl
  · rw [hbyId, List.map_append]
    refine List.nodup_append.mpr ⟨h.ids_nodup, List.nodup_singleton _, ?_⟩
    rintro a ha b hb rfl
    have hid : a = rule.id := by simpa using hb
    rw [hid] at ha
    exact hfresh ha
  · intro p hp
    rcases mem_alterEntry hp with hp | rfl
    · exact h.nonempty p hp
    · simp
  · intro other hother
    rcases hmem hother with hold | rfl
    · exact h.atMostOne other hold
    · exact haccepts.atMostOne
  · intro c
    have hsum : (weightSum .nearest ((r.added rule).rulesFor c)).AtLeast 0 := by
      refine weightSum_atLeast_zero fun other hother => hpositive other ?_
      rw [hfor c] at hother
      exact (List.mem_filter.mp hother).1
    by_cases hc : c = rule.category
    · -- the sum with the rule is the one that was compared with the bound
      subst hc
      refine Number.le_of_not_lt hsum.ne_nan bound_ne_nan ?_
      rw [categoryWeight, rulesFor_added, if_pos rfl, weightSum_append]
      exact haccepts.fits
    · rw [categoryWeight, rulesFor_added, if_neg hc]
      exact h.categoryWeight_le c
  · intro hfrozen
    have hsame : (r.added rule).frozen = r.frozen := rfl
    rw [hsame, haccepts.open_] at hfrozen
    cases hfrozen

theorem Consistent.frozen (h : Consistent .nearest r)
    (hcomplete : ∀ p ∈ r.byCategory, isComplete .nearest (weightSum .nearest p.2) = true) :
    Consistent .nearest { r with frozen := true } := by
  refine ⟨h.id_eq, h.ids_nodup, h.categories_nodup, h.rulesFor_eq, h.nonempty, h.positive,
    h.atMostOne, h.categoryWeight_le, ?_⟩
  intro _ c hne
  change (Number.sub .nearest (r.categoryWeight .nearest c) (.finite 1)).abs.le
    weightTolerance = true
  change r.rulesFor c ≠ [] at hne
  -- a category with rules has an entry, and all entries were checked
  cases hlookup : r.byCategory.lookup c with
  | none =>
      rw [rulesFor, hlookup] at hne
      exact absurd rfl hne
  | some found =>
      have hfor : r.rulesFor c = found := by rw [rulesFor, hlookup]; rfl
      have hdone := hcomplete _ (mem_of_lookup_eq_some hlookup)
      rw [categoryWeight, hfor]
      refine le_tolerance_of_isComplete (weightSum_atLeast_zero fun rule hrule => ?_) hdone
      rw [← hfor, h.rulesFor_eq] at hrule
      exact h.positive rule (List.mem_filter.mp hrule).1

theorem Consistent.after (h : Consistent .nearest r) (call : Call) :
    Consistent .nearest (r.after .nearest call) := by
  rcases perform_cases .nearest call r with ⟨-, hsame, -⟩ | ⟨rule, -, haccepts, hadd, -⟩ | ⟨-,
    hcomplete, hfreeze, -⟩
  · rw [hsame]
    exact h
  · rw [hadd]
    exact h.added haccepts
  · rw [hfreeze]
    exact h.frozen hcomplete

/-- Whatever is called, the tables agree. -/
theorem Consistent.afterAll (h : Consistent .nearest r) (calls : List Call) :
    Consistent .nearest (r.afterAll .nearest calls) := by
  induction calls generalizing r with
  | nil => exact h
  | cons call rest ih => exact ih (h.after call)

theorem consistent_afterAll (calls : List Call) :
    Consistent .nearest (empty.afterAll .nearest calls) :=
  (consistent_empty .nearest (by decide +kernel)).afterAll calls

/-- The rules are the accepted ones, in the order of the calls. -/
theorem rules_afterAll (ρ : Rounding) (calls : List Call) (r : Registry) :
    (r.afterAll ρ calls).rules = r.rules ++ accepted ρ r calls := by
  induction calls generalizing r with
  | nil => simp [Registry.afterAll, accepted]
  | cons call rest ih =>
      have hstep : (r.after ρ call).rules = r.rules ++ call.accepted ρ r := by
        rcases perform_cases ρ call r with ⟨-, hsame, hnone⟩ | ⟨rule, -, haccepts, hadd, hone⟩ | ⟨-,
          -, hfreeze, hnone⟩
        · rw [hsame, hnone, List.append_nil]
        · rw [hadd, hone]
          simp [rules, rules_added haccepts.fresh]
        · rw [hfreeze, hnone, List.append_nil]
          rfl
      have hrest := ih (r.after ρ call)
      rw [hstep, List.append_assoc] at hrest
      exact hrest

theorem mem_of_mem_accepted {calls : List Call} (h : rule ∈ accepted ρ r calls) :
    Call.register rule ∈ calls := by
  induction calls generalizing r with
  | nil => cases h
  | cons call rest ih =>
      rw [accepted, List.mem_append] at h
      rcases h with h | h
      · rcases perform_cases ρ call r with ⟨-, -, hnone⟩ | ⟨other, rfl, -, -, hone⟩ | ⟨-, -, -,
          hnone⟩
        · rw [hnone] at h
          cases h
        · rw [hone, List.mem_singleton] at h
          rw [h]
          exact List.mem_cons_self
        · rw [hnone] at h
          cases h
      · exact List.mem_cons_of_mem _ (ih h)

/-! ## Iteration -/

/-- Sorting rules by category, the categories in some order, loses and repeats none. -/
theorem flatMap_filter_perm (cs : List Category) (hcs : cs.Nodup) (rs : List Rule)
    (hall : ∀ rule ∈ rs, rule.category ∈ cs) :
    (cs.flatMap fun c => rs.filter (·.category = c)).Perm rs := by
  induction cs generalizing rs with
  | nil =>
      have hnil : rs = [] := List.eq_nil_iff_forall_not_mem.mpr fun rule hrule => by
        simpa using hall rule hrule
      rw [hnil]
      exact List.Perm.refl _
  | cons c rest ih =>
      rw [List.nodup_cons] at hcs
      -- the rules of `c` come first, and the rest is sorted without them
      have hrest : (rest.flatMap fun d => rs.filter (·.category = d)) =
          rest.flatMap fun d => (rs.filter fun rule => !decide (rule.category = c)).filter
            (·.category = d) := by
        refine List.flatMap_congr fun d hd => ?_
        rw [List.filter_filter]
        refine List.filter_congr fun rule _ => ?_
        by_cases hcat : rule.category = d
        · have hne : ¬rule.category = c := fun e => hcs.1 (e ▸ hcat ▸ hd)
          have hdc : ¬d = c := fun e => hne (hcat.trans e)
          simp [hcat, hdc]
        · simp [hcat]
      have hperm := ih hcs.2 (rs.filter fun rule => !decide (rule.category = c)) (by
        intro rule hrule
        obtain ⟨hin, hne⟩ := List.mem_filter.mp hrule
        rcases List.mem_cons.mp (hall rule hin) with heq | hmem
        · simp [heq] at hne
        · exact hmem)
      rw [List.flatMap_cons, hrest]
      exact (List.Perm.append_left _ hperm).trans (List.filter_append_perm _ rs)

/-- Categories without rules add nothing to the iteration. -/
theorem toList_eq_flatMap (r : Registry) : r.toList = Category.all.flatMap r.rulesFor := by
  unfold toList categories
  induction Category.all with
  | nil => rfl
  | cons c rest ih =>
      by_cases hc : (r.byCategory.lookup c).isSome = true
      · simp only [List.filter_cons, hc, if_true, List.flatMap_cons, ih]
      · have hempty : r.rulesFor c = [] := by
          rw [rulesFor, Option.not_isSome_iff_eq_none.mp hc]
          rfl
        simp only [List.filter_cons, hc, List.flatMap_cons, hempty, List.nil_append]
        exact ih

theorem Consistent.toList_eq (h : Consistent ρ r) :
    r.toList = Category.all.flatMap fun c => r.rules.filter (·.category = c) := by
  rw [toList_eq_flatMap]
  exact List.flatMap_congr fun c _ => h.rulesFor_eq c

theorem Consistent.toList_perm (h : Consistent ρ r) : r.toList.Perm r.rules := by
  rw [h.toList_eq]
  exact flatMap_filter_perm _ Category.all_nodup _ fun rule _ => Category.mem_all rule.category

theorem Consistent.ids_eq (h : Consistent ρ r) : r.rules.map (·.id) = r.byId.map (·.1) := by
  rw [rules, List.map_map]
  exact List.map_congr_left fun p hp => h.id_eq p hp

/-! ## Both tables know the same rules -/

theorem Consistent.get?_eq_some_iff (h : Consistent ρ r) {id : String} :
    r.get? id = some rule ↔ rule ∈ r.rules ∧ rule.id = id := by
  constructor
  · intro hget
    have hmem := mem_of_lookup_eq_some hget
    exact ⟨List.mem_map.mpr ⟨_, hmem, rfl⟩, h.id_eq _ hmem⟩
  · rintro ⟨hmem, rfl⟩
    obtain ⟨p, hp, rfl⟩ := List.mem_map.mp hmem
    rw [h.id_eq p hp]
    exact lookup_eq_some_of_mem h.ids_nodup hp

theorem Consistent.mem_rulesFor_iff (h : Consistent ρ r) {c : Category} :
    rule ∈ r.rulesFor c ↔ r.get? rule.id = some rule ∧ rule.category = c := by
  rw [h.rulesFor_eq, List.mem_filter, h.get?_eq_some_iff]
  simp

/-- A category is listed only if it has rules. -/
theorem Consistent.mem_categories_iff (h : Consistent ρ r) {c : Category} :
    c ∈ r.categories ↔ r.rulesFor c ≠ [] := by
  rw [categories, List.mem_filter, rulesFor]
  cases hlookup : r.byCategory.lookup c with
  | none => simp
  | some found =>
      have hne := h.nonempty _ (mem_of_lookup_eq_some hlookup)
      simpa [Category.mem_all] using hne

/-! ## Other rules in the same places

Whether a call is refused depends on the id, the category and the weight of a rule only. With other
rules in the same places, the same calls give the same registry, up to the rules. -/

/-- A change of rules that leaves each in its place. -/
structure KeepsPlace (f : Rule → Rule) : Prop where
  id_eq : ∀ rule, (f rule).id = rule.id
  category_eq : ∀ rule, (f rule).category = rule.category
  weight_eq : ∀ rule, (f rule).weight = rule.weight

/-- The registry with all rules changed. -/
def mapRules (f : Rule → Rule) (r : Registry) : Registry :=
  { r with
    byId := r.byId.map fun p => (p.1, f p.2)
    byCategory := r.byCategory.map fun p => (p.1, p.2.map f) }

/-- The call with another rule. -/
def Call.map (f : Rule → Rule) : Call → Call
  | .register rule => .register (f rule)
  | .freeze => .freeze

theorem rulesFor_mapRules (f : Rule → Rule) (r : Registry) (c : Category) :
    (r.mapRules f).rulesFor c = (r.rulesFor c).map f := by
  have hlookup : (r.mapRules f).byCategory.lookup c = (r.byCategory.lookup c).map (List.map f) :=
    lookup_mapValues _ c r.byCategory
  rw [rulesFor, rulesFor, hlookup]
  cases r.byCategory.lookup c <;> rfl

theorem get?_ne_none_of_contains {ids : List String} (h : ∀ id ∈ ids, r.contains id = true) :
    ∀ id ∈ ids, r.get? id ≠ none :=
  fun id hid => Option.isSome_iff_ne_none.mp (h id hid)

theorem contains_mapRules (f : Rule → Rule) (r : Registry) (id : String) :
    (r.mapRules f).contains id = r.contains id := by
  have hlookup : (r.mapRules f).byId.lookup id = (r.byId.lookup id).map f :=
    lookup_mapValues f id r.byId
  rw [contains, contains, get?, get?, hlookup, Option.isSome_map]

theorem weightSum_map (hf : KeepsPlace f) (ρ : Rounding) (rules : List Rule) :
    weightSum ρ (rules.map f) = weightSum ρ rules := by
  simp [weightSum, Function.comp_def, hf.weight_eq]

theorem added_mapRules (hf : KeepsPlace f) (r : Registry) (rule : Rule) :
    (r.mapRules f).added (f rule) = (r.added rule).mapRules f := by
  have hid : alterEntry (f rule).id (fun _ => f rule) (r.byId.map fun p => (p.1, f p.2)) =
      (alterEntry rule.id (fun _ => rule) r.byId).map fun p => (p.1, f p.2) := by
    rw [hf.id_eq]
    exact alterEntry_mapValues f rule.id (fun _ => rfl) r.byId
  have hcategory : alterEntry (f rule).category (fun rules => rules.getD [] ++ [f rule])
        (r.byCategory.map fun p => (p.1, p.2.map f)) =
      (alterEntry rule.category (fun rules => rules.getD [] ++ [rule]) r.byCategory).map fun p =>
        (p.1, p.2.map f) := by
    rw [hf.category_eq]
    refine alterEntry_mapValues (List.map f) rule.category ?_ r.byCategory
    intro old
    cases old <;> simp
  simp only [added, addById, addToCategory, mapRules, hid, hcategory]

theorem register_mapRules (hf : KeepsPlace f) (ρ : Rounding) (r : Registry) (rule : Rule) :
    register ρ (f rule) (r.mapRules f) =
      match register ρ rule r with
      | .ok u r' => .ok u (r'.mapRules f)
      | .error e r' => .error e (r'.mapRules f) := by
  have hfrozen : (r.mapRules f).frozen = r.frozen := rfl
  -- the checks see ids, categories and weights only, and these stay
  have hweight :
      (r.mapRules f).categoryWeight ρ rule.category = r.categoryWeight ρ rule.category := by
    rw [categoryWeight, rulesFor_mapRules, weightSum_map hf, categoryWeight]
  rw [register_run, register_run, hfrozen, hf.id_eq, hf.category_eq, hf.weight_eq,
    contains_mapRules, hweight, added_mapRules hf]
  split
  · rfl
  · split
    · rfl
    · split
      · rfl
      · split
        · rfl
        · rfl

theorem freeze_mapRules (hf : KeepsPlace f) (ρ : Rounding) (r : Registry) :
    freeze ρ (r.mapRules f) =
      match freeze ρ r with
      | .ok u r' => .ok u (r'.mapRules f)
      | .error e r' => .error e (r'.mapRules f) := by
  have hfind : (r.mapRules f).byCategory.find? (fun p => !isComplete ρ (weightSum ρ p.2)) =
      (r.byCategory.find? fun p => !isComplete ρ (weightSum ρ p.2)).map fun p =>
        (p.1, p.2.map f) := by
    rw [mapRules, List.find?_map]
    simp only [Function.comp_def, weightSum_map hf]
  rw [freeze_run, freeze_run, hfind]
  cases r.byCategory.find? fun p => !isComplete ρ (weightSum ρ p.2) with
  | some p => simp [weightSum_map hf]
  | none => rfl

theorem after_mapRules (hf : KeepsPlace f) (ρ : Rounding) (r : Registry) (call : Call) :
    (r.mapRules f).after ρ (call.map f) = (r.after ρ call).mapRules f := by
  cases call with
  | register rule =>
      simp only [after, RegistryM.leaves, Call.map, Call.perform, register_mapRules hf]
      cases register ρ rule r <;> rfl
  | freeze =>
      simp only [after, RegistryM.leaves, Call.map, Call.perform, freeze_mapRules hf]
      cases freeze ρ r <;> rfl

theorem afterAll_mapRules (hf : KeepsPlace f) (ρ : Rounding) (calls : List Call) (r : Registry) :
    (r.mapRules f).afterAll ρ (calls.map (Call.map f)) = (r.afterAll ρ calls).mapRules f := by
  induction calls generalizing r with
  | nil => rfl
  | cons call rest ih =>
      change ((r.mapRules f).after ρ (call.map f)).afterAll ρ (rest.map (Call.map f)) = _
      rw [after_mapRules hf, ih]
      rfl

theorem rules_mapRules (f : Rule → Rule) (r : Registry) : (r.mapRules f).rules = r.rules.map f := by
  simp [rules, mapRules, Function.comp_def]

/-! ## The whole -/

/-- **Registries under any calls.** Starting from nothing, whatever is registered and whenever it is
frozen: the tables agree and the weights are in bounds; both tables know the same rules; a refused
call changes nothing; a frozen registry stays as it is; and the iteration has every accepted rule
once, by category, in the order of registration. -/
theorem registry_after_any_calls (calls : List Call) :
    let r := empty.afterAll .nearest calls
    Consistent .nearest r ∧
      (r.rules.map (·.id)).Nodup ∧
      (∀ c rule, rule ∈ r.rulesFor c ↔ r.get? rule.id = some rule ∧ rule.category = c) ∧
      (∀ id rule, r.get? id = some rule ↔ rule ∈ r.rules ∧ rule.id = id) ∧
      (∀ c, c ∈ r.categories ↔ r.rulesFor c ≠ []) ∧
      (∀ (call : Call) e r', call.perform .nearest r = .error e r' → r' = r) ∧
      (r.frozen = true → ∀ more, r.afterAll .nearest more = r) ∧
      r.rules = accepted .nearest empty calls ∧
      r.toList =
        (Category.all.flatMap fun c => (accepted .nearest empty calls).filter (·.category = c)) ∧
      r.toList.Perm r.rules ∧
      r.toList.length = r.size := by
  intro r
  have h : Consistent .nearest r := consistent_afterAll calls
  have hrules : r.rules = accepted .nearest empty calls := rules_afterAll .nearest calls empty
  refine ⟨h, ?_, fun c rule => h.mem_rulesFor_iff, fun id rule => h.get?_eq_some_iff,
    fun c => h.mem_categories_iff,
    fun call e r' => perform_error, fun hfrozen more => afterAll_of_frozen hfrozen more, hrules, ?_,
      h.toList_perm, ?_⟩
  · rw [h.ids_eq]
    exact h.ids_nodup
  · rw [← hrules]
    exact h.toList_eq
  · rw [h.toList_perm.length_eq, rules, List.length_map, size]

end Registry

end Scorecard
