import Scorecard.Proofs.ConfigErrors
import Scorecard.Proofs.Outcome

set_option autoImplicit false

/-! # Settings that are accepted

A configuration is read exactly if its settings have the right types (`Config.SetBy`, which also
says what each of them comes to) and lie within their bounds (`Config.WithinBounds`):
`Config.ofFields_eq_ok_iff`. Each reader has a lemma that says when it accepts a value, and these
are put together.
-/

namespace Scorecard

variable {fields : Fields} {name : String} {v : Option Value}

/-! ## Values -/

/-- The number that a value stands for: a finite number stands for itself, and an integer for the
nearest number. -/
def Value.number? : Value → Option Number
  | .int n => Number.ofInt? .nearest n
  | .number x => if x.isFinite then some x else none
  | _ => none

theorem Value.isFinite_of_number? {v : Value} {x : Number} (h : v.number? = some x) :
    x.isFinite = true := by
  cases v with
  | int n =>
      simp only [number?, Number.ofInt?] at h
      split at h <;> cases h
      assumption
  | number y =>
      simp only [number?] at h
      split at h <;> cases h
      assumption
  | _ => cases h

theorem readNumber_eq_ok_iff {v : Value} {x : Number} :
    readNumber .nearest name v = .ok x ↔ v.number? = some x := by
  cases v with
  | int n =>
      simp only [readNumber, Value.number?]
      cases Number.ofInt? .nearest n <;> simp
  | number y =>
      simp only [readNumber, Value.number?]
      split <;> simp
  | _ => simp [readNumber, Value.number?]

theorem readInteger_eq_ok_iff {v : Value} {n : Int} : readInteger name v = .ok n ↔ v = .int n := by
  cases v <;> simp [readInteger]

/-! ## Settings that may be missing -/

/-- A setting that may be left out or be `null`, and what it comes to. -/
inductive Optionally {α : Type} (Means : Value → α → Prop) : Option Value → Option α → Prop where
  | missing : Optionally Means none none
  | null : Optionally Means (some .null) none
  | set {v : Value} {a : α} : Means v a → Optionally Means (some v) (some a)

/-- A value stands for a number. -/
def IsNumber (v : Value) (x : Number) : Prop := v.number? = some x

/-- A value is a list of texts. -/
def IsTexts (v : Value) (texts : List String) : Prop := v = .ofTexts texts

/-- A value is an integer. -/
def IsInteger (v : Value) (n : Int) : Prop := v = .int n

theorem Optionally.isFinite {x : Number} (h : Optionally IsNumber v (some x)) :
    x.isFinite = true := by
  cases h with
  | set hx => exact Value.isFinite_of_number? hx

theorem readNumber?_eq_ok_iff (name : String) {r : Option Number} :
    readNumber? .nearest name v = .ok r ↔ Optionally IsNumber v r := by
  constructor
  · intro h
    unfold readNumber? at h
    split at h
    · cases h
      exact .missing
    · cases h
      exact .null
    · obtain ⟨x, hx, rfl⟩ := map_eq_ok_iff.mp h
      exact .set (readNumber_eq_ok_iff.mp hx)
  · rintro (- | - | hx)
    · rfl
    · rfl
    · rename_i v x
      -- a value that stands for a number is not `null`, so the last case of the reader is taken
      have hread : readNumber .nearest name v = .ok x := readNumber_eq_ok_iff.mpr hx
      cases v with
      | null => cases hx
      | _ => exact map_eq_ok_iff.mpr ⟨x, hread, rfl⟩

theorem mapM_text?_eq_some_iff {items : List Value} {texts : List String} :
    items.mapM Value.text? = some texts ↔ items = texts.map .text := by
  induction items generalizing texts with
  | nil => cases texts <;> simp
  | cons v rest ih =>
      simp only [List.mapM_cons, Option.bind_eq_bind, Option.bind_eq_some_iff, Option.pure_def,
        Option.some.injEq]
      constructor
      · rintro ⟨s, hs, ss, hss, rfl⟩
        cases v <;> cases hs
        rw [ih.mp hss, List.map_cons]
      · intro h
        cases texts with
        | nil => cases h
        | cons s ss =>
            cases h
            exact ⟨s, rfl, ss, ih.mpr rfl, rfl⟩

theorem readTexts_eq_ok_iff {texts : List String} :
    readTexts name v = .ok texts ↔ ∃ r, Optionally IsTexts v r ∧ texts = r.getD [] := by
  constructor
  · intro h
    unfold readTexts at h
    split at h
    · cases h
      exact ⟨none, .missing, rfl⟩
    · cases h
      exact ⟨none, .null, rfl⟩
    · split at h <;> cases h
      rename_i htexts
      exact ⟨some texts, .set (congrArg Value.list (mapM_text?_eq_some_iff.mp htexts)), rfl⟩
    · cases h
  · rintro ⟨r, - | - | hv, rfl⟩
    · rfl
    · rfl
    · cases hv
      simp only [readTexts, Value.ofTexts, mapM_text?_eq_some_iff.mpr rfl]

theorem readTexts?_eq_ok_iff {r : Option (List String)} :
    readTexts? name v = .ok r ↔ Optionally IsTexts v r := by
  constructor
  · intro h
    unfold readTexts? at h
    split at h
    · cases h
      exact .missing
    · cases h
      exact .null
    · -- the other reader takes a missing list and `null` for an empty one, but both are gone here
      rename_i hmissing hnull
      obtain ⟨texts, htexts, rfl⟩ := map_eq_ok_iff.mp h
      obtain ⟨r, hr, rfl⟩ := readTexts_eq_ok_iff.mp htexts
      cases hr with
      | missing => exact absurd rfl hmissing
      | null => exact absurd rfl hnull
      | set hv => exact .set hv
  · rintro (- | - | hv)
    · rfl
    · rfl
    · cases hv
      exact map_eq_ok_iff.mpr ⟨_, readTexts_eq_ok_iff.mpr ⟨_, .set rfl, rfl⟩, rfl⟩

/-! ## Parts -/

theorem readFormat_eq_ok_iff {f : Format} :
    readFormat v = .ok f ↔ v = none ∧ f = .text ∨ ∃ s, v = some (.text s) ∧
      Text.lower s = f.name := by
  have hname : ∀ s, Format.ofName? s = some f ↔ s = f.name := by
    intro s
    cases f <;> grind [Format.ofName?, Format.name]
  constructor
  · intro h
    unfold readFormat at h
    split at h
    · cases h
      exact Or.inl ⟨rfl, rfl⟩
    · split at h <;> cases h
      rename_i s hs
      exact Or.inr ⟨_, rfl, (hname _).mp hs⟩
    · split at h <;> cases h
  · rintro (⟨rfl, rfl⟩ | ⟨s, rfl, hs⟩)
    · rfl
    · simp only [readFormat, (hname _).mpr hs]

/-- A number that may be missing and is checked: what is read is the number, with the property that
the check asks for. -/
theorem bind_readNumber?_eq_ok_iff (name : String)
    {check : Option Number → Except ConfigError (Option Number)} {P : Number → Prop}
    (hnone : check none = .ok none)
    (hsome : ∀ x r, x.isFinite = true → (check (some x) = .ok r ↔ P x ∧ r = some x))
    {r : Option Number} :
    (readNumber? .nearest name v >>= check) = .ok r ↔ Optionally IsNumber v r ∧ ∀ x, r = some x →
      P x := by
  rw [bind_eq_ok_iff]
  constructor
  · rintro ⟨found, hfound, h⟩
    have hread := (readNumber?_eq_ok_iff _).mp hfound
    cases found with
    | none =>
        obtain rfl := Except.ok.inj (hnone.symm.trans h)
        exact ⟨hread, fun x hx => by cases hx⟩
    | some x =>
        obtain ⟨hx, rfl⟩ := (hsome x r hread.isFinite).mp h
        exact ⟨hread, fun y hy => Option.some.inj hy ▸ hx⟩
  · rintro ⟨hread, hchecked⟩
    refine ⟨r, (readNumber?_eq_ok_iff _).mpr hread, ?_⟩
    cases r with
    | none => exact hnone
    | some x => exact (hsome x _ hread.isFinite).mpr ⟨hchecked x rfl, rfl⟩

theorem readFailUnder_eq_ok_iff {r : Option Number} :
    readFailUnder .nearest v = .ok r ↔ Optionally IsNumber v r ∧ ∀ x, r = some x → 0 ≤ x.value ∧
      x.value ≤ 10 := by
  rw [readFailUnder]
  refine bind_readNumber?_eq_ok_iff _ (by rfl) fun x r hx => ?_
  -- a number that is read is finite, where the comparisons are those of the values
  have hin : (Number.le (.finite 0) x && x.le (.finite 10)) = true ↔ 0 ≤ x.value ∧
      x.value ≤ 10 := by
    rw [Bool.and_eq_true, Number.le_iff_value_le rfl hx, Number.le_iff_value_le hx rfl]
    rfl
  rw [← hin]
  exact ite_ok_eq_ok_iff

theorem readBudget_eq_ok_iff {r : Option Number} :
    readBudget .nearest v = .ok r ↔ Optionally IsNumber v r ∧ ∀ x, r = some x → 0 < x.value := by
  rw [readBudget]
  refine bind_readNumber?_eq_ok_iff _ (by rfl) fun x r hx => ?_
  have hle : x.le (.finite 0) = true ↔ ¬0 < x.value := by
    rw [Number.le_iff_value_le hx rfl, not_lt]
    rfl
  rw [← not_not (a := 0 < x.value), ← hle]
  exact ite_error_eq_ok_iff

theorem readWorkers_eq_ok_iff {r : Option Int} :
    readWorkers v = .ok r ↔ Optionally IsInteger v r ∧ ∀ n, r = some n → 1 ≤ n := by
  constructor
  · intro h
    refine ⟨?_, fun n hn => readWorkers_pos h n hn⟩
    unfold readWorkers at h
    split at h
    · cases h
      exact .missing
    · cases h
      exact .null
    · obtain ⟨n, hn, h⟩ := bind_eq_ok_iff.mp h
      split at h <;> cases h
      exact .set (readInteger_eq_ok_iff.mp hn)
  · rintro ⟨- | - | hv, hbounds⟩
    · rfl
    · rfl
    · cases hv
      rename_i n
      exact if_neg fun hn => absurd (hbounds n rfl) (by omega)

/-- The settings for the report and what they come to. -/
structure ReportBounds.SetBy (b : ReportBounds) (fields : Fields) : Prop where
  most : IsInteger ((fields.get? "max_recommendations").getD (.int 5)) b.most
  strength : IsNumber ((fields.get? "strength_threshold").getD (.number (.finite 9))) b.strength
  weakness : IsNumber ((fields.get? "weakness_threshold").getD (.number (.finite 6))) b.weakness

/-- What is asked of the bounds of a report. -/
structure ReportBounds.InOrder (b : ReportBounds) : Prop where
  most : 0 ≤ b.most
  isFinite : b.weakness.isFinite = true ∧ b.strength.isFinite = true
  weakness : 0 ≤ b.weakness.value
  weakness_lt : b.weakness.value < b.strength.value
  strength : b.strength.value ≤ 10

theorem readBounds_eq_ok_iff {b : ReportBounds} :
    readBounds .nearest fields = .ok b ↔ b.SetBy fields ∧ b.InOrder := by
  -- both thresholds are finite, where the comparisons are those of the values
  have hin : ∀ {weakness strength : Number}, weakness.isFinite = true → strength.isFinite = true →
      ((Number.le (.finite 0) weakness && weakness.lt strength && strength.le (.finite 10)) = true ↔
        0 ≤ weakness.value ∧ weakness.value < strength.value ∧ strength.value ≤ 10) := by
    intro weakness strength hw hs
    rw [Bool.and_eq_true, Bool.and_eq_true, Number.le_iff_value_le rfl hw,
      Number.lt_iff_value_lt hw hs, Number.le_iff_value_le hs rfl, and_assoc]
    rfl
  constructor
  · intro h
    obtain ⟨most, hmost, hrest⟩ := bind_eq_ok_iff.mp h
    by_cases hneg : most < 0
    · rw [if_pos hneg] at hrest
      cases hrest
    · rw [if_neg hneg] at hrest
      obtain ⟨strength, hstrength, hrest⟩ := bind_eq_ok_iff.mp hrest
      obtain ⟨weakness, hweakness, hrest⟩ := bind_eq_ok_iff.mp hrest
      have hs := readNumber_eq_ok_iff.mp hstrength
      have hw := readNumber_eq_ok_iff.mp hweakness
      by_cases hle : (Number.le (.finite 0) weakness && weakness.lt strength &&
          strength.le (.finite 10)) = true
      · rw [if_pos hle] at hrest
        cases hrest
        have hfinite := And.intro (Value.isFinite_of_number? hw) (Value.isFinite_of_number? hs)
        obtain ⟨hlow, hlt, hhigh⟩ := (hin hfinite.1 hfinite.2).mp hle
        exact ⟨⟨readInteger_eq_ok_iff.mp hmost, hs, hw⟩,
          ⟨not_lt.mp hneg, hfinite, hlow, hlt, hhigh⟩⟩
      · rw [if_neg hle] at hrest
        cases hrest
  · rintro ⟨hset, horder⟩
    have hle :=
      (hin horder.isFinite.1 horder.isFinite.2).mpr
      ⟨horder.weakness, horder.weakness_lt, horder.strength⟩
    refine bind_eq_ok_iff.mpr ⟨b.most, readInteger_eq_ok_iff.mpr hset.most, ?_⟩
    rw [if_neg (by have := horder.most; omega)]
    refine bind_eq_ok_iff.mpr ⟨b.strength, readNumber_eq_ok_iff.mpr hset.strength, ?_⟩
    refine bind_eq_ok_iff.mpr ⟨b.weakness, readNumber_eq_ok_iff.mpr hset.weakness, ?_⟩
    exact if_pos hle

/-! ## Weights -/

/-- The overrides of weights that fields stand for, one for each field. -/
def IsOverrides (fields : Fields) (overrides : List (Category × Number)) : Prop :=
  List.Forall₂ (fun field entry => Category.named? field.1 = some entry.1 ∧
    IsNumber field.2 entry.2) fields overrides

/-- Overrides are put in one after the other, so the last one for a category counts. -/
theorem readWeights_eq_ok_iff {found ws : Weights} :
    readWeights .nearest found fields = .ok ws ↔
      ∃ overrides, IsOverrides fields overrides ∧ ws = overrides.foldl
        (fun ws entry => Weights.set ws entry.1 entry.2) found := by
  induction fields generalizing found with
  | nil =>
      rw [readWeights]
      constructor
      · intro h
        cases h
        exact ⟨[], .nil, rfl⟩
      · rintro ⟨overrides, - | -, rfl⟩
        rfl
  | cons field rest ih =>
      obtain ⟨name, v⟩ := field
      rw [readWeights]
      constructor
      · intro h
        split at h
        · cases h
        · rename_i c hc
          obtain ⟨w, hw, h⟩ := bind_eq_ok_iff.mp h
          -- the rest is read on top of this override
          obtain ⟨overrides, hrest, rfl⟩ := ih.mp h
          exact ⟨(c, w) :: overrides, .cons ⟨hc, readNumber_eq_ok_iff.mp hw⟩ hrest, rfl⟩
      · rintro ⟨overrides, - | ⟨⟨hc, hw⟩, hrest⟩, rfl⟩
        rename_i entry overrides
        simp only [hc]
        exact bind_eq_ok_iff.mpr ⟨entry.2, readNumber_eq_ok_iff.mpr hw,
          ih.mpr ⟨overrides, hrest, rfl⟩⟩

theorem discard_resolve_eq_ok_iff {ws : Weights} :
    discard ((Weights.resolve .nearest ws).mapError ConfigError.weights) = .ok () ↔
      ∃ resolved, Weights.resolve .nearest ws = .ok resolved := by
  cases Weights.resolve .nearest ws with
  | ok resolved => exact ⟨fun _ => ⟨resolved, rfl⟩, fun _ => rfl⟩
  | error e =>
      constructor
      · intro h
        cases h
      · rintro ⟨resolved, h⟩
        cases h

/-! ## Limits -/

theorem Limits.field?_eq_some_iff {f : LimitField} :
    field? name = some f ↔ f ∈ Limits.fields ∧ f.name = name := by
  constructor
  · intro h
    exact ⟨List.mem_of_find?_eq_some h, by simpa using List.find?_some h⟩
  · rintro ⟨hf, rfl⟩
    simp only [Limits.fields, List.mem_cons, List.not_mem_nil, or_false] at hf
    rcases hf with rfl | rfl | rfl | rfl | rfl | rfl | rfl | rfl | rfl | rfl <;> rfl

/-- All limits are positive. -/
def Limits.ArePositive (l : Limits) : Prop := ∀ f ∈ Limits.fields, 1 ≤ f.get l

theorem Limits.arePositive_default : ({} : Limits).ArePositive := by
  unfold ArePositive
  decide

theorem Limits.ArePositive.set {l : Limits} (h : l.ArePositive) {f : LimitField}
    (hf : f ∈ Limits.fields) {n : Int} (hn : 1 ≤ n) : (f.set n l).ArePositive := by
  simp only [ArePositive, fields, List.forall_mem_cons] at h ⊢
  simp only [fields, List.mem_cons, List.not_mem_nil, or_false] at hf
  rcases hf with rfl | rfl | rfl | rfl | rfl | rfl | rfl | rfl | rfl | rfl <;> simp [h, hn]

/-- The limits that fields stand for, one for each field: a limit is a positive integer, and its
name is known. -/
def IsLimits (fields : Fields) (entries : List (LimitField × Int)) : Prop :=
  List.Forall₂ (fun field entry => entry.1 ∈ Limits.fields ∧ entry.1.name = field.1 ∧
    IsInteger field.2 entry.2 ∧ 1 ≤ entry.2)
    fields entries

theorem IsLimits.arePositive {entries : List (LimitField × Int)} (h : IsLimits fields entries)
    {l : Limits} (hl : l.ArePositive) :
    (entries.foldl (fun l entry => entry.1.set entry.2 l) l).ArePositive := by
  induction h generalizing l with
  | nil => exact hl
  | cons hentry _ ih => exact ih (hl.set hentry.1 hentry.2.2.2)

theorem readLimitFields_eq_ok {l l' : Limits}
    (hknown : ∀ p ∈ fields, (Limits.field? p.1).isSome = true)
    (h : readLimitFields l fields = .ok l') :
    ∃ entries, IsLimits fields entries ∧ l' = entries.foldl
      (fun l entry => entry.1.set entry.2 l) l := by
  induction fields generalizing l with
  | nil =>
      cases h
      exact ⟨[], .nil, rfl⟩
  | cons field rest ih =>
      obtain ⟨name, v⟩ := field
      rw [readLimitFields] at h
      obtain ⟨n, hn, h⟩ := bind_eq_ok_iff.mp h
      by_cases hpos : n ≤ 0
      · rw [if_pos hpos] at h
        cases h
      rw [if_neg hpos] at h
      -- unknown names were refused before the first limit is read
      have hname := hknown (name, v) List.mem_cons_self
      cases hfield : Limits.field? name with
      | none =>
          rw [hfield] at hname
          cases hname
      | some f =>
          rw [hfield] at h
          obtain ⟨hf, hfname⟩ := Limits.field?_eq_some_iff.mp hfield
          obtain ⟨entries, hentries, rfl⟩ := ih (fun p hp => hknown p (List.mem_cons_of_mem _ hp)) h
          exact ⟨(f, n) :: entries, .cons ⟨hf, hfname, readInteger_eq_ok_iff.mp hn, by omega⟩
            hentries, rfl⟩

theorem IsLimits.readLimitFields {entries : List (LimitField × Int)} (h : IsLimits fields entries)
    (l : Limits) :
    readLimitFields l fields = .ok (entries.foldl (fun l entry => entry.1.set entry.2 l) l) := by
  induction h generalizing l with
  | nil => rfl
  | @cons field entry rest entries hentry _ ih =>
      obtain ⟨hf, hname, hn, hpos⟩ := hentry
      rw [Scorecard.readLimitFields]
      refine bind_eq_ok_iff.mpr ⟨entry.2, readInteger_eq_ok_iff.mpr hn, ?_⟩
      rw [if_neg (by omega), Limits.field?_eq_some_iff.mpr ⟨hf, hname⟩]
      exact ih _

theorem IsLimits.known {entries : List (LimitField × Int)} (h : IsLimits fields entries) :
    ∀ p ∈ fields, (Limits.field? p.1).isSome = true := by
  induction h with
  | nil => simp
  | cons hentry _ ih =>
      refine List.forall_mem_cons.mpr ⟨?_, ih⟩
      rw [Limits.field?_eq_some_iff.mpr ⟨hentry.1, hentry.2.1⟩]
      rfl

theorem readLimits_eq_ok_iff {l : Limits} :
    readLimits fields = .ok l ↔
      (∃ entries, IsLimits fields entries ∧
        l = entries.foldl (fun l entry => entry.1.set entry.2 l) {}) ∧
        l.leastCommitSubject ≤ l.mostCommitSubject := by
  -- the list of unknown names is empty exactly if each name is the name of a limit
  have hunknown :
      ((fields.map (·.1)).filter fun name => (Limits.field? name).isNone).isEmpty = true ↔
      ∀ p ∈ fields, (Limits.field? p.1).isSome = true := by
    simp [Option.isSome_iff_ne_none]
  simp only [readLimits]
  by_cases hknown :
      ((fields.map (·.1)).filter fun name => (Limits.field? name).isNone).isEmpty = true
  · simp only [hknown, Bool.not_true, Bool.false_eq_true, if_false]
    constructor
    · intro h
      obtain ⟨limits, hlimits, h⟩ := bind_eq_ok_iff.mp h
      by_cases horder : limits.mostCommitSubject < limits.leastCommitSubject
      · rw [if_pos horder] at h
        cases h
      · rw [if_neg horder] at h
        cases h
        exact ⟨readLimitFields_eq_ok (hunknown.mp hknown) hlimits, not_lt.mp horder⟩
    · rintro ⟨⟨entries, hentries, rfl⟩, horder⟩
      exact bind_eq_ok_iff.mpr ⟨_, hentries.readLimitFields {}, if_neg (not_lt.mpr horder)⟩
  · simp only [hknown]
    constructor
    · intro h
      cases h
    · rintro ⟨⟨entries, hentries, -⟩, -⟩
      exact absurd (hunknown.mpr hentries.known) hknown

/-! ## Whole configurations -/

/-- The fields of a table; a missing table has none. -/
def Fields.inTable (fields : Fields) (name : String) : Fields := (fields.table? name).getD []

theorem readTable_eq_ok_iff {fields inner : Fields} :
    readTable name (fields.get? name) = .ok inner ↔ IsTable (fields.get? name) ∧
      inner = fields.inTable name := by
  constructor
  · intro h
    refine ⟨?_, readTable_eq_ok h⟩
    unfold readTable at h
    split at h
    · exact Or.inl ‹_›
    · exact Or.inr (Or.inl ‹_›)
    · exact Or.inr (Or.inr ⟨_, ‹_›⟩)
    · cases h
  · rintro ⟨htable, rfl⟩
    obtain ⟨inner, hinner⟩ := readTable_of_isTable name htable
    rw [hinner, readTable_eq_ok hinner]
    rfl

/-- **What settings come to.** The settings have the right types, and the configuration is made of
them and of defaults. Fields that are not known do not matter, except among the limits. -/
structure Config.SetBy (c : Config) (source : String) (fields : Fields) : Prop where
  tables : ∀ name ∈ tableNames, IsTable (fields.get? name)
  format : fields.get? "format" = none ∧ c.format = .text ∨
    ∃ s, fields.get? "format" = some (.text s) ∧ Text.lower s = c.format.name
  failUnder : Optionally IsNumber (fields.get? "fail_under") c.failUnder
  included : ∃ r, Optionally IsTexts (fields.get? "include") r ∧ c.included = r.getD []
  excluded : ∃ r, Optionally IsTexts (fields.get? "exclude") r ∧ c.excluded = r.getD []
  weights : ∃ overrides, IsOverrides (fields.inTable "weights") overrides ∧
    c.weights = overrides.foldl (fun ws entry => Weights.set ws entry.1 entry.2) []
  enabled : Optionally IsTexts ((fields.inTable "rules").get? "enable") c.enabled
  disabled : ∃ r, Optionally IsTexts ((fields.inTable "rules").get? "disable") r ∧
    c.disabled = r.getD []
  bounds : c.bounds.SetBy (fields.inTable "report")
  workers : Optionally IsInteger ((fields.inTable "evaluation").get? "max_workers") c.workers
  budget : Optionally IsNumber ((fields.inTable "evaluation").get? "budget_seconds") c.budget
  limits : ∃ entries, IsLimits (fields.inTable "limits") entries ∧
    c.limits = entries.foldl (fun l entry => entry.1.set entry.2 l) {}
  source : c.source = some source

/-- **The bounds of a configuration.** -/
structure Config.WithinBounds (c : Config) : Prop where
  failUnder : ∀ x, c.failUnder = some x → x.Within 0 10
  weights : ∀ p ∈ c.weights, p.2.isFinite = true ∧ 0 ≤ p.2.value
  total : ((Weights.withDefaults c.weights).total .nearest).isFinite = true ∧
    |((Weights.withDefaults c.weights).total .nearest).value - 1| ≤ 1 / 10 ^ 6
  bounds : c.bounds.InOrder
  workers : ∀ n, c.workers = some n → 1 ≤ n
  budget : ∀ x, c.budget = some x → x.isFinite = true ∧ 0 < x.value
  limits : c.limits.ArePositive
  commitSubject : c.limits.leastCommitSubject ≤ c.limits.mostCommitSubject

/-- **Which configurations are read**: those with settings of the right types within their
bounds. -/
theorem Config.ofFields_eq_ok_iff {source : String} {c : Config} :
    Config.ofFields .nearest source fields = .ok c ↔ c.SetBy source fields ∧ c.WithinBounds := by
  simp only [Config.ofFields, bind_eq_ok_iff, readTable_eq_ok_iff, readFormat_eq_ok_iff,
    readFailUnder_eq_ok_iff,
    readWeights_eq_ok_iff, readTexts_eq_ok_iff, readTexts?_eq_ok_iff, readBounds_eq_ok_iff,
      readWorkers_eq_ok_iff,
    readBudget_eq_ok_iff, readLimits_eq_ok_iff]
  constructor
  · rintro ⟨-, ⟨hrules, rfl⟩, -, ⟨hweightTable, rfl⟩, -, ⟨hreport, rfl⟩, -, ⟨hevaluation, rfl⟩, -,
      ⟨hlimitTable, rfl⟩, format, hformat,
      failUnder, ⟨hfailUnder, hfailUnderIn⟩, weights, hweights, u, hresolve, included, hincluded,
        excluded, hexcluded, enabled,
      henabled, disabled, hdisabled, bounds, ⟨hbounds, hboundsIn⟩, workers, ⟨hworkers, hworkersIn⟩,
        budget, ⟨hbudget, hbudgetIn⟩,
      limits, ⟨hlimits, hlimitsIn⟩, hc⟩
    cases hc
    -- the weights are resolved for their errors only, and the overrides are kept
    obtain ⟨resolved, hresolved⟩ := discard_resolve_eq_ok_iff.mp hresolve
    obtain ⟨rfl, hnonneg, htotal⟩ := Weights.resolve_eq_ok_iff.mp hresolved
    refine ⟨⟨?_, hformat, hfailUnder, hincluded, hexcluded, hweights, henabled, hdisabled, hbounds,
      hworkers, hbudget, hlimits, rfl⟩,
      ⟨?_, hnonneg, htotal, hboundsIn, hworkersIn, ?_, ?_, hlimitsIn⟩⟩
    · simp only [tableNames, List.forall_mem_cons]
      exact ⟨hrules, hweightTable, hreport, hevaluation, hlimitTable,
        fun name hname => by cases hname⟩
    · rintro x rfl
      exact ⟨hfailUnder.isFinite, hfailUnderIn x rfl⟩
    · rintro x rfl
      exact ⟨hbudget.isFinite, hbudgetIn x rfl⟩
    · obtain ⟨entries, hentries, rfl⟩ := hlimits
      exact hentries.arePositive Limits.arePositive_default
  · rintro ⟨hset, hin⟩
    have htables := hset.tables
    simp only [tableNames, List.forall_mem_cons] at htables
    obtain ⟨hrules, hweights, hreport, hevaluation, hlimits, -⟩ := htables
    refine ⟨_, ⟨hrules, rfl⟩, _, ⟨hweights, rfl⟩, _, ⟨hreport, rfl⟩, _, ⟨hevaluation, rfl⟩, _,
      ⟨hlimits, rfl⟩, c.format, hset.format,
      c.failUnder, ⟨hset.failUnder, fun x hx => (hin.failUnder x hx).2⟩, c.weights, hset.weights,
        (), ?_,
      c.included, hset.included, c.excluded, hset.excluded, c.enabled, hset.enabled, c.disabled,
        hset.disabled,
      c.bounds, ⟨hset.bounds, hin.bounds⟩, c.workers, ⟨hset.workers, hin.workers⟩,
      c.budget, ⟨hset.budget, fun x hx => (hin.budget x hx).2⟩, c.limits,
        ⟨hset.limits, hin.commitSubject⟩, ?_⟩
    · exact discard_resolve_eq_ok_iff.mpr
        ⟨_, Weights.resolve_eq_ok_iff.mpr ⟨rfl, hin.weights, hin.total⟩⟩
    · rw [← hset.source]
      rfl

theorem Config.WithinBounds.resolve {c : Config} (h : c.WithinBounds) :
    ∃ ws, Weights.resolve .nearest c.weights = .ok ws ∧ ws.map (·.1) = Category.all ∧
      (∀ p ∈ ws, p.2.isFinite = true ∧ 0 ≤ p.2.value) ∧
      (ws.total .nearest).isFinite = true ∧ |(ws.total .nearest).value - 1| ≤ 1 / 10 ^ 6 := by
  have hresolve : Weights.resolve .nearest c.weights = .ok (Weights.withDefaults c.weights) :=
    Weights.resolve_eq_ok_iff.mpr ⟨rfl, h.weights, h.total⟩
  refine ⟨_, hresolve, (Weights.resolve_eq_ok hresolve).1.categories_eq, fun p hp => ?_, h.total⟩
  exact Weights.sound_iff.mp (Weights.sound_withDefaults
    (fun q hq => Weights.sound_iff.mpr (h.weights q hq)) p hp)

/-- **Which settings are accepted.** A configuration that is read is made of its settings, and it is
sound: every value lies within its bounds, and the weights resolve to one weight for each category,
none of them negative, with a sum within one millionth of one. Conversely, settings of the right
types that come to a configuration within its bounds are read as this configuration. -/
theorem accepted_settings_sound (source : String) (fields : Fields) :
    (∀ c, Config.ofFields .nearest source fields = .ok c →
      c.format.name ∈ ["text", "json"] ∧ c.SetBy source fields ∧ c.WithinBounds ∧
      ∃ ws, Weights.resolve .nearest c.weights = .ok ws ∧ ws.map (·.1) = Category.all ∧
        (∀ p ∈ ws, p.2.isFinite = true ∧ 0 ≤ p.2.value) ∧
        (ws.total .nearest).isFinite = true ∧ |(ws.total .nearest).value - 1| ≤ 1 / 10 ^ 6) ∧
    ∀ c : Config, c.SetBy source fields → c.WithinBounds →
      Config.ofFields .nearest source fields = .ok c := by
  refine ⟨fun c h => ?_, fun c hset hin => Config.ofFields_eq_ok_iff.mpr ⟨hset, hin⟩⟩
  obtain ⟨hset, hin⟩ := Config.ofFields_eq_ok_iff.mp h
  refine ⟨?_, hset, hin, hin.resolve⟩
  cases c.format <;> decide

end Scorecard
