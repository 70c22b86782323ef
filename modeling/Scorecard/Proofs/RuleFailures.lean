import Scorecard.Proofs.IntegerRange
import Scorecard.Proofs.RuleTotality

set_option autoImplicit false

/-! # When a built-in rule fails

The built-in rules that compare numbers fail on a fact of their kind that has no number, and no
other built-in rule ever fails, as long as all integers can be written (`catalog_fails_iff`). Only
these facts decide about a failure: neither the limits nor the order or the values of other facts
have a say in it (`builtIn_fails_iff_numeric`).
-/

namespace Scorecard

/-! ## Facts without a number -/

/-- A value that is no number: a text, or an integer beyond the range of numbers. -/
def FactValue.LacksNumber : FactValue → Prop
  | .text _ => True
  | .int n => Rounding.tooLargeFrom ≤ n.natAbs
  | _ => False

theorem not_readsAs_count_iff (f : Fact) : ¬f.ReadsAs .nearest .count ↔ f.value.LacksNumber := by
  unfold Fact.ReadsAs Fact.number
  cases f.value with
  | bool b => simp [FactValue.LacksNumber]
  | number x => simp [FactValue.LacksNumber]
  | text s => simp [FactValue.LacksNumber]
  | int n =>
      rw [FactValue.LacksNumber, ← Number.ofInt?_eq_none_iff]
      cases hnumber : Number.ofInt? .nearest n <;> simp [hnumber]

/-- What is not read as a number can always be read, if integers can be written. -/
theorem readsAs_of_ne_count {f : Fact} (hdigits : ∀ n, f.value = .int n → isPrintable n = true)
    {type : ValueType} (h : type ≠ .count) : f.ReadsAs .nearest type := by
  cases type with
  | truth => trivial
  | count => exact absurd rfl h
  | label =>
      refine ⟨f.value.label, if_pos ?_⟩
      cases hvalue : f.value with
      | int n => exact hdigits n hvalue
      | bool b => rfl
      | number x => rfl
      | text s => rfl

/-! ## Rules that compare numbers -/

namespace Catalog

/-- The rules that compare a number with a limit. -/
def numericRules : List String :=
  ["layout.line_length", "function_design.length", "function_design.arguments",
    "function_design.complexity",
   "class_design.method_count", "class_design.base_count", "configuration.module_size",
     "testing.assertions",
   "performance.loop_nesting"]

/-- They are those that are about counts. -/
theorem mem_numericRules_iff : ∀ row ∈ kinds, row.1 ∈ numericRules ↔
    (row.2, .count) ∈ Kind.types := by decide +kernel

/-- A rule is about one kind of facts. -/
theorem kind_unique : ∀ row ∈ kinds, ∀ other ∈ kinds, row.1 = other.1 → row.2 = other.2 := by
  decide +kernel

end Catalog

/-- A built-in rule that gives no result fails. -/
theorem fails_of_not_gives {rule : Rule} {judge : FactModel → Except Fault RuleResult}
    {kinds : List String} (hform : rule.HasForm .nearest judge kinds) {m : FactModel}
    (h : ¬rule.Gives m) : rule.Fails m := by
  rcases hform.result_or_raised m with ⟨res, hres⟩ | ⟨f, hf⟩
  · have hinfinite : res.score.isFinite = false := by
      by_contra hfinite
      exact h ⟨res, hres, by simpa using hfinite⟩
    exact Or.inr (Or.inr ⟨res, Or.inl hres, Or.inl hinfinite⟩)
  · exact Or.inl ⟨f, Or.inl hf⟩

/-- A built-in rule fails exactly if it gives no result: what it finds lies in the code base. -/
theorem fails_iff_not_gives {rule : Rule} {judge : FactModel → Except Fault RuleResult}
    {kinds : List String} (hform : rule.HasForm .nearest judge kinds) {facts : List Fact}
    {files : List String} {root : String} :
    rule.Fails (.build facts files root) ↔ ¬rule.Gives (.build facts files root) := by
  refine ⟨fun hfails hgives => ?_, fails_of_not_gives hform⟩
  have hsucceeds := (succeeds_of_gives hform hgives).1
  rw [(run_failed_iff rule _).mpr hfails] at hsucceeds
  cases hsucceeds

/-- It gives none exactly if some fact of its kind cannot be read. -/
theorem Rule.Reads.not_gives_iff {rule : Rule} {kind : String} {type : ValueType}
    (h : rule.Reads .nearest kind type) {facts : List Fact} {files : List String} {root : String} :
    ¬rule.Gives (.build facts files root) ↔ ∃ f ∈ facts, f.kind = kind ∧
      ¬f.ReadsAs .nearest type := by
  rw [h.gives_iff, FactModel.ofKind_build]
  push Not
  constructor
  · rintro ⟨f, hf, hunread⟩
    obtain ⟨hmem, hkind⟩ := List.mem_filter.mp hf
    exact ⟨f, hmem, of_decide_eq_true hkind, hunread⟩
  · rintro ⟨f, hmem, hkind, hunread⟩
    exact ⟨f, List.mem_filter.mpr ⟨hmem, decide_eq_true hkind⟩, hunread⟩

section Failures

variable {facts : List Fact} (hdigits : ∀ f ∈ facts, ∀ n, f.value = .int n → isPrintable n = true)
  {files : List String}
  {root : String}
include hdigits

/-- **When a rule of the catalog fails**: if it compares numbers and a fact of its kind has none. -/
theorem catalog_fails_iff (limits : Limits) : ∀ rule ∈ Catalog.rules .nearest limits,
    rule.Fails (.build facts files root) ↔
      rule.id ∈ Catalog.numericRules ∧ ∃ f ∈ facts, (rule.id, f.kind) ∈ Catalog.kinds ∧
        f.value.LacksNumber := by
  intro rule hrule
  obtain ⟨judge, kinds, hform⟩ := catalog_form .nearest limits rule hrule
  obtain ⟨kind, type, htype, hreads⟩ := catalog_reads .nearest limits rule hrule
  have hkind := hreads.mem_kinds
  have hnumeric : rule.id ∈ Catalog.numericRules ↔ type = .count := by
    rw [Catalog.mem_numericRules_iff _ hkind]
    constructor
    · intro hcount
      exact Kind.type_unique _ htype _ hcount rfl
    · rintro rfl
      exact htype
  rw [fails_iff_not_gives hform, hreads.not_gives_iff]
  constructor
  · rintro ⟨f, hmem, rfl, hunread⟩
    -- a name or a truth value can be read off every fact
    have hcount : type = .count := by
      by_contra hother
      exact hunread (readsAs_of_ne_count (hdigits f hmem) hother)
    subst hcount
    exact ⟨hnumeric.mpr rfl, f, hmem, hkind, (not_readsAs_count_iff f).mp hunread⟩
  · rintro ⟨hmember, f, hmem, hkind', hlacks⟩
    obtain rfl := hnumeric.mp hmember
    exact ⟨f, hmem, Catalog.kind_unique _ hkind' _ hkind rfl, (not_readsAs_count_iff f).mpr hlacks⟩

/-- With the built-in rules every category has a score that says of each active rule whether it
failed. -/
theorem exists_score_failed_iff (limits : Limits) (active : Option (List String)) (c : Category) :
    ∃ s, evaluate .nearest (.build facts files root) (.builtIn .nearest limits) active c = .ok s ∧
      s.outcomes.map (·.ruleId) = ((Registry.builtIn .nearest limits).activeRules active c).map
        (·.id) ∧
      ∀ o ∈ s.outcomes, o.failed = true ↔
        o.ruleId ∈ Catalog.numericRules ∧ ∃ f ∈ facts, (o.ruleId, f.kind) ∈ Catalog.kinds ∧
          f.value.LacksNumber := by
  obtain ⟨s, hs, hreports⟩ :=
    Registry.exists_builtIn_score limits (.build facts files root) active c
  refine ⟨s, hs, ?_, ?_⟩
  · rw [hreports.outcomes_eq, List.map_map, List.map_map]
    exact List.map_congr_left fun rule _ => run_ruleId rule _
  · intro o ho
    rw [hreports.outcomes_eq, List.map_map] at ho
    obtain ⟨rule, hrule, rfl⟩ := List.mem_map.mp ho
    rw [Function.comp_apply, run_failed_iff, run_ruleId]
    exact catalog_fails_iff hdigits limits rule (Registry.mem_of_mem_activeRules hrule).1

end Failures

/-- **Exactly when a built-in rule fails.** On facts whose integers can be written, the built-in
rules recorded as failed are those that compare numbers and have a fact of their kind that holds a
text or an integer beyond the range of numbers. Whether a rule fails is decided by these facts
alone: other limits, other files, another order and other facts besides make no difference. -/
theorem builtIn_fails_iff_numeric (limits : Limits) (facts : List Fact) (files : List String)
    (root : String) (active : Option (List String)) (c : Category)
    (hdigits : ∀ f ∈ facts, ∀ n, f.value = .int n → isPrintable n = true) :
    ∃ s, evaluate .nearest (.build facts files root) (.builtIn .nearest limits) active c = .ok s ∧
      s.outcomes.map (·.ruleId) =
        ((Registry.builtIn .nearest limits).activeRules active c).map (·.id) ∧
      (∀ o ∈ s.outcomes, o.failed = true ↔
        o.ruleId ∈ Catalog.numericRules ∧
          ∃ f ∈ facts, (o.ruleId, f.kind) ∈ Catalog.kinds ∧ f.value.LacksNumber) ∧
      ∀ (limits' : Limits) (facts' : List Fact) (files' : List String) (root' : String)
        (active' : Option (List String)) (s' : CategoryScore),
        (∀ f ∈ facts', ∀ n, f.value = .int n → isPrintable n = true) →
          evaluate .nearest (.build facts' files' root') (.builtIn .nearest limits') active' c =
            .ok s' →
            ∀ o ∈ s.outcomes, ∀ o' ∈ s'.outcomes, o.ruleId = o'.ruleId →
              (∀ f, (o.ruleId, f.kind) ∈ Catalog.kinds → f.value.LacksNumber →
                (f ∈ facts ↔ f ∈ facts')) → o.failed = o'.failed := by
  obtain ⟨s, hs, hids, hfailed⟩ := exists_score_failed_iff hdigits limits active c
  refine ⟨s, hs, hids, hfailed, ?_⟩
  intro limits' facts' files' root' active' s' hdigits' hs' o ho o' ho' hsame hfacts
  obtain ⟨t, ht, -, hfailed'⟩ := exists_score_failed_iff hdigits' limits' active' c
  obtain rfl : t = s' := Except.ok.inj (ht.symm.trans hs')
  -- both sides ask for a fact that decides, and these are the same facts
  rw [Bool.eq_iff_iff, hfailed o ho, hfailed' o' ho', ← hsame]
  refine and_congr_right fun _ => ?_
  constructor
  · rintro ⟨f, hmem, hkind, hlacks⟩
    exact ⟨f, (hfacts f hkind hlacks).mp hmem, hkind, hlacks⟩
  · rintro ⟨f, hmem, hkind, hlacks⟩
    exact ⟨f, (hfacts f hkind hlacks).mpr hmem, hkind, hlacks⟩

/-- A text in the place of a length makes one rule fail. A number in the place of a name makes none
fail. -/
theorem builtIn_fails_iff_numeric_text :
    let name : Fact := { kind := Kind.functionName, location := .codebase, value := .int 7 }
    let length : Fact := { kind := Kind.lineLength, location := .codebase, value := .text "long" }
    (∀ f ∈ [name, length], ∀ n, f.value = .int n → isPrintable n = true) ∧
      ∃ s,
        evaluate .nearest (.build [name, length] [] ".") (.builtIn .nearest {}) none .layout =
          .ok s ∧
        ∀ o ∈ s.outcomes, o.failed = true ↔ o.ruleId = "layout.line_length" := by
  intro name length
  have hdigits : ∀ f ∈ [name, length], ∀ n, f.value = .int n → isPrintable n = true := by
    simp only [List.forall_mem_cons]
    refine ⟨?_, ?_, List.forall_mem_nil _⟩
    · rintro _ ⟨⟩
      decide
    · rintro _ ⟨⟩
  obtain ⟨s, hs, -, hfailed, -⟩ :=
    builtIn_fails_iff_numeric {} [name, length] [] "." none .layout hdigits
  refine ⟨hdigits, s, hs, fun o ho => (hfailed o ho).trans ?_⟩
  have hlength : ∀ row ∈ Catalog.kinds, row.2 = Kind.lineLength → row.1 = "layout.line_length" := by
    decide +kernel
  have hname : ∀ row ∈ Catalog.kinds, row.2 = Kind.functionName → row.1 ∉ Catalog.numericRules := by
    decide +kernel
  constructor
  · rintro ⟨hnumeric, f, hf, hkind, -⟩
    rcases List.mem_cons.mp hf with rfl | hf
    · exact absurd hnumeric (hname _ hkind rfl)
    · rw [List.mem_singleton.mp hf] at hkind
      exact hlength _ hkind rfl
  · intro hid
    rw [hid]
    exact ⟨by decide, length, by simp, by decide, trivial⟩

end Scorecard
