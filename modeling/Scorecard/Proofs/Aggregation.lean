import Scorecard.Proofs.ScoreOrder

set_option autoImplicit false

/-! # What can be combined

Scores are combined if there is exactly one for each category, the weights resolve, and the places
that are recommended can be written. Four things can be wrong, and they are looked for one after the
other: a category may come twice, a category may be missing, the weights may be refused, a place may
have a line with too many digits. What is wrong first is told, whatever else is wrong
(`repeated?_cases`, `aggregate_accepts_complete`). Scores that can be combined are put in the order
of the categories before anything else happens, so that the order in which they come is of no
account (`aggregate_perm`).
-/

namespace Scorecard

/-! ## Repeated categories -/

/-- The category of the first score that has the category of an earlier one. -/
def IsFirstRepeated (scores : List CategoryScore) (c : Category) : Prop :=
  ∃ before s later, scores = before ++ s :: later ∧ (before.map (·.category)).Nodup ∧
    s.category = c ∧ ∃ earlier ∈ before, earlier.category = c

/-- Going through scores with the categories that were seen before: the first one that comes again
is found, and if none is found all categories are distinct. -/
theorem repeated?_cases (before : List CategoryScore) (hbefore : (before.map (·.category)).Nodup)
    {seen : List Category} (hseen : ∀ c, c ∈ seen ↔ c ∈ before.map (·.category))
    (scores : List CategoryScore) :
    (repeated? seen scores = none ∧ ((before ++ scores).map (·.category)).Nodup) ∨
      ∃ c, repeated? seen scores = some c ∧ IsFirstRepeated (before ++ scores) c := by
  induction scores generalizing before seen with
  | nil =>
      rw [List.append_nil]
      exact Or.inl ⟨rfl, hbefore⟩
  | cons s rest ih =>
      by_cases hagain : s.category ∈ seen
      · obtain ⟨earlier, hearlier, hcategory⟩ := List.mem_map.mp ((hseen s.category).mp hagain)
        refine Or.inr ⟨s.category, ?_, before, s, rest, rfl, hbefore, rfl, earlier, hearlier,
          hcategory⟩
        rw [repeated?, if_pos (List.contains_iff_mem.mpr hagain)]
      · -- the score is new, and it counts as seen from here on
        have hnew : s.category ∉ before.map (·.category) :=
          fun hmem => hagain ((hseen s.category).mpr hmem)
        have hbefore' : ((before ++ [s]).map (·.category)).Nodup := by
          rw [List.map_append, List.map_singleton, ← List.concat_eq_append]
          exact hbefore.concat hnew
        have hseen' : ∀ c, c ∈ s.category :: seen ↔ c ∈ (before ++ [s]).map (·.category) := by
          intro c
          rw [List.mem_cons, List.map_append, List.map_singleton, List.mem_append,
            List.mem_singleton, hseen]
          exact or_comm
        have hrest := ih (before ++ [s]) hbefore' hseen'
        rw [List.append_assoc] at hrest
        rw [repeated?, if_neg fun h => hagain (List.contains_iff_mem.mp h)]
        exact hrest

theorem repeated?_nil_cases (scores : List CategoryScore) :
    (repeated? [] scores = none ∧ (scores.map (·.category)).Nodup) ∨
      ∃ c, repeated? [] scores = some c ∧ IsFirstRepeated scores c :=
  repeated?_cases [] List.nodup_nil (fun _ => Iff.rfl) scores

theorem exists_isFirstRepeated {scores : List CategoryScore}
    (h : ¬(scores.map (·.category)).Nodup) : ∃ c, IsFirstRepeated scores c := by
  rcases repeated?_nil_cases scores with ⟨-, hnodup⟩ | ⟨c, -, hfirst⟩
  · exact absurd hnodup h
  · exact ⟨c, hfirst⟩

theorem IsFirstRepeated.not_nodup {scores : List CategoryScore} {c : Category}
    (h : IsFirstRepeated scores c) : ¬(scores.map (·.category)).Nodup := by
  obtain ⟨before, s, later, rfl, -, rfl, earlier, hearlier, hcategory⟩ := h
  intro hnodup
  rw [List.map_append, List.map_cons] at hnodup
  exact (List.nodup_append.mp hnodup).2.2 _ (List.mem_map.mpr ⟨earlier, hearlier, hcategory⟩)
    _ List.mem_cons_self rfl

/-- Only one category is the first that comes again. -/
theorem IsFirstRepeated.unique {scores : List CategoryScore} {c d : Category}
    (hc : IsFirstRepeated scores c) (hd : IsFirstRepeated scores d) : c = d := by
  obtain ⟨before, s, later, rfl, hbefore, rfl, hearlier⟩ := hc
  obtain ⟨before', t, later', hsame, hbefore', rfl, hearlier'⟩ := hd
  -- if one of the two came before the other, what stands before the other would not be distinct
  rcases List.append_eq_append_iff.mp hsame with ⟨between, rfl, hrest⟩ | ⟨between, rfl, hrest⟩
  · cases between with
    | nil => exact congrArg CategoryScore.category (List.cons.inj hrest).1
    | cons first others =>
        obtain ⟨rfl, -⟩ := List.cons.inj hrest
        have hagain : IsFirstRepeated (before ++ s :: others) s.category :=
          ⟨before, s, others, rfl, hbefore, rfl, hearlier⟩
        exact absurd hbefore' hagain.not_nodup
  · cases between with
    | nil => exact (congrArg CategoryScore.category (List.cons.inj hrest).1).symm
    | cons first others =>
        obtain ⟨rfl, -⟩ := List.cons.inj hrest
        have hagain : IsFirstRepeated (before' ++ t :: others) t.category :=
          ⟨before', t, others, rfl, hbefore', rfl, hearlier'⟩
        exact absurd hbefore hagain.not_nodup

/-! ## Missing categories -/

/-- Scores of distinct categories are complete exactly if no category is missing. -/
theorem completeScores_iff {scores : List CategoryScore}
    (hnodup : (scores.map (·.category)).Nodup) :
    CompleteScores scores ↔ ∀ c, c ∈ scores.map (·.category) := by
  rw [CompleteScores, List.perm_ext_iff_of_nodup hnodup Category.all_nodup]
  exact forall_congr' fun c => iff_true_right (Category.mem_all c)

/-- What is missing: the categories without a score, in their order. -/
structure AreMissing (scores : List CategoryScore) (missing : List Category) : Prop where
  mem_iff : ∀ c, c ∈ missing ↔ ∀ s ∈ scores, s.category ≠ c
  in_order : missing.Sublist Category.all

theorem areMissing_filter (scores : List CategoryScore) :
    AreMissing scores (Category.all.filter fun c => decide (c ∉ scores.map (·.category))) := by
  refine ⟨fun c => ?_, List.filter_sublist⟩
  rw [List.mem_filter, decide_eq_true_eq, and_iff_right (Category.mem_all c), List.mem_map]
  constructor
  · intro hnone s hs hcategory
    exact hnone ⟨s, hs, hcategory⟩
  · rintro hnone ⟨s, hs, hcategory⟩
    exact hnone s hs hcategory

/-! ## Combining -/

/-- Complete scores are the same for all their orders once they are in the order of the
categories. -/
theorem filterMap_scoreOf?_perm {scores scores' : List CategoryScore} (h : scores'.Perm scores)
    (hcomplete : CompleteScores scores) :
    Category.all.filterMap (scoreOf? scores') = Category.all.filterMap (scoreOf? scores) := by
  refine List.filterMap_congr fun c _ => ?_
  have hcomplete' : CompleteScores scores' := (h.map _).trans hcomplete
  obtain ⟨s, hs, rfl⟩ := List.mem_map.mp (hcomplete.mem_iff.mpr (Category.mem_all c))
  rw [scoreOf?_of_mem hcomplete.nodup hs, scoreOf?_of_mem hcomplete'.nodup (h.mem_iff.mpr hs)]

section Aggregate

variable {ρ : Rounding} {scores : List CategoryScore} (weights : Weights) (bounds : ReportBounds)

/-- A category that comes twice is told first. -/
theorem aggregate_of_repeated {c : Category} (h : IsFirstRepeated scores c) :
    aggregate ρ scores weights bounds = .error (.duplicate c) := by
  rcases repeated?_nil_cases scores with ⟨-, hnodup⟩ | ⟨d, hd, hfirst⟩
  · exact absurd hnodup h.not_nodup
  · unfold aggregate
    rw [hd, hfirst.unique h]

/-- Without a category that comes twice, all that are missing are told. -/
theorem exists_missing (hnodup : (scores.map (·.category)).Nodup) (hnot : ¬CompleteScores scores) :
    ∃ missing, missing ≠ [] ∧ AreMissing scores missing ∧
      aggregate .nearest scores weights bounds = .error (.incomplete missing) := by
  have hsome : (Category.all.filter fun c => decide (c ∉ scores.map (·.category))) ≠ [] := by
    intro hnil
    refine hnot ((completeScores_iff hnodup).mpr fun c => ?_)
    by_contra habsent
    have hmem : c ∈ Category.all.filter fun c => decide (c ∉ scores.map (·.category)) :=
      List.mem_filter.mpr ⟨Category.mem_all c, decide_eq_true habsent⟩
    rw [hnil] at hmem
    cases hmem
  exact ⟨_, hsome, areMissing_filter scores, aggregate_incomplete hnodup weights bounds rfl hsome⟩

/-- With all categories there, the weights are looked at next. -/
theorem aggregate_of_unresolved (hcomplete : CompleteScores scores) {e : WeightError}
    (h : Weights.resolve ρ weights = .error e) :
    aggregate ρ scores weights bounds = .error (.weights e) := by
  have hnone : (Category.all.filter fun c => decide (c ∉ scores.map (·.category))) = [] := by
    rw [List.filter_eq_nil_iff]
    intro c hc
    simpa using List.mem_map.mp (hcomplete.mem_iff.mpr hc)
  unfold aggregate
  rw [repeated?_eq_none hcomplete.nodup [] (by simp), missing_eq, hnone, h]
  rfl

/-- With weights that resolve, the recommendations are written last. -/
theorem aggregate_of_unwritable (hrange : ∀ s ∈ scores, s.InRange)
    (hcomplete : CompleteScores scores) {ws : Weights}
    (hws : Weights.resolve .nearest weights = .ok ws)
    (hwritable : ¬AreWritable bounds.most scores) :
    aggregate .nearest scores weights bounds = .error (.unwritable .tooManyDigits) := by
  obtain ⟨scoreOf, -, hperm, hordered⟩ := hcomplete.exists_scoreOf
  rw [aggregate_eq_reportOf hcomplete hws, hordered]
  exact reportOf_eq_unwritable Rounding.isMonotone_nearest (Weights.resolve_eq_ok hws).1 bounds rfl
    (fun s hs => (hrange s (hperm.mem_iff.mp hs)).within)
      (fun h => hwritable ((areWritable_perm hperm).mp h))

/-- A report excludes all that could be wrong, in the order in which it is looked for. -/
theorem complete_of_aggregate (hrange : ∀ s ∈ scores, s.InRange) {report : Report}
    (h : aggregate .nearest scores weights bounds = .ok report) :
    CompleteScores scores ∧ (∃ ws, Weights.resolve .nearest weights = .ok ws) ∧
      AreWritable bounds.most scores := by
  obtain ⟨ws, hws, -⟩ := aggregate_reportOf h
  have hcomplete : CompleteScores scores := by
    by_contra hnot
    by_cases hnodup : (scores.map (·.category)).Nodup
    · obtain ⟨missing, -, -, herror⟩ := exists_missing weights bounds hnodup hnot
      cases h.symm.trans herror
    · obtain ⟨c, hfirst⟩ := exists_isFirstRepeated hnodup
      cases h.symm.trans (aggregate_of_repeated weights bounds hfirst)
  refine ⟨hcomplete, ⟨ws, hws⟩, ?_⟩
  by_contra hwritable
  cases h.symm.trans (aggregate_of_unwritable weights bounds hrange hcomplete hws hwritable)

/-- Where nothing is wrong, there is a report, with the scores in the order of the categories. -/
theorem exists_report_of_complete (hrange : ∀ s ∈ scores, s.InRange)
    (hcomplete : CompleteScores scores) {ws : Weights}
    (hws : Weights.resolve .nearest weights = .ok ws) (hwritable : AreWritable bounds.most scores) :
    ∃ report, aggregate .nearest scores weights bounds = .ok report ∧
      report.scores.map (·.category) = Category.all ∧ report.scores.Perm scores := by
  obtain ⟨scoreOf, report, hcategory, hperm, -, hreport, hof⟩ :=
    hcomplete.exists_report Rounding.isMonotone_nearest hrange hws (Weights.resolve_eq_ok hws).1
      hwritable
  refine ⟨report, hreport, ?_⟩
  rw [reportOf_scores hof]
  exact ⟨map_category_map hcategory Category.all, hperm⟩

/-- The order in which complete scores come makes no difference. -/
theorem aggregate_perm {scores' : List CategoryScore} (h : scores'.Perm scores)
    (hcomplete : CompleteScores scores) :
    aggregate ρ scores' weights bounds = aggregate ρ scores weights bounds := by
  have hcomplete' : CompleteScores scores' := (h.map _).trans hcomplete
  cases hresolve : Weights.resolve ρ weights with
  | error e =>
      rw [aggregate_of_unresolved weights bounds hcomplete hresolve,
        aggregate_of_unresolved weights bounds hcomplete' hresolve]
  | ok ws =>
      rw [aggregate_eq_reportOf hcomplete hresolve, aggregate_eq_reportOf hcomplete' hresolve,
        filterMap_scoreOf?_perm h hcomplete]

end Aggregate

/-- A report has one score for each category, in their order. -/
theorem aggregate_categories {ρ : Rounding} {scores : List CategoryScore} {overrides : Weights}
    {bounds : ReportBounds} {report : Report}
    (h : aggregate ρ scores overrides bounds = .ok report) :
    report.scores.map (·.category) = Category.all := by
  dsimp only [aggregate] at h
  split at h
  · cases h
  · split at h
    · cases h
    · rename_i hmissing
      -- past both refusals every category has a score, so the scores are looked up and none is
      -- skipped
      have hnone : (Category.all.filter fun c => (scoreOf? scores c).isNone) = [] := by
        simpa using hmissing
      have hfound : ∀ c, ∃ s, scoreOf? scores c = some s := fun c =>
        Option.ne_none_iff_exists'.mp fun hc => List.filter_eq_nil_iff.mp hnone c
          (Category.mem_all c) (Option.isNone_iff_eq_none.mpr hc)
      choose scoreOf hscore using hfound
      have hcategory : ∀ c, (scoreOf c).category = c := by
        intro c
        have hc := List.find?_some (hscore c)
        exact of_decide_eq_true hc
      have hscores : Category.all.filterMap (scoreOf? scores) = Category.all.map scoreOf := by
        rw [← List.filterMap_eq_map]
        exact List.filterMap_congr fun c _ => hscore c
      split at h
      · cases h
      · rw [reportOf_scores h, hscores]
        exact map_category_map hcategory Category.all

/-- **Complete sets of scores are accepted, in any order, and nothing else is.** There is a report
exactly if each category has one score, the weights resolve and the places that are recommended can
be written. If a category comes twice, the first one that does is told, also if others are missing.
If none comes twice, all that are missing are told, in their order, also if the weights are wrong.
If all are there, what is wrong with the weights is told, and with weights that resolve, that a
place cannot be written. The order of complete scores makes no difference: the report has them
unchanged in the order of the categories. -/
theorem aggregate_accepts_complete (scores : List CategoryScore) (hrange : ∀ s ∈ scores, s.InRange)
    (weights : Weights) (bounds : ReportBounds) :
    let answer := aggregate .nearest scores weights bounds
    ((∃ report, answer = .ok report) ↔
        CompleteScores scores ∧ (∃ ws, Weights.resolve .nearest weights = .ok ws) ∧
          AreWritable bounds.most scores) ∧
      (¬(scores.map (·.category)).Nodup → ∃ c, IsFirstRepeated scores c) ∧
      (∀ c, IsFirstRepeated scores c → answer = .error (.duplicate c)) ∧
      ((scores.map (·.category)).Nodup → ¬CompleteScores scores →
        ∃ missing, missing ≠ [] ∧ AreMissing scores missing ∧
          answer = .error (.incomplete missing)) ∧
      (CompleteScores scores → ∀ e, Weights.resolve .nearest weights = .error e →
        answer = .error (.weights e)) ∧
      (CompleteScores scores → (∃ ws, Weights.resolve .nearest weights = .ok ws) →
        ¬AreWritable bounds.most scores → answer = .error (.unwritable .tooManyDigits)) ∧
      (CompleteScores scores → ∀ scores', scores'.Perm scores →
        aggregate .nearest scores' weights bounds = answer) ∧
      ∀ report, answer = .ok report → report.scores.map (·.category) = Category.all ∧
        report.scores.Perm scores := by
  intro answer
  refine ⟨⟨?_, ?_⟩, exists_isFirstRepeated, fun c => aggregate_of_repeated weights bounds,
    exists_missing weights bounds, ?_, ?_, ?_, ?_⟩
  · rintro ⟨report, hreport⟩
    exact complete_of_aggregate weights bounds hrange hreport
  · rintro ⟨hcomplete, ⟨ws, hws⟩, hwritable⟩
    obtain ⟨report, hreport, -⟩ :=
      exists_report_of_complete weights bounds hrange hcomplete hws hwritable
    exact ⟨report, hreport⟩
  · intro hcomplete e he
    exact aggregate_of_unresolved weights bounds hcomplete he
  · rintro hcomplete ⟨ws, hws⟩ hwritable
    exact aggregate_of_unwritable weights bounds hrange hcomplete hws hwritable
  · intro hcomplete scores' hperm
    exact aggregate_perm weights bounds hperm hcomplete
  · intro report hreport
    obtain ⟨hcomplete, ⟨ws, hws⟩, hwritable⟩ := complete_of_aggregate weights bounds hrange hreport
    obtain ⟨report', hreport', hscores⟩ :=
      exists_report_of_complete weights bounds hrange hcomplete hws hwritable
    obtain rfl : report' = report := Except.ok.inj (hreport'.symm.trans hreport)
    exact hscores

/-- Sevens for all categories in reverse are accepted and put in order. A layout that comes twice is
told although eight categories are missing and a weight is no number. -/
theorem aggregate_accepts_complete_reversed :
    let seven := fun c : Category => { category := c, rawScore := .finite 7 : CategoryScore }
    let scores := Category.all.reverse.map seven
    let few := [seven .layout, seven .naming, seven .layout, seven .naming]
    (∀ s ∈ scores, s.InRange) ∧ (∀ s ∈ few, s.InRange) ∧ CompleteScores scores ∧
      (∃ report, aggregate .nearest scores [] {} = .ok report ∧
        report.scores.map (·.category) = Category.all) ∧
      aggregate .nearest few [(.testing, .nan)] {} = .error (.duplicate .layout) := by
  intro seven scores few
  have hrange : ∀ cs : List Category, ∀ s ∈ cs.map seven, s.InRange := by
    intro cs s hs
    obtain ⟨c, -, rfl⟩ := List.mem_map.mp hs
    exact Number.Within.le_and_le (Number.within_finite (by norm_num) (by norm_num))
  have hcomplete : CompleteScores scores := by
    have hreverse : scores.map (·.category) = Category.all.reverse := by decide
    exact (List.Perm.of_eq hreverse).trans (List.reverse_perm _)
  have hfew : ∀ s ∈ few, s.InRange := hrange [.layout, .naming, .layout, .naming]
  have hwritable : AreWritable 5 scores := by
    refine areWritable_of_findings (fun s hs f hf => ?_) 5
    obtain ⟨c, -, rfl⟩ := List.mem_map.mp hs
    cases hf
  obtain ⟨haccepted, -, -, -, -, -, -, hscores⟩ :=
    aggregate_accepts_complete scores (hrange _) [] {}
  obtain ⟨report, hreport⟩ := haccepted.mpr ⟨hcomplete, ⟨_, Weights.resolve_nil⟩, hwritable⟩
  obtain ⟨-, -, hrepeated, -⟩ := aggregate_accepts_complete few hfew [(.testing, .nan)] {}
  refine ⟨hrange _, hfew, hcomplete, ⟨report, hreport, (hscores report hreport).1⟩,
    hrepeated .layout ?_⟩
  exact ⟨[seven .layout, seven .naming], seven .layout, [seven .naming], rfl, by decide, rfl,
    seven .layout, List.mem_cons_self, rfl⟩

/-- Sevens for all categories, each with a finding on a line that has more digits than can be
written: the scores are complete and the default weights resolve, but there is no report. -/
theorem unwritable_line_stops_report :
    let far : Finding :=
      { ruleId := "a", kind := "a", message := ""
        location := ⟨"a.py", .int (10 ^ 4300), .int (10 ^ 4300)⟩, suggestion := "Act." }
    let scores := Category.all.map fun c =>
      { category := c, rawScore := .finite 7, findings := [far] : CategoryScore }
    (∀ s ∈ scores, s.InRange) ∧ CompleteScores scores ∧
      (∃ ws, Weights.resolve .nearest [] = .ok ws) ∧
      aggregate .nearest scores [] {} = .error (.unwritable .tooManyDigits) := by
  intro far scores
  have hrange : ∀ s ∈ scores, s.InRange := by
    intro s hs
    obtain ⟨c, -, rfl⟩ := List.mem_map.mp hs
    exact Number.Within.le_and_le (Number.within_finite (by norm_num) (by norm_num))
  have hcomplete : CompleteScores scores := List.Perm.of_eq (by decide)
  have hwritable : ¬AreWritable 5 scores := by
    intro hwritable
    have hlayout := hwritable (by decide) _ (List.mem_map_of_mem (Category.mem_all .layout))
    have hgroups : (groupByKind (actionable [far])).take 5 = [("a", { first := far })] := by
      decide +kernel
    have hfirst : far.HasWritablePlace :=
      hasWritablePlaces_iff.mp hlayout ("a", { first := far }) (hgroups ▸ List.mem_singleton_self _)
    rcases hfirst with hfile | ⟨text, htext⟩
    · exact absurd hfile (by decide)
    · have hnone : far.location.text = .error .tooManyDigits := by decide +kernel
      cases htext.symm.trans hnone
  exact ⟨hrange, hcomplete, ⟨_, Weights.resolve_nil⟩,
    aggregate_of_unwritable [] {} hrange hcomplete Weights.resolve_nil hwritable⟩

end Scorecard
