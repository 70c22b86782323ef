import Mathlib.Order.RelClasses
import Scorecard.Proofs.ScoreOrder

set_option autoImplicit false

/-! # Strengths and weaknesses

A section of a report lists the categories whose reported score reaches a threshold, the best ones
first, or stays below one, the worst ones first; of equal scores the category that comes first. This
is a strict total order on the categories (`Precedes`), so a section has one possible form
(`IsSection.unique`), and sorting finds it (`isSection_mergeSort`). Scores are compared as they are
reported, also with the thresholds (`sections_are_thresholds`).
-/

namespace Scorecard

/-! ## The order of a section -/

/-- One category precedes another in a section: its key is smaller, or the keys are equal and it
comes first among the categories. -/
def Precedes (key : Category → ℚ) (c d : Category) : Prop :=
  key c < key d ∨ (key c = key d ∧ c.order < d.order)

namespace Precedes

variable {key : Category → ℚ} {c d e : Category}

theorem irrefl (c : Category) : ¬Precedes key c c := by
  rintro (hlt | ⟨-, hlt⟩)
  · exact lt_irrefl _ hlt
  · exact lt_irrefl _ hlt

theorem trans (hcd : Precedes key c d) (hde : Precedes key d e) : Precedes key c e := by
  rcases hcd with hcd | ⟨hcd, hcd'⟩
  · rcases hde with hde | ⟨hde, -⟩
    · exact Or.inl (hcd.trans hde)
    · exact Or.inl (hde ▸ hcd)
  · rcases hde with hde | ⟨hde, hde'⟩
    · exact Or.inl (hcd ▸ hde)
    · exact Or.inr ⟨hcd.trans hde, hcd'.trans hde'⟩

theorem trichotomy (key : Category → ℚ) (c d : Category) :
    Precedes key c d ∨ c = d ∨ Precedes key d c := by
  rcases lt_trichotomy (key c) (key d) with hlt | heq | hgt
  · exact Or.inl (Or.inl hlt)
  · rcases lt_trichotomy c.order d.order with hlt | hsame | hgt
    · exact Or.inl (Or.inr ⟨heq, hlt⟩)
    · exact Or.inr (Or.inl (Category.order_injective hsame))
    · exact Or.inr (Or.inr (Or.inr ⟨heq.symm, hgt⟩))
  · exact Or.inr (Or.inr (Or.inl hgt))

/-- **The order of a section is a strict total order**, whatever the keys are. -/
theorem isStrictTotalOrder (key : Category → ℚ) : IsStrictTotalOrder Category (Precedes key) where
  irrefl := irrefl
  trans _ _ _ := trans
  trichotomous c d hcd hdc := ((trichotomy key c d).resolve_left hcd).resolve_right hdc

/-- What a comparison with a tie-break says of two categories. -/
theorem or_eq_iff : Precedes key c d ∨ c = d ↔ key c < key d ∨
    (¬key d < key c ∧ c.order ≤ d.order) := by
  constructor
  · rintro ((hlt | ⟨heq, hlt⟩) | rfl)
    · exact Or.inl hlt
    · exact Or.inr ⟨heq.not_gt, hlt.le⟩
    · exact Or.inr ⟨lt_irrefl _, le_refl _⟩
  · rintro (hlt | ⟨hle, horder⟩)
    · exact Or.inl (Or.inl hlt)
    · rcases trichotomy key c d with hcd | rfl | hdc | ⟨-, hlt⟩
      · exact Or.inl hcd
      · exact Or.inr rfl
      · exact absurd hdc hle
      · exact absurd horder hlt.not_ge

end Precedes

/-! ## Sections -/

/-- A section: the selected categories, in the order of their keys. -/
structure IsSection (selected : Category → Prop) (key : Category → ℚ) (cs : List Category) :
    Prop where
  mem_iff : ∀ c, c ∈ cs ↔ selected c
  sorted : cs.Pairwise (Precedes key)

namespace IsSection

variable {selected : Category → Prop} {key : Category → ℚ} {cs cs' : List Category}

/-- No category is listed twice. -/
theorem nodup (h : IsSection selected key cs) : cs.Nodup := by
  refine h.sorted.imp fun hcd => ?_
  rintro rfl
  exact Precedes.irrefl _ hcd

/-- **A section has one form.** -/
theorem unique (h : IsSection selected key cs) (h' : IsSection selected key cs') : cs = cs' := by
  have hperm : cs.Perm cs' := by
    rw [List.perm_ext_iff_of_nodup h.nodup h'.nodup]
    intro c
    rw [h.mem_iff, h'.mem_iff]
  refine hperm.eq_of_pairwise (fun c d _ _ hcd hdc => ?_) h.sorted h'.sorted
  exact absurd (hcd.trans hdc) (Precedes.irrefl c)

end IsSection

/-- Selecting categories and sorting them gives a section. -/
theorem isSection_mergeSort {key : Category → ℚ} {le : Category → Category → Bool}
    (hle : ∀ c d, le c d = true ↔ Precedes key c d ∨ c = d) (selected : Category → Bool) :
    IsSection (selected · = true) key ((Category.all.filter selected).mergeSort le) := by
  have htrans : ∀ c d e, le c d = true → le d e = true → le c e = true := by
    intro c d e hcd hde
    rw [hle] at hcd hde ⊢
    rcases hcd with hcd | rfl
    · rcases hde with hde | rfl
      · exact Or.inl (hcd.trans hde)
      · exact Or.inl hcd
    · exact hde
  have htotal : ∀ c d, (le c d || le d c) = true := by
    intro c d
    rw [Bool.or_eq_true, hle, hle]
    rcases Precedes.trichotomy key c d with hcd | heq | hdc
    · exact Or.inl (Or.inl hcd)
    · exact Or.inl (Or.inr heq)
    · exact Or.inr (Or.inl hdc)
  -- the order is strict where no category is listed twice
  have hnodup : ((Category.all.filter selected).mergeSort le).Nodup :=
    (List.mergeSort_perm _ le).nodup_iff.mpr (Category.all_nodup.filter _)
  constructor
  · intro c
    rw [List.mem_mergeSort, List.mem_filter, and_iff_right (Category.mem_all c)]
  · refine ((List.pairwise_mergeSort htrans htotal _).and hnodup).imp ?_
    rintro c d ⟨hcd, hne⟩
    exact ((hle c d).mp hcd).resolve_right hne

/-! ## The sections of a report -/

section Report

variable {ρ : Rounding} (hρ : ρ.IsMonotone) {scoreOf : Category → CategoryScore}
  (hcategory : ∀ c, (scoreOf c).category = c)
  (hwithin : ∀ c, (scoreOf c).rawScore.Within 0 10)
include hρ hcategory hwithin

/-- Better scores first. -/
theorem strongerFirst_iff (c d : Category) :
    strongerFirst ρ (scoreOf c) (scoreOf d) = true ↔ Precedes
      (fun c => -((scoreOf c).score ρ).value) c d ∨ c = d := by
  have hfinite : ∀ c, ((scoreOf c).score ρ).isFinite = true :=
    fun c => (score_within hρ (hwithin c)).1
  rw [Precedes.or_eq_iff, neg_lt_neg_iff, neg_lt_neg_iff,
    ← Number.lt_iff_value_lt (hfinite d) (hfinite c),
    ← Number.lt_iff_value_lt (hfinite c) (hfinite d)]
  simp [strongerFirst, inOrder, hcategory]

/-- Worse scores first. -/
theorem weakerFirst_iff (c d : Category) :
    weakerFirst ρ (scoreOf c) (scoreOf d) = true ↔ Precedes
      (fun c => ((scoreOf c).score ρ).value) c d ∨ c = d := by
  have hfinite : ∀ c, ((scoreOf c).score ρ).isFinite = true :=
    fun c => (score_within hρ (hwithin c)).1
  rw [Precedes.or_eq_iff, ← Number.lt_iff_value_lt (hfinite d) (hfinite c),
    ← Number.lt_iff_value_lt (hfinite c) (hfinite d)]
  simp [weakerFirst, inOrder, hcategory]

omit hρ hwithin in
/-- The categories of a section can be selected and sorted instead of the scores. -/
theorem map_category_section (p : CategoryScore → Bool)
    (le : CategoryScore → CategoryScore → Bool) :
    (((Category.all.map scoreOf).filter p).mergeSort le).map (·.category) =
      (Category.all.filter fun c => p (scoreOf c)).mergeSort fun c d => le (scoreOf c)
        (scoreOf d) := by
  have hback : ∀ s ∈ Category.all.map scoreOf, scoreOf s.category = s := by
    intro s hs
    obtain ⟨c, -, rfl⟩ := List.mem_map.mp hs
    rw [hcategory]
  rw [map_filter_mergeSort (·.category) p (fun c => p (scoreOf c)) le fun c d =>
    le (scoreOf c) (scoreOf d), map_category_map hcategory]
  · intro s hs
    rw [hback s hs]
  · intro s hs t ht
    rw [hback s hs, hback t ht]

variable {weights : Weights} {bounds : ReportBounds} {report : Report}
  (h : reportOf ρ weights bounds (Category.all.map scoreOf) = .ok report)
include h

theorem isSection_strengths :
    IsSection (fun c => bounds.strength.le ((scoreOf c).score ρ) = true)
      (fun c => -((scoreOf c).score ρ).value)
      (report.strengths.map (·.category)) := by
  obtain ⟨rs, -, rfl⟩ := eq_of_reportOf h
  dsimp only
  rw [map_category_section hcategory]
  exact isSection_mergeSort (strongerFirst_iff hρ hcategory hwithin) fun c =>
    bounds.strength.le ((scoreOf c).score ρ)

theorem isSection_weaknesses :
    IsSection (fun c => ((scoreOf c).score ρ).le bounds.weakness = true)
      (fun c => ((scoreOf c).score ρ).value)
      (report.weaknesses.map (·.category)) := by
  obtain ⟨rs, -, rfl⟩ := eq_of_reportOf h
  dsimp only
  rw [map_category_section hcategory]
  exact isSection_mergeSort (weakerFirst_iff hρ hcategory hwithin) fun c =>
    ((scoreOf c).score ρ).le bounds.weakness

end Report

/-- The sections list scores that are reported. -/
theorem mem_of_mem_section {ρ : Rounding} {weights : Weights} {bounds : ReportBounds}
    {scores : List CategoryScore} {report : Report}
    (h : reportOf ρ weights bounds scores = .ok report) :
    ∀ s ∈ report.strengths ++ report.weaknesses, s ∈ scores := by
  intro s hs
  obtain ⟨rs, -, rfl⟩ := eq_of_reportOf h
  rcases List.mem_append.mp hs with hs | hs
  · exact (List.mem_filter.mp (List.mem_mergeSort.mp hs)).1
  · exact (List.mem_filter.mp (List.mem_mergeSort.mp hs)).1

/-- A score that reaches a threshold is above any lower one. -/
theorem not_le_of_thresholds {low high x : Number} (h : low.lt high = true)
    (hhigh : high.le x = true) : ¬x.le low = true := by
  intro hlow
  obtain ⟨p, q, hp, hq, hlt⟩ :=
    Number.lt_iff_toLex.mp (Number.lt_of_le_of_lt (Number.le_trans hhigh hlow) h)
  cases hp.symm.trans hq
  exact lt_irrefl _ hlt

/-- **Strengths and weaknesses.** For ten scores, one for each category, weights that resolve and
any thresholds there is a report, if the places that are recommended can be written. The strengths
of a report are exactly the categories whose reported score reaches the threshold, higher scores
first and equal ones in the order of the categories; its weaknesses are exactly those whose reported
score does not exceed the other threshold, lower scores first and equal ones in the order of the
categories. None is listed twice in a section, and the orders are strict total orders, so there is
only one such list. With thresholds in order, as in every configuration that is read, no category is
in both sections. -/
theorem sections_are_thresholds (scores : List CategoryScore) (hcomplete : CompleteScores scores)
    (hrange : ∀ s ∈ scores, s.InRange) (weights ws : Weights)
    (hresolve : Weights.resolve .nearest weights = .ok ws) (bounds : ReportBounds) :
    (AreWritable bounds.most scores →
      ∃ report, aggregate .nearest scores weights bounds = .ok report) ∧
    (∀ report : Report, aggregate .nearest scores weights bounds = .ok report →
      ∃ reported : Category → Number, (∀ s ∈ scores, reported s.category = s.score .nearest) ∧
      (∀ s ∈ report.strengths ++ report.weaknesses, s ∈ scores) ∧
      (let strong := report.strengths.map (·.category)
       let weak := report.weaknesses.map (·.category)
       let best := fun c => -(reported c).value
       let worst := fun c => (reported c).value
       IsSection (fun c => bounds.strength.le (reported c) = true) best strong ∧
         IsSection (fun c => (reported c).le bounds.weakness = true) worst weak ∧
         strong.Nodup ∧ weak.Nodup ∧
         IsStrictTotalOrder Category (Precedes best) ∧
           IsStrictTotalOrder Category (Precedes worst) ∧
         (∀ cs, IsSection (fun c => bounds.strength.le (reported c) = true) best cs → cs = strong) ∧
         (∀ cs, IsSection (fun c => (reported c).le bounds.weakness = true) worst cs → cs = weak) ∧
         (bounds.weakness.lt bounds.strength = true → ∀ c ∈ strong, c ∉ weak))) ∧
      ∀ source fields config, Config.ofFields .nearest source fields = .ok config →
        config.bounds.weakness.lt config.bounds.strength = true := by
  refine ⟨fun hwritable => ?_, fun report haggregate => ?_, ?_⟩
  · obtain ⟨-, report, -, -, -, hreport, -⟩ :=
      hcomplete.exists_report Rounding.isMonotone_nearest hrange hresolve
      (Weights.resolve_eq_ok hresolve).1 hwritable
    exact ⟨report, hreport⟩
  · obtain ⟨scoreOf, hcategory, hperm, hreport⟩ := hcomplete.exists_reportOf hresolve haggregate
    have hwithin' : ∀ c, (scoreOf c).rawScore.Within 0 10 :=
      fun c => (hrange _ (mem_of_perm_all hperm c)).within
    have hstrong := isSection_strengths Rounding.isMonotone_nearest hcategory hwithin' hreport
    have hweak := isSection_weaknesses Rounding.isMonotone_nearest hcategory hwithin' hreport
    refine ⟨fun c => (scoreOf c).score .nearest, ?_, ?_, hstrong, hweak, hstrong.nodup, hweak.nodup,
      Precedes.isStrictTotalOrder _, Precedes.isStrictTotalOrder _,
        fun cs hcs => hcs.unique hstrong,
      fun cs hcs => hcs.unique hweak, ?_⟩
    · intro s hs
      obtain ⟨c, -, rfl⟩ := List.mem_map.mp (hperm.mem_iff.mpr hs)
      rw [hcategory]
    · intro s hs
      exact hperm.mem_iff.mp (mem_of_mem_section hreport s hs)
    · intro hthresholds c hc hc'
      exact not_le_of_thresholds hthresholds ((hstrong.mem_iff c).mp hc) ((hweak.mem_iff c).mp hc')
  · intro source fields config hread
    obtain ⟨-, -, report, hbounds⟩ := Config.parts_of_ofFields hread
    exact (thresholds_of_readBounds hbounds).1

/-- Scores of 8.96 are reported as nine and reach the threshold, and a score of 6.04 is reported as
six and does not exceed the other one. Equal scores are in the order of the categories although they
come in reverse. -/
theorem sections_are_thresholds_rounded :
    let raw : Category → ℚ :=
      fun c => if c = .naming ∨ c = .logging then 224 / 25 else if c = .testing then 151 / 25 else 7
    let scores :=
      Category.all.reverse.map fun c =>
        { category := c, rawScore := .finite (raw c) : CategoryScore }
    CompleteScores scores ∧ (∀ s ∈ scores, s.InRange) ∧
      Weights.resolve .nearest [] = .ok (Weights.withDefaults []) ∧
      ∃ report, aggregate .nearest scores [] {} = .ok report ∧
        report.strengths.map (·.category) = [.naming, .logging] ∧
        report.weaknesses.map (·.category) = [.testing] := by
  intro raw scores
  have hcomplete : CompleteScores scores := by
    have hreverse : scores.map (·.category) = Category.all.reverse := by decide
    exact (List.Perm.of_eq hreverse).trans (List.reverse_perm _)
  have hrange : ∀ s ∈ scores, s.InRange := by decide +kernel
  have hwritable : AreWritable 5 scores := by
    refine areWritable_of_findings (fun s hs f hf => ?_) 5
    obtain ⟨c, -, rfl⟩ := List.mem_map.mp hs
    cases hf
  obtain ⟨hexists, hsections, -⟩ :=
    sections_are_thresholds scores hcomplete hrange [] _ Weights.resolve_nil {}
  obtain ⟨report, hreport⟩ := hexists hwritable
  obtain ⟨reported, hreported, -, -, -, -, -, -, -, hstrong, hweak, -⟩ := hsections report hreport
  have hvalue : ∀ c, reported c = (Number.finite (raw c)).roundTenth .nearest := fun c =>
    hreported { category := c, rawScore := .finite (raw c) }
      (List.mem_map.mpr ⟨c, List.mem_reverse.mpr (Category.mem_all c), rfl⟩)
  -- a section is unique, so it is enough to check the two lists instead of computing them
  have hselected : ∀ c ∈ Category.all, (c ∈ [Category.naming, .logging] ↔
      Number.le (.finite 9) ((Number.finite (raw c)).roundTenth .nearest) = true) ∧
      (c ∈ [Category.testing] ↔ ((Number.finite (raw c)).roundTenth .nearest).le (.finite 6) =
        true) := by
    decide +kernel
  refine ⟨hcomplete, hrange, Weights.resolve_nil, report, hreport, (hstrong _ ⟨?_, ?_⟩).symm,
    (hweak _ ⟨?_, ?_⟩).symm⟩
  · intro c
    rw [hvalue]
    exact (hselected c (Category.mem_all c)).1
  · have htie : Precedes (fun c => -(reported c).value) .naming .logging := by
      refine Or.inr ⟨?_, by decide⟩
      show -(reported .naming).value = -(reported .logging).value
      rw [hvalue, hvalue]
      rfl
    simpa using htie
  · intro c
    rw [hvalue]
    exact (hselected c (Category.mem_all c)).2
  · exact List.pairwise_singleton _ _

end Scorecard
