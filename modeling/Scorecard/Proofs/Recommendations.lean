import Mathlib.Data.Finset.Card
import Mathlib.Data.List.TakeWhile
import Scorecard.Proofs.Entries
import Scorecard.Proofs.Except
import Scorecard.Proofs.Registry
import Scorecard.Report.Basic

set_option autoImplicit false

/-! # Recommendations

The findings of a category that ask for something are put into groups by their kinds, one after the
other. A group keeps the place that its first finding gave it, and no finding is lost
(`GroupsOf.add`, `groupsOf_groupByKind`). A recommendation speaks for a group: it counts its
findings and quotes the first of them (`Recommendation.SpeaksFor`), so it can be made only if the
place of this finding can be written. A cap cuts off the last groups, and which groups there are in
which categories does not depend on the order in which the scores are given
(`recommendations_group_findings`).
-/

namespace Scorecard

/-! ## The order of first appearance -/

/-- The distinct elements of a list, in the order in which they first appear in it. -/
structure FirstSeen (l kinds : List String) : Prop where
  mem_iff : ∀ kind, kind ∈ kinds ↔ kind ∈ l
  ordered : kinds.Pairwise fun a b => l.idxOf a < l.idxOf b

namespace FirstSeen

variable {l kinds : List String}

theorem nil : FirstSeen [] [] := ⟨fun _ => Iff.rfl, .nil⟩

theorem nodup (h : FirstSeen l kinds) : kinds.Nodup := by
  refine h.ordered.imp fun hlt => ?_
  rintro rfl
  exact lt_irrefl _ hlt

/-- There are as many as there are distinct elements. -/
theorem length_eq (h : FirstSeen l kinds) : kinds.length = l.toFinset.card := by
  have hsame : kinds.toFinset = l.toFinset := by
    ext kind
    rw [List.mem_toFinset, List.mem_toFinset]
    exact h.mem_iff kind
  rw [← hsame, List.toFinset_card_of_nodup h.nodup]

/-- An element that was seen before changes nothing, and a new one is the last. -/
theorem concat (h : FirstSeen l kinds) (kind : String) :
    FirstSeen (l ++ [kind]) (if kind ∈ kinds then kinds else kinds ++ [kind]) := by
  have hold : ∀ a ∈ kinds, (l ++ [kind]).idxOf a = l.idxOf a :=
    fun a ha => List.idxOf_append_of_mem ((h.mem_iff a).mp ha)
  have hordered : kinds.Pairwise fun a b => (l ++ [kind]).idxOf a < (l ++ [kind]).idxOf b := by
    refine h.ordered.imp_of_mem fun ha hb hlt => ?_
    rw [hold _ ha, hold _ hb]
    exact hlt
  by_cases hseen : kind ∈ kinds
  · rw [if_pos hseen]
    refine ⟨fun a => ?_, hordered⟩
    rw [h.mem_iff, List.mem_append, List.mem_singleton]
    constructor
    · exact Or.inl
    · rintro (ha | rfl)
      · exact ha
      · exact (h.mem_iff _).mp hseen
  · rw [if_neg hseen]
    constructor
    · intro a
      rw [List.mem_append, List.mem_append, h.mem_iff]
    · refine List.pairwise_append.mpr ⟨hordered, List.pairwise_singleton _ _, ?_⟩
      intro a ha b hb
      obtain rfl := List.mem_singleton.mp hb
      -- all that was seen stands before the end of the list, where the new element is
      have hnew : (l ++ [b]).idxOf b = l.length := by
        rw [List.idxOf_append_of_notMem fun hmem => hseen ((h.mem_iff b).mpr hmem),
          List.idxOf_cons_self, Nat.add_zero]
      rw [hold a ha, hnew]
      exact List.idxOf_lt_length_iff.mpr ((h.mem_iff a).mp ha)

end FirstSeen

/-! ## Groups -/

namespace FindingGroup

theorem length_toList (g : FindingGroup) : g.toList.length = g.count := by
  rw [toList, List.length_cons, Array.length_toList, count]

/-- A finding goes to the end of its group. -/
theorem toList_extend (x : Finding) (old : Option FindingGroup) :
    (extend x old).toList = (old.map toList).getD [] ++ [x] := by
  cases old with
  | none => rfl
  | some g => simp [extend, toList]

theorem count_extend (x : Finding) (old : Option FindingGroup) :
    (extend x old).count = (old.map count).getD 0 + 1 := by
  cases old with
  | none => rfl
  | some g => simp [extend, count]

end FindingGroup

/-- Findings in groups: the kinds are in the order in which they appear, each group has the findings
of its kind in their order, and together the groups have all findings. -/
structure GroupsOf (findings : List Finding) (groups : List (String × FindingGroup)) : Prop where
  kinds : FirstSeen (findings.map (·.kind)) (groups.map (·.1))
  members : ∀ entry ∈ groups, entry.2.toList = findings.filter (·.kind = entry.1)
  total : (groups.map fun entry => entry.2.count).sum = findings.length

/-- One more finding is counted once, whether it opens a group or not. -/
theorem sum_count_addByKind (groups : List (String × FindingGroup)) (x : Finding) :
    ((addByKind groups x).map fun entry => entry.2.count).sum =
      (groups.map fun entry => entry.2.count).sum + 1 := by
  unfold addByKind
  induction groups with
  | nil => rfl
  | cons entry rest ih =>
      obtain ⟨kind, g⟩ := entry
      by_cases hkind : kind = x.kind
      · rw [alterEntry, if_pos hkind, List.map_cons, List.map_cons, List.sum_cons, List.sum_cons,
          FindingGroup.count_extend]
        show g.count + 1 + _ = g.count + _ + 1
        omega
      · rw [alterEntry, if_neg hkind, List.map_cons, List.map_cons, List.sum_cons,
          List.sum_cons, ih]
        omega

/-- **One more finding** joins the group of its kind, or opens one behind the others. -/
theorem GroupsOf.add {findings : List Finding} {groups : List (String × FindingGroup)}
    (h : GroupsOf findings groups) (x : Finding) :
    GroupsOf (findings ++ [x]) (addByKind groups x) := by
  have hkeys : ((addByKind groups x).map (·.1)).Nodup := nodup_keys_alterEntry h.kinds.nodup
  refine ⟨?_, ?_, ?_⟩
  · rw [List.map_append, List.map_singleton, addByKind, keys_alterEntry]
    exact h.kinds.concat x.kind
  · intro entry hentry
    -- what the kind of the entry finds afterwards is the entry itself
    have hfound : (addByKind groups x).lookup entry.1 = some entry.2 :=
      lookup_eq_some_of_mem hkeys hentry
    rw [addByKind, lookup_alterEntry] at hfound
    rw [List.filter_append]
    by_cases hkind : entry.1 = x.kind
    · rw [if_pos hkind] at hfound
      have hgroup : entry.2 = FindingGroup.extend x (groups.lookup x.kind) :=
        (Option.some.inj hfound).symm
      have hold :
          ((groups.lookup x.kind).map FindingGroup.toList).getD [] =
            findings.filter (·.kind = x.kind) := by
        cases hlookup : groups.lookup x.kind with
        | some g => exact h.members _ (mem_of_lookup_eq_some hlookup)
        | none =>
            -- no finding had this kind
            refine (List.filter_eq_nil_iff.mpr fun y hy hsame => ?_).symm
            have hmem : x.kind ∈ groups.map (·.1) :=
              (h.kinds.mem_iff _).mpr (List.mem_map.mpr ⟨y, hy, by simpa using hsame⟩)
            obtain ⟨p, hp, hpkind⟩ := List.mem_map.mp hmem
            rw [← hpkind, lookup_eq_some_of_mem h.kinds.nodup hp] at hlookup
            cases hlookup
      rw [hgroup, FindingGroup.toList_extend, hold, hkind]
      simp
    · rw [if_neg hkind] at hfound
      have hother : ¬x.kind = entry.1 := fun e => hkind e.symm
      rw [h.members entry (mem_of_lookup_eq_some hfound)]
      simp [hother]
  · rw [sum_count_addByKind, h.total, List.length_append, List.length_singleton]

/-- Findings that are put into groups one after the other. -/
theorem GroupsOf.foldl {seen : List Finding} {groups : List (String × FindingGroup)}
    (h : GroupsOf seen groups) (later : List Finding) :
    GroupsOf (seen ++ later) (later.foldl addByKind groups) := by
  induction later generalizing seen groups with
  | nil =>
      rw [List.append_nil]
      exact h
  | cons x rest ih =>
      have hrest := ih (h.add x)
      rwa [List.append_assoc] at hrest

/-- **No finding is lost in the groups.** -/
theorem groupsOf_groupByKind (findings : List Finding) :
    GroupsOf findings (groupByKind findings) := by
  have hnone : GroupsOf [] [] := ⟨.nil, List.forall_mem_nil _, rfl⟩
  exact hnone.foldl findings

/-! ## The text of a recommendation -/

/-- A text without the dots at its end. -/
structure IsStem (text stem : String) : Prop where
  dots : ∃ n, text.toList = stem.toList ++ List.replicate n '.'
  no_dot : stem.toList.getLast? ≠ some '.'

theorem isStem_stripEnd (text : String) : IsStem text (Text.stripEnd '.' text) := by
  set reversed := text.toList.reverse with hreversed
  have hlist : (Text.stripEnd '.' text).toList = (reversed.dropWhile (· == '.')).reverse := by
    rw [Text.stripEnd, Text.dropEnd, String.toList_ofList]
  constructor
  · -- what is dropped are dots only
    have hdots :
        (reversed.takeWhile (· == '.')).reverse =
          List.replicate (reversed.takeWhile (· == '.')).length '.' := by
      refine List.eq_replicate_iff.mpr ⟨List.length_reverse, fun c hc => ?_⟩
      simpa using List.mem_takeWhile_imp (List.mem_reverse.mp hc)
    refine ⟨(reversed.takeWhile (· == '.')).length, ?_⟩
    calc text.toList =
           (reversed.takeWhile (· == '.') ++ reversed.dropWhile (· == '.')).reverse := by
          rw [List.takeWhile_append_dropWhile, hreversed, List.reverse_reverse]
      _ = (reversed.dropWhile (· == '.')).reverse ++ (reversed.takeWhile (· == '.')).reverse :=
          List.reverse_append
      _ = (Text.stripEnd '.' text).toList ++ List.replicate
          (reversed.takeWhile (· == '.')).length '.' := by rw [hlist, hdots]
  · rw [hlist, List.getLast?_reverse]
    intro hhead
    have hdot := List.head?_dropWhile_not (· == '.') reversed
    rw [hhead] at hdot
    simp at hdot

/-- A location can be written. -/
def Location.IsWritable (l : Location) : Prop := ∃ text, l.text = .ok text

/-- The place of a finding can be written: it is the code base, which is not written, or a location
that can be. -/
def Finding.HasWritablePlace (f : Finding) : Prop :=
  f.location.file = wholeCodebase ∨ f.location.IsWritable

/-- A place as it stands in a recommendation. -/
inductive IsPlaceText (l : Location) : String → Prop where
  | codebase (h : l.file = wholeCodebase) : IsPlaceText l ""
  | located {text : String} (h : l.file ≠ wholeCodebase) (htext : l.text = .ok text) :
      IsPlaceText l (", first at " ++ text)

theorem firstPlace_eq_ok_iff {f : Finding} {place : String} :
    firstPlace f = .ok place ↔ IsPlaceText f.location place := by
  unfold firstPlace
  split
  · rename_i hfile
    constructor
    · intro h
      cases h
      exact .codebase hfile
    · intro h
      cases h with
      | codebase => rfl
      | located hne => exact absurd hfile hne
  · rename_i hfile
    constructor
    · intro h
      obtain ⟨text, htext, h⟩ := bind_eq_ok_iff.mp h
      cases h
      exact .located hfile htext
    · intro h
      cases h with
      | codebase hcodebase => exact absurd hcodebase hfile
      | located _ htext => exact bind_eq_ok_iff.mpr ⟨_, htext, rfl⟩

theorem exists_isPlaceText_iff {f : Finding} :
    (∃ place, IsPlaceText f.location place) ↔ f.HasWritablePlace := by
  constructor
  · rintro ⟨place, hcodebase | ⟨-, htext⟩⟩
    · exact Or.inl hcodebase
    · exact Or.inr ⟨_, htext⟩
  · rintro (hcodebase | ⟨text, htext⟩)
    · exact ⟨_, .codebase hcodebase⟩
    · by_cases hfile : f.location.file = wholeCodebase
      · exact ⟨_, .codebase hfile⟩
      · exact ⟨_, .located hfile htext⟩

/-- A recommendation speaks for findings of a category: it says how many they are, and it repeats
what the first of them suggests, with its place unless that is the code base as a whole. -/
structure Recommendation.SpeaksFor (r : Recommendation) (c : Category) (found : List Finding) :
    Prop where
  category_eq : r.category = c
  occurrences_eq : r.occurrences = found.length
  text_eq : ∃ first stem place, found.head? = some first ∧ IsStem first.suggestion stem ∧
    IsPlaceText first.location place ∧
    r.text = stem ++ " (" ++ Nat.repr found.length ++
      (if found.length = 1 then " finding" else " findings") ++ place ++ ")."

theorem recommendation_eq_ok_iff {c : Category} {kind : String} {g : FindingGroup}
    {rec : Recommendation} : recommendation c kind g = .ok rec ↔
      ∃ text, recommendationText g.first g.count = .ok text ∧ rec = ⟨c, kind, text, g.count⟩ := by
  unfold recommendation
  rw [bind_eq_ok_iff]
  exact exists_congr fun text => and_congr_right fun _ =>
    ⟨fun h => (Except.ok.inj h).symm, fun h => h ▸ rfl⟩

/-- A recommendation is about the category, the kind and the number of the findings it was made
for. -/
theorem parts_of_recommendation {c : Category} {kind : String} {g : FindingGroup}
    {rec : Recommendation} (h : recommendation c kind g = .ok rec) :
    rec.category = c ∧ rec.kind = kind ∧ rec.occurrences = g.count := by
  obtain ⟨text, -, rfl⟩ := recommendation_eq_ok_iff.mp h
  exact ⟨rfl, rfl, rfl⟩

theorem exists_recommendation_iff {c : Category} {kind : String} {g : FindingGroup} :
    (∃ rec, recommendation c kind g = .ok rec) ↔ g.first.HasWritablePlace := by
  rw [← exists_isPlaceText_iff]
  simp only [← firstPlace_eq_ok_iff, recommendation_eq_ok_iff, recommendationText, bind_eq_ok_iff]
  constructor
  · rintro ⟨rec, text, ⟨place, hplace, -⟩, -⟩
    exact ⟨place, hplace⟩
  · rintro ⟨place, hplace⟩
    exact ⟨_, _, ⟨place, hplace, rfl⟩, rfl⟩

theorem recommendation_speaksFor {c : Category} {kind : String} {g : FindingGroup}
    {rec : Recommendation} (h : recommendation c kind g = .ok rec) : rec.SpeaksFor c g.toList := by
  obtain ⟨text, htext, rfl⟩ := recommendation_eq_ok_iff.mp h
  obtain ⟨place, hplace, htext⟩ := bind_eq_ok_iff.mp htext
  cases htext
  refine ⟨rfl, (g.length_toList).symm, g.first, _, place, rfl, isStem_stripEnd _,
    firstPlace_eq_ok_iff.mp hplace, ?_⟩
  rw [g.length_toList]
  simp only [String.append_assoc]

/-! ## The recommendations of a category -/

/-- The number of kinds of findings of a category that ask for something. -/
def CategoryScore.kindCount (s : CategoryScore) : ℕ :=
  ((actionable s.findings).map (·.kind)).toFinset.card

/-- What is recommended for a category: the first kinds of findings that ask for something, at most
`most` of them, and for each of these kinds a recommendation that speaks for its findings. -/
structure Recommends (most : ℕ) (s : CategoryScore) (rs : List Recommendation) : Prop where
  length_eq : rs.length = min most s.kindCount
  kinds_eq : ∃ kinds, FirstSeen ((actionable s.findings).map (·.kind)) kinds ∧
    rs.map (·.kind) = kinds.take most
  speaksFor : ∀ r ∈ rs, r.SpeaksFor s.category ((actionable s.findings).filter (·.kind = r.kind))

/-- The first findings of the first kinds that ask for something, at most `most` of them, are in
places that can be written. -/
def CategoryScore.HasWritablePlaces (most : ℕ) (s : CategoryScore) : Prop :=
  ∀ kinds, FirstSeen ((actionable s.findings).map (·.kind)) kinds → ∀ kind ∈ kinds.take most,
    ∀ first, ((actionable s.findings).filter (·.kind = kind)).head? = some first →
      first.HasWritablePlace

section Category

variable (s : CategoryScore)

theorem length_groupByKind : (groupByKind (actionable s.findings)).length = s.kindCount := by
  rw [← List.length_map (·.1)]
  exact (groupsOf_groupByKind (actionable s.findings)).kinds.length_eq

/-- The first finding of a group is the first of its kind. -/
theorem head?_of_mem_groupByKind {findings : List Finding} {entry : String × FindingGroup}
    (h : entry ∈ groupByKind findings) :
    (findings.filter (·.kind = entry.1)).head? = some entry.2.first := by
  rw [← (groupsOf_groupByKind findings).members entry h]
  rfl

/-- There is only one order of first appearance. -/
theorem FirstSeen.eq {l kinds kinds' : List String} (h : FirstSeen l kinds)
    (h' : FirstSeen l kinds') : kinds = kinds' := by
  have hperm : kinds.Perm kinds' := by
    rw [List.perm_ext_iff_of_nodup h.nodup h'.nodup]
    exact fun kind => (h.mem_iff kind).trans (h'.mem_iff kind).symm
  exact hperm.eq_of_pairwise (fun a b _ _ hab hba => absurd (hab.trans hba) (lt_irrefl _)) h.ordered
    h'.ordered

theorem hasWritablePlaces_iff {s : CategoryScore} {most : ℕ} :
    s.HasWritablePlaces most ↔
      ∀ entry ∈ (groupByKind (actionable s.findings)).take most,
        entry.2.first.HasWritablePlace := by
  have hkinds := (groupsOf_groupByKind (actionable s.findings)).kinds
  constructor
  · intro h entry hentry
    refine h _ hkinds entry.1 ?_ _ (head?_of_mem_groupByKind (List.mem_of_mem_take hentry))
    rw [← List.map_take]
    exact List.mem_map_of_mem hentry
  · intro h kinds hseen kind hkind first hfirst
    rw [hseen.eq hkinds, ← List.map_take] at hkind
    obtain ⟨entry, hentry, rfl⟩ := List.mem_map.mp hkind
    rw [head?_of_mem_groupByKind (List.mem_of_mem_take hentry)] at hfirst
    cases hfirst
    exact h entry hentry

theorem exists_categoryRecommendations_iff {s : CategoryScore} {most : ℕ} :
    (∃ rs, categoryRecommendations most s = .ok rs) ↔ s.HasWritablePlaces most := by
  rw [hasWritablePlaces_iff]
  unfold categoryRecommendations
  simp only [mapM_eq_ok_iff]
  rw [exists_forall₂_iff]
  exact forall₂_congr fun entry _ => exists_recommendation_iff

variable {s} {most : ℕ} {rs : List Recommendation}

theorem forall₂_categoryRecommendations (h : categoryRecommendations most s = .ok rs) :
    List.Forall₂ (fun entry rec => recommendation s.category entry.1 entry.2 = .ok rec)
      ((groupByKind (actionable s.findings)).take most) rs := mapM_eq_ok_iff.mp h

/-- What is the same of a group and its recommendation is the same of all of them. -/
theorem map_categoryRecommendations {α : Type} {f : String × FindingGroup → α}
    {g : Recommendation → α} (h : categoryRecommendations most s = .ok rs)
    (hsame : ∀ entry rec, recommendation s.category entry.1 entry.2 = .ok rec → f entry = g rec) :
    ((groupByKind (actionable s.findings)).take most).map f = rs.map g := by
  refine List.forall₂_eq_eq_eq ▸ (List.forall₂_map_left_iff.mpr (List.forall₂_map_right_iff.mpr ?_))
  exact (forall₂_categoryRecommendations h).imp fun entry rec => hsame entry rec

theorem categoryRecommendations_recommends (h : categoryRecommendations most s = .ok rs) :
    Recommends most s rs := by
  have hgroups := groupsOf_groupByKind (actionable s.findings)
  refine ⟨?_, ⟨_, hgroups.kinds, ?_⟩, ?_⟩
  · rw [← (forall₂_categoryRecommendations h).length_eq, List.length_take, length_groupByKind]
  · rw [← List.map_take]
    exact (map_categoryRecommendations h fun entry rec hrec =>
      (parts_of_recommendation hrec).2.1.symm).symm
  · intro r hr
    obtain ⟨entry, hentry, hrec⟩ := exists_of_mem_forall₂ (forall₂_categoryRecommendations h) hr
    have hmembers := hgroups.members entry (List.mem_of_mem_take hentry)
    rw [(parts_of_recommendation hrec).2.1, ← hmembers]
    exact recommendation_speaksFor hrec

/-- If no kind is cut off, every finding that asks for something is counted. -/
theorem sum_occurrences (h : categoryRecommendations most s = .ok rs) (hall : s.kindCount ≤ most) :
    (rs.map (·.occurrences)).sum = (actionable s.findings).length := by
  have hwhole :
      (groupByKind (actionable s.findings)).take most = groupByKind (actionable s.findings) :=
    List.take_of_length_le (by rw [length_groupByKind]; exact hall)
  rw [← map_categoryRecommendations h fun entry rec hrec => (parts_of_recommendation hrec).2.2.symm,
    hwhole]
  exact (groupsOf_groupByKind (actionable s.findings)).total

/-- A lower cap leaves the first recommendations. -/
theorem categoryRecommendations_prefix {more : ℕ} (hle : most ≤ more)
    (h : categoryRecommendations more s = .ok rs) :
    ∃ fewer, categoryRecommendations most s = .ok fewer ∧ fewer <+: rs := by
  have htake :
      ((groupByKind (actionable s.findings)).take more).take most =
        (groupByKind (actionable s.findings)).take most := by
    rw [List.take_take, min_eq_left hle]
  refine ⟨rs.take most, ?_, List.take_prefix most rs⟩
  rw [categoryRecommendations, mapM_eq_ok_iff, ← htake]
  exact List.forall₂_take most (forall₂_categoryRecommendations h)

/-- A category on its own. -/
theorem recommendations_singleton {n : Int} (hn : 0 < n) (s : CategoryScore) :
    recommendations n [s] = categoryRecommendations n.toNat s := by
  rw [recommendations, if_neg (by omega), List.mergeSort_singleton]
  cases h : categoryRecommendations n.toNat s with
  | error e => simp [h]
  | ok rs => simp [h]

end Category

/-! ## All categories -/

theorem inOrder_trans (a b c : CategoryScore) (hab : inOrder a b = true)
    (hbc : inOrder b c = true) : inOrder a c = true := by
  simp only [inOrder, decide_eq_true_eq] at hab hbc ⊢
  omega

theorem inOrder_total (a b : CategoryScore) : (inOrder a b || inOrder b a) = true := by
  simp only [inOrder, Bool.or_eq_true, decide_eq_true_eq]
  omega

/-- Scores of distinct categories have one order. -/
theorem pairwise_order_mergeSort {scores : List CategoryScore}
    (h : (scores.map (·.category)).Nodup) :
    (scores.mergeSort inOrder).Pairwise fun s t => s.category.order < t.category.order := by
  have hsorted : (scores.mergeSort inOrder).Pairwise fun s t => inOrder s t = true :=
    List.pairwise_mergeSort inOrder_trans inOrder_total scores
  have hperm : ((scores.mergeSort inOrder).map (·.category)).Perm (scores.map (·.category)) :=
    (List.mergeSort_perm scores inOrder).map _
  have hdistinct : (scores.mergeSort inOrder).Pairwise fun s t => s.category ≠ t.category :=
    List.pairwise_map.mp (hperm.nodup_iff.mpr h)
  refine (hsorted.and hdistinct).imp ?_
  rintro s t ⟨hle, hne⟩
  have hle' : s.category.order ≤ t.category.order := by simpa [inOrder] using hle
  exact lt_of_le_of_ne hle' fun e => hne (Category.order_injective e)

theorem recommendations_of_nonpos {n : Int} (hn : n ≤ 0) (scores : List CategoryScore) :
    recommendations n scores = .ok [] := if_pos hn

theorem recommendations_eq_ok_iff {n : Int} (hn : 0 < n) {scores : List CategoryScore}
    {rs : List Recommendation} : recommendations n scores = .ok rs ↔
      ∃ parts, List.Forall₂ (fun s part => categoryRecommendations n.toNat s = .ok part)
        (scores.mergeSort inOrder) parts ∧ rs = parts.flatten := by
  rw [recommendations, if_neg (by omega), bind_eq_ok_iff]
  simp only [mapM_eq_ok_iff]
  exact exists_congr fun parts => and_congr_right fun _ =>
    ⟨fun h => (Except.ok.inj h).symm, fun h => h ▸ rfl⟩

/-- The places that the recommendations for some scores name can be written. -/
def AreWritable (n : Int) (scores : List CategoryScore) : Prop :=
  0 < n → ∀ s ∈ scores, s.HasWritablePlaces n.toNat

/-- There are recommendations if and only if the places they name can be written. -/
theorem exists_recommendations_iff {n : Int} {scores : List CategoryScore} :
    (∃ rs, recommendations n scores = .ok rs) ↔ AreWritable n scores := by
  unfold AreWritable
  by_cases hn : 0 < n
  · simp only [recommendations_eq_ok_iff hn, hn, forall_const]
    constructor
    · rintro ⟨-, parts, hparts, -⟩ s hs
      have hall := exists_forall₂_iff.mp ⟨parts, hparts⟩ s (List.mem_mergeSort.mpr hs)
      exact exists_categoryRecommendations_iff.mp hall
    · intro h
      obtain ⟨parts, hparts⟩ := exists_forall₂_iff.mpr fun s (hs : s ∈ scores.mergeSort inOrder) =>
        exists_categoryRecommendations_iff.mpr (h s (List.mem_mergeSort.mp hs))
      exact ⟨_, parts, hparts, rfl⟩
  · exact ⟨fun _ hpos => absurd hpos hn, fun _ => ⟨[], recommendations_of_nonpos (by omega) scores⟩⟩

theorem areWritable_perm {n : Int} {scores scores' : List CategoryScore} (h : scores.Perm scores') :
    AreWritable n scores ↔ AreWritable n scores' :=
  forall_congr' fun _ => forall_congr' fun _ => imp_congr_left h.mem_iff

/-- Findings at locations that can be written stop no recommendation. -/
theorem CategoryScore.hasWritablePlaces_of_findings {s : CategoryScore}
    (h : ∀ f ∈ s.findings, f.HasWritablePlace) (most : ℕ) : s.HasWritablePlaces most := by
  intro kinds _ kind _ first hfirst
  exact h first (List.mem_filter.mp (List.mem_filter.mp (List.mem_of_mem_head? hfirst)).1).1

theorem areWritable_of_findings {scores : List CategoryScore}
    (h : ∀ s ∈ scores, ∀ f ∈ s.findings, f.HasWritablePlace) (n : Int) : AreWritable n scores :=
  fun _ s hs => CategoryScore.hasWritablePlaces_of_findings (h s hs) n.toNat

/-- **Recommendations group the findings and lose none.** Without a positive cap there are none.
With one there are some if and only if the place of the first finding of each kind that is not cut
off can be written. Each category has its own recommendations, and these stand in the order of the
categories, whatever the order of the scores is. There is one for each kind of finding that asks for
something, in the order in which the kinds first appear, until the cap is reached; it counts the
findings of its kind and quotes the first of them. A lower cap only drops recommendations at the end
of a category, and if the cap cuts off no kind, every finding that asks for something is counted
once. -/
theorem recommendations_group_findings (scores : List CategoryScore)
    (hdistinct : (scores.map (·.category)).Nodup) (n : Int) :
    (n ≤ 0 → recommendations n scores = .ok []) ∧
      ((∃ rs, recommendations n scores = .ok rs) ↔ AreWritable n scores) ∧
      (∀ rs, recommendations n scores = .ok rs →
        ∃ ordered : List CategoryScore, ordered.Perm scores ∧
          ordered.Pairwise (fun s t => s.category.order < t.category.order) ∧
          ∃ parts, List.Forall₂ (fun s part => recommendations n [s] = .ok part) ordered parts ∧
            rs = parts.flatten) ∧
      ∀ s ∈ scores,
        (∀ more, recommendations (n + 1) [s] = .ok more →
          ∃ rs, recommendations n [s] = .ok rs ∧ rs <+: more) ∧
        ∀ rs, recommendations n [s] = .ok rs →
          (0 < n → Recommends n.toNat s rs) ∧
          (s.kindCount ≤ n → (rs.map (·.occurrences)).sum = (actionable s.findings).length) := by
  refine ⟨fun hn => recommendations_of_nonpos hn scores, exists_recommendations_iff, fun rs h => ?_,
    fun s _ => ⟨fun more h => ?_, fun rs h => ?_⟩⟩
  · refine ⟨scores.mergeSort inOrder, List.mergeSort_perm scores inOrder,
      pairwise_order_mergeSort hdistinct, ?_⟩
    by_cases hn : 0 < n
    · simp only [recommendations_singleton hn]
      exact (recommendations_eq_ok_iff hn).mp h
    · -- without a cap every category has an empty part
      rw [recommendations_of_nonpos (by omega)] at h
      cases h
      obtain ⟨parts, hparts⟩ :=
        (exists_forall₂_iff (R := fun s part => recommendations n [s] = .ok part)).mpr
        fun s (_ : s ∈ scores.mergeSort inOrder) => ⟨[], recommendations_of_nonpos (by omega) [s]⟩
      refine ⟨parts, hparts, (List.flatten_eq_nil_iff.mpr fun part hpart => ?_).symm⟩
      obtain ⟨s, -, hs⟩ := exists_of_mem_forall₂ hparts hpart
      rw [recommendations_of_nonpos (by omega)] at hs
      exact (Except.ok.inj hs).symm
  · by_cases hn : 0 < n
    · rw [recommendations_singleton (by omega)] at h ⊢
      exact categoryRecommendations_prefix (by omega) h
    · exact ⟨[], recommendations_of_nonpos (by omega) [s], List.nil_prefix⟩
  · by_cases hn : 0 < n
    · rw [recommendations_singleton hn] at h
      exact ⟨fun _ => categoryRecommendations_recommends h,
        fun hall => sum_occurrences h (by omega)⟩
    · rw [recommendations_of_nonpos (by omega)] at h
      cases h
      refine ⟨fun hpos => absurd hpos hn, fun hall => ?_⟩
      -- there is no kind at all, and so there is nothing to count
      have hkinds : s.kindCount ≤ 0 := by omega
      have hnone : categoryRecommendations 0 s = .ok [] := rfl
      exact sum_occurrences hnone hkinds

/-- Two kinds of findings that take turns, with one that suggests nothing: each kind has one
recommendation, and together they count the three others. -/
theorem recommendations_group_findings_interleaved :
    let named : Finding :=
      { ruleId := "naming.class_names", kind := "naming.class_names", message := ""
        location := ⟨"a.py", .int 3, .int 3⟩
        suggestion := "Rename classes to CapWords." }
    let general : Finding :=
      { named with
        kind := "naming.function_names", location := .codebase
        suggestion := "Rename functions..." }
    let note : Finding := { named with suggestion := "" }
    let naming : CategoryScore :=
      { category := .naming, rawScore := .finite 5, findings := [named, general, note, named] }
    let layout : CategoryScore :=
      { category := .layout, rawScore := .finite 9, findings := [general] }
    ([naming, layout].map (·.category)).Nodup ∧ naming.kindCount = 2 ∧
      ∃ rs, recommendations 2 [naming] = .ok rs ∧ Recommends 2 naming rs ∧
        (∃ fewer, recommendations 1 [naming] = .ok fewer ∧ fewer <+: rs) ∧
          (rs.map (·.occurrences)).sum = 3 := by
  intro named general note naming layout
  have hdistinct : ([naming, layout].map (·.category)).Nodup := by decide
  have hkinds : naming.kindCount = 2 := by decide
  obtain ⟨-, -, -, hone⟩ := recommendations_group_findings [naming, layout] hdistinct 1
  obtain ⟨-, -, -, htwo⟩ := recommendations_group_findings [naming, layout] hdistinct 2
  have hwritable : ∀ f ∈ naming.findings, f.HasWritablePlace := by
    have hnamed : named.HasWritablePlace := Or.inr ⟨"a.py:3", by decide +kernel⟩
    have hgeneral : general.HasWritablePlace := Or.inl rfl
    have hnote : note.HasWritablePlace := hnamed
    simp [naming, hnamed, hgeneral, hnote]
  obtain ⟨rs, hrs⟩ := exists_recommendations_iff.mpr
    (areWritable_of_findings (List.forall_mem_singleton.mpr hwritable) 2)
  obtain ⟨hrecommends, hcounted⟩ := (htwo naming List.mem_cons_self).2 rs hrs
  exact ⟨hdistinct, hkinds, rs, hrs, hrecommends (by decide),
    (hone naming List.mem_cons_self).1 rs hrs, hcounted (by rw [hkinds]; decide)⟩

/-- A finding on a line with more digits than can be written: there is no recommendation for it. -/
theorem unwritable_line_stops_recommendations :
    let far : Finding :=
      { ruleId := "layout.line_length", kind := "layout.line_length", message := ""
        location := ⟨"a.py", .int (10 ^ 4300), .int (10 ^ 4300)⟩, suggestion := "Wrap long lines." }
    let layout : CategoryScore := { category := .layout, rawScore := .finite 9, findings := [far] }
    layout.kindCount = 1 ∧ recommendations 1 [layout] = .error .tooManyDigits := by
  decide +kernel

end Scorecard
