import Mathlib.Data.List.Sort
import Mathlib.Data.String.Basic
import Scorecard.Fact.Model
import Scorecard.Proofs.Entries

set_option autoImplicit false

/-! # What a fact model answers

A fact model is built by one pass over the facts. What it answers afterwards is what a search
through the facts would give: the facts of a kind (`ofKind_build`) or of a file (`inFile_build`), in
order, and whether a location lies in the code base (`contains_build_iff`). The files of a model do
not depend on the order or the number of times they are named.
-/

namespace Scorecard

/-! ## Distinct elements -/

section Distinct

variable {α : Type} [BEq α]

theorem eraseDups_sublist : (l : List α) → l.eraseDups.Sublist l
  | [] => by simp
  | a :: rest => by
      rw [List.eraseDups_cons]
      have hrest := (eraseDups_sublist (rest.filter fun b => !b == a)).trans List.filter_sublist
      exact hrest.cons_cons a
termination_by l => l.length
decreasing_by exact Nat.lt_succ_of_le (List.length_filter_le _ _)

variable [LawfulBEq α]

theorem nodup_eraseDups : (l : List α) → l.eraseDups.Nodup
  | [] => by simp
  | a :: rest => by
      rw [List.eraseDups_cons, List.nodup_cons]
      refine ⟨?_, nodup_eraseDups (rest.filter fun b => !b == a)⟩
      rw [List.mem_eraseDups, List.mem_filter]
      simp
termination_by l => l.length
decreasing_by exact Nat.lt_succ_of_le (List.length_filter_le _ _)

/-- The distinct elements are the same for lists with the same elements, up to their order. -/
theorem eraseDups_perm {l l' : List α} (h : ∀ a, a ∈ l ↔ a ∈ l') :
    l.eraseDups.Perm l'.eraseDups := by
  rw [List.perm_ext_iff_of_nodup (nodup_eraseDups l) (nodup_eraseDups l')]
  intro a
  rw [List.mem_eraseDups, List.mem_eraseDups]
  exact h a

end Distinct

namespace Text

theorem precedes_iff (a b : String) : precedes a b = true ↔ a ≤ b := by
  rw [precedes, Bool.or_eq_true, decide_eq_true_eq, beq_iff_eq, le_iff_lt_or_eq]

@[simp] theorem mem_sortedSet {s : String} {items : List String} :
    s ∈ sortedSet items ↔ s ∈ items := by
  rw [sortedSet, List.mem_eraseDups, List.mem_mergeSort]

theorem pairwise_mergeSort (items : List String) : (items.mergeSort precedes).Pairwise (· ≤ ·) := by
  have hsorted : (items.mergeSort precedes).Pairwise fun a b => precedes a b = true :=
    List.pairwise_mergeSort
      (fun a b c hab hbc => (precedes_iff a c).mpr
        (((precedes_iff a b).mp hab).trans ((precedes_iff b c).mp hbc)))
      (fun a b => by simpa [precedes_iff] using le_total a b) items
  exact hsorted.imp fun h => (precedes_iff _ _).mp h

theorem sortedSet_pairwise (items : List String) : (sortedSet items).Pairwise (· ≤ ·) :=
  (pairwise_mergeSort items).sublist (eraseDups_sublist _)

theorem sortedSet_pairwise_lt (items : List String) : (sortedSet items).Pairwise (· < ·) := by
  have hnodup : (sortedSet items).Nodup := nodup_eraseDups _
  exact (sortedSet_pairwise items).imp₂ (fun _ _ hle hne => lt_of_le_of_ne hle hne) hnodup

/-- A set is written in one way only. -/
theorem sortedSet_congr {items items' : List String} (h : ∀ s, s ∈ items ↔ s ∈ items') :
    sortedSet items = sortedSet items' := by
  refine List.Perm.eq_of_pairwise (fun a b _ _ => le_antisymm) (sortedSet_pairwise items)
    (sortedSet_pairwise items') ?_
  refine eraseDups_perm fun s => ?_
  rw [List.mem_mergeSort, List.mem_mergeSort]
  exact h s

end Text

/-! ## Indexes -/

namespace FactIndex

variable (key : Fact → String)

/-- What is found under a key while an index is filled. -/
def found (index : List (String × Array Fact)) (k : String) : List Fact :=
  ((index.lookup k).getD #[]).toList

/-- Adding a fact puts it at the end of what is found under its key, and changes nothing under other
keys. -/
theorem found_add (index : List (String × Array Fact)) (f : Fact) (k : String) :
    found (add key index f) k = found index k ++ if key f = k then [f] else [] := by
  rw [found, add, lookup_alterEntry]
  by_cases hk : key f = k
  · subst hk
    simp [found]
  · have hne : ¬k = key f := fun e => hk e.symm
    simp [found, hk, hne]

theorem found_foldl_add (facts : List Fact) (index : List (String × Array Fact)) (k : String) :
    found (facts.foldl (add key) index) k = found index k ++ facts.filter (key · = k) := by
  induction facts generalizing index with
  | nil => simp
  | cons f rest ih =>
      rw [List.foldl_cons, ih, found_add, List.append_assoc]
      by_cases hk : key f = k
      · simp [hk]
      · simp [hk]

/-- **An index finds the facts with a key, in order.** -/
theorem get_of (facts : List Fact) (k : String) :
    (of key facts).get k = facts.filter (key · = k) := by
  have hfound := found_foldl_add key facts [] k
  rw [get, of, lookup_mapValues]
  simpa [found, Option.getD_map] using hfound

end FactIndex

/-! ## Models -/

namespace FactModel

variable (facts : List Fact) (files : List String) (root : String)

@[simp] theorem ofKind_build (kind : String) :
    (build facts files root).ofKind kind = facts.filter (·.kind = kind) :=
  FactIndex.get_of (·.kind) facts kind

@[simp] theorem inFile_build (file : String) :
    (build facts files root).inFile file = facts.filter (·.location.file = file) :=
  FactIndex.get_of (·.location.file) facts file

theorem testFiles_build :
    (build facts files root).counters.testFiles =
      countFiles ((facts.filter (·.kind = Kind.testFile)).filter (·.isTrue)) := by
  simp only [build, Counters.of, FactIndex.get_of]

theorem totalFiles_build :
    (build facts files root).counters.totalFiles =
      countFiles (facts.filter (·.kind = Kind.moduleLength) ++
        facts.filter (·.kind = Kind.testFile)) := by
  simp only [build, Counters.of, FactIndex.get_of]

theorem mem_files_build (file : String) :
    file ∈ (build facts files root).files ↔
      (file ∈ files ∨ ∃ f ∈ facts, f.location.file = file) ∧ file ≠ wholeCodebase := by
  simp only [build, Text.mem_sortedSet, List.mem_filter, List.mem_append, List.mem_map,
    decide_eq_true_eq]
  exact and_congr_left fun _ => or_comm

/-- A location lies in the code base if it is the code base, or if its file is given or is the file
of a fact. -/
theorem contains_build_iff (l : Location) :
    (build facts files root).contains l = true ↔
      l.file = wholeCodebase ∨ l.file ∈ files ∨ ∃ f ∈ facts, f.location.file = l.file := by
  have hmem := mem_files_build facts files root l.file
  by_cases hwhole : l.file = wholeCodebase
  · simp [contains, hwhole]
  · simpa [contains, hwhole] using hmem

variable {facts}

/-- Where a fact was made lies in the code base. -/
theorem contains_build_of_mem {f : Fact} (h : f ∈ facts) :
    (build facts files root).contains f.location = true :=
  (contains_build_iff facts files root f.location).mpr (Or.inr (Or.inr ⟨f, h, rfl⟩))

end FactModel

end Scorecard
