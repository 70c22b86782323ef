import Mathlib.Algebra.Order.BigOperators.Group.List
import Mathlib.Data.List.Lex
import Scorecard.Codebase.FileTree
import Scorecard.Proofs.FactModel

set_option autoImplicit false

/-! # Places in a file tree

What is below a directory: every place with an entry, once (`mem_below_iff`) and in the order of
paths (`pairwise_below`). So two trees with files and directories in the same places list the same
places below a directory (`SameShape.below_eq`). A tree keeps its shape if a file is written over
(`sameShape_of_write`), and only what is in this file changes (`entryAt_of_write`).
-/

namespace Scorecard

/-! ## The order of paths -/

/-- One path comes before another if their first names that differ do, or if it leads to the
other. -/
abbrev Path.Before : List String → List String → Prop := List.Lex (· < ·)

theorem Path.precedes_iff (a b : List String) : precedes a b = true ↔ a = b ∨ Before a b := by
  induction a generalizing b with
  | nil =>
      cases b with
      | nil => exact ⟨fun _ => Or.inl rfl, fun _ => rfl⟩
      | cons y b => exact ⟨fun _ => Or.inr .nil, fun _ => rfl⟩
  | cons x a ih =>
      cases b with
      | nil =>
          constructor
          · exact fun h => absurd h Bool.false_ne_true
          · rintro (h | h) <;> cases h
      | cons y b =>
          rw [precedes, Before, List.cons_lex_cons_iff, List.cons.injEq]
          -- the first names that differ decide
          by_cases hxy : x = y
          · subst hxy
            simp only [if_true, ih, lt_irrefl, true_and, false_or]
          · simp only [if_false, decide_eq_true_eq, hxy, false_and, false_or, or_false]

theorem Path.precedes_trans (a b c : List String) (hab : precedes a b = true)
    (hbc : precedes b c = true) : precedes a c = true := by
  rw [precedes_iff] at hab hbc ⊢
  rcases hab with rfl | hab
  · exact hbc
  · rcases hbc with rfl | hbc
    · exact Or.inr hab
    · exact Or.inr (lt_trans (show a < b from hab) hbc)

theorem Path.precedes_total (a b : List String) : (precedes a b || precedes b a) = true := by
  rw [Bool.or_eq_true, precedes_iff, precedes_iff]
  rcases lt_trichotomy a b with h | h | h
  · exact Or.inl (Or.inr h)
  · exact Or.inl (Or.inl h)
  · exact Or.inr (Or.inr h)

namespace FileTree

variable {t t' : FileTree} {place names : List String}

/-! ## Places -/

/-- There is an entry on the way to every place that is listed, and nowhere else. -/
theorem isSome_entryAt_iff : (t.entryAt place).isSome ↔ ∃ p ∈ t.places, place <+: p := by
  rw [entryAt]
  cases hlookup : t.entries.lookup place with
  | some e =>
      -- an entry is on the way to its own place
      have hmem := List.mem_map_of_mem (f := Prod.fst) (mem_of_lookup_eq_some hlookup)
      exact ⟨fun _ => ⟨place, List.mem_cons_of_mem _ hmem, List.prefix_rfl⟩, fun _ => rfl⟩
  | none =>
      have hany : t.places.any (place.isPrefixOf ·) = true ↔ ∃ p ∈ t.places, place <+: p := by
        simp only [List.any_eq_true, List.isPrefixOf_iff_prefix]
      rw [← hany]
      by_cases h : t.places.any (place.isPrefixOf ·) = true
      · simp [h]
      · simp [h]

theorem mem_wayTo_iff : names ∈ wayTo place ↔ names ≠ [] ∧ names <+: place := by
  rw [wayTo, List.mem_map]
  constructor
  · rintro ⟨n, hn, rfl⟩
    refine ⟨fun h => ?_, List.take_prefix _ _⟩
    have hlength := congrArg List.length h
    rw [List.length_take, List.length_nil] at hlength
    have := List.mem_range.mp hn
    omega
  · rintro ⟨hne, hprefix⟩
    have hlength : 0 < names.length := List.length_pos_iff.mpr hne
    have hle := hprefix.length_le
    refine ⟨names.length - 1, List.mem_range.mpr (by omega), ?_⟩
    rw [Nat.sub_add_cancel hlength]
    exact (List.prefix_iff_eq_take.mp hprefix).symm

/-- What is below a directory leads from it to an entry. -/
theorem mem_below_iff : names ∈ t.below place ↔ names ≠ [] ∧
    (t.entryAt (place ++ names)).isSome := by
  rw [below, List.mem_eraseDups, List.mem_mergeSort, isSome_entryAt_iff, List.mem_flatMap]
  constructor
  · rintro ⟨rest, hrest, hnames⟩
    obtain ⟨p, hp, hdrop⟩ := List.mem_filterMap.mp hrest
    obtain ⟨hne, hprefix⟩ := mem_wayTo_iff.mp hnames
    split at hdrop
    · rename_i hplace
      cases hdrop
      refine ⟨hne, p, hp, ?_⟩
      rw [← List.prefix_iff_eq_append.mp (List.isPrefixOf_iff_prefix.mp hplace)]
      exact (List.prefix_append_right_inj place).mpr hprefix
    · cases hdrop
  · -- the names go on to a place that is listed, and its way passes through theirs
    rintro ⟨hne, p, hp, rest, rfl⟩
    refine ⟨names ++ rest, List.mem_filterMap.mpr ⟨_, hp, ?_⟩,
      mem_wayTo_iff.mpr ⟨hne, List.prefix_append _ _⟩⟩
    rw [List.append_assoc, if_pos (List.isPrefixOf_iff_prefix.mpr (List.prefix_append _ _)),
      List.drop_left]

theorem mem_children_iff {name : String} :
    name ∈ t.children place ↔ (t.entryAt (place ++ [name])).isSome := by
  rw [children, List.mem_eraseDups, isSome_entryAt_iff, List.mem_filterMap]
  constructor
  · rintro ⟨p, hp, hname⟩
    split at hname
    · rename_i hplace
      obtain ⟨rest, hdrop⟩ := List.head?_eq_some_iff.mp hname
      refine ⟨p, hp, rest, ?_⟩
      rw [List.append_assoc, List.singleton_append, ← hdrop]
      exact List.prefix_iff_eq_append.mp (List.isPrefixOf_iff_prefix.mp hplace)
    · cases hname
  · rintro ⟨p, hp, rest, rfl⟩
    refine ⟨_, hp, ?_⟩
    rw [List.append_assoc, if_pos (List.isPrefixOf_iff_prefix.mpr (List.prefix_append _ _)),
      List.drop_left]
    rfl

/-- **The places below a directory** are listed in the order of paths, each once. -/
theorem pairwise_below (t : FileTree) (place : List String) :
    (t.below place).Pairwise Path.Before := by
  have hsorted : (t.below place).Pairwise fun a b => Path.precedes a b = true :=
    (List.pairwise_mergeSort Path.precedes_trans Path.precedes_total _).sublist
      (eraseDups_sublist _)
  -- the order is strict as no place is listed twice
  have hnodup : (t.below place).Pairwise (· ≠ ·) := nodup_eraseDups _
  exact (hsorted.and hnodup).imp fun ⟨hle, hne⟩ => ((Path.precedes_iff _ _).mp hle).resolve_left hne

/-! ## Trees of one shape -/

/-- Two trees with files and directories in the same places. -/
def SameShape (t t' : FileTree) : Prop :=
  ∀ p, t.isFileAt p = t'.isFileAt p ∧ t.isDirectoryAt p = t'.isDirectoryAt p

theorem isSome_entryAt_eq (t : FileTree) (p : List String) :
    (t.entryAt p).isSome = (t.isFileAt p || t.isDirectoryAt p) := by
  rw [isFileAt, isDirectoryAt]
  rcases t.entryAt p with _ | (_ | _) <;> rfl

theorem SameShape.isSome_entryAt (h : SameShape t t') (p : List String) :
    (t.entryAt p).isSome = (t'.entryAt p).isSome := by
  rw [isSome_entryAt_eq, isSome_entryAt_eq, (h p).1, (h p).2]

theorem SameShape.below_eq (h : SameShape t t') (place : List String) :
    t.below place = t'.below place := by
  have hnodup : ∀ t : FileTree, (t.below place).Nodup := fun t => nodup_eraseDups _
  -- a list in a strict order is determined by its members
  refine List.Perm.eq_of_pairwise (fun a b _ _ hab hba =>
    absurd hba (lt_asymm (show a < b from hab))) (pairwise_below t place)
    (pairwise_below t' place) ?_
  rw [List.perm_ext_iff_of_nodup (hnodup t) (hnodup t')]
  intro names
  rw [mem_below_iff, mem_below_iff, h.isSome_entryAt]

/-! ## Writing over a file -/

theorem lookup_filter_ne {entries : List (List String × Entry)} {p : List String} (h : p ≠ place) :
    (entries.filter (·.1 ≠ place)).lookup p = entries.lookup p := by
  induction entries with
  | nil => rfl
  | cons entry entries ih =>
      obtain ⟨q, e⟩ := entry
      by_cases hq : q = place
      · rw [List.filter_cons_of_neg (by simp [hq]), ih, List.lookup_cons, beq_false_of_ne (hq ▸ h)]
      · rw [List.filter_cons_of_pos (by simp [hq]), List.lookup_cons, List.lookup_cons, ih]

theorem lookup_of_isFileAt (h : t.isFileAt place) :
    ∃ bytes, t.entries.lookup place = some (.file bytes) := by
  rw [isFileAt, entryAt] at h
  split at h
  · rename_i bytes hentry
    split at hentry
    · rename_i e hlookup
      exact ⟨bytes, by rw [hlookup, hentry]⟩
    · split at hentry <;> cases hentry
  · exact absurd h Bool.false_ne_true

/-- Only what is in the file changes. -/
theorem entryAt_of_write {bytes : List Nat} (hfile : t.isFileAt place)
    (h : t.write place bytes = .ok t') (p : List String) :
    t'.entryAt p = if p = place then some (.file bytes) else t.entryAt p := by
  obtain ⟨old, hlookup⟩ := lookup_of_isFileAt hfile
  have hentry : t.entryAt place = some (.file old) := by rw [entryAt, hlookup]
  rw [write, hentry] at h
  cases h
  rw [entryAt]
  by_cases hp : p = place
  · rw [if_pos hp, List.lookup_cons, hp, beq_self_eq_true]
  · rw [if_neg hp, List.lookup_cons, beq_false_of_ne hp, lookup_filter_ne hp, entryAt]
    -- the place of the file was listed before
    have hmem : place ∈ t.entries.map (·.1) :=
      List.mem_map_of_mem (f := Prod.fst) (mem_of_lookup_eq_some hlookup)
    have hplaces :
        ∀ q, q ∈ places ⟨t.home, (place, .file bytes) :: t.entries.filter (·.1 ≠ place)⟩ ↔
          q ∈ t.places := by
      intro q
      by_cases hq : q = place
      · simp [places, hq, hmem]
      · simp [places, hq]
    have hany :
        (places ⟨t.home, (place, .file bytes) :: t.entries.filter (·.1 ≠ place)⟩).any
          (p.isPrefixOf ·) =
        t.places.any (p.isPrefixOf ·) := by
      rw [Bool.eq_iff_iff, List.any_eq_true, List.any_eq_true]
      exact exists_congr fun q => and_congr_left fun _ => hplaces q
    rw [hany]

theorem sameShape_of_write {bytes : List Nat} (hfile : t.isFileAt place)
    (h : t.write place bytes = .ok t') : SameShape t t' := by
  intro p
  have hentry := entryAt_of_write hfile h p
  by_cases hp : p = place
  · obtain ⟨old, hlookup⟩ := lookup_of_isFileAt hfile
    have hold : t.entryAt p = some (.file old) := by rw [hp, entryAt, hlookup]
    rw [if_pos hp] at hentry
    simp [isFileAt, isDirectoryAt, hentry, hold]
  · rw [if_neg hp] at hentry
    simp [isFileAt, isDirectoryAt, hentry]

theorem resolve_of_write {bytes : List Nat} (h : t.write place bytes = .ok t') (path : Path) :
    t'.resolve path = t.resolve path := by
  rw [write] at h
  split at h
  · cases h
  · cases h
    rfl
  · split at h <;> cases h
    rfl

end FileTree

/-! ## The sizes of files -/

/-- The number of bytes in an entry. -/
def Entry.size : Entry → Nat
  | file bytes => bytes.length
  | directory => 0

namespace FileTree

/-- All files have fewer bytes. -/
def FilesBelow (most : Nat) (t : FileTree) : Prop := ∀ e ∈ t.entries, e.2.size < most

instance (most : Nat) (t : FileTree) : Decidable (t.FilesBelow most) :=
  inferInstanceAs (Decidable (∀ e ∈ t.entries, e.2.size < most))

theorem exists_filesBelow (t : FileTree) : ∃ most, t.FilesBelow most :=
  ⟨(t.entries.map (·.2.size)).sum + 1, fun _ he => Nat.lt_succ_of_le
    (List.le_sum_of_mem (List.mem_map_of_mem he))⟩

theorem FilesBelow.length_lt {t : FileTree} {most : Nat} (h : t.FilesBelow most)
    {place : List String} {bytes : List Nat} (hentry : t.entryAt place = some (.file bytes)) :
    bytes.length < most := by
  unfold entryAt at hentry
  split at hentry
  case h_1 e hlookup =>
      cases hentry
      obtain ⟨before, later, heq, -⟩ := List.lookup_eq_some_iff.mp hlookup
      refine h (place, .file bytes) ?_
      rw [heq]
      exact List.mem_append_right _ List.mem_cons_self
  case h_2 => split at hentry <;> cases hentry

end FileTree

end Scorecard
