import Mathlib.Data.List.Nodup
import Scorecard.Entries

set_option autoImplicit false

/-! # Ordered tables

What `alterEntry` does to a table: it changes what the key finds and nothing else
(`lookup_alterEntry`), and keys that are distinct stay so.
-/

namespace Scorecard

variable {κ ν : Type} [DecidableEq κ]

theorem lookup_alterEntry (key k : κ) (change : Option ν → ν) (entries : List (κ × ν)) :
    (alterEntry key change entries).lookup k =
      if k = key then some (change (entries.lookup key)) else entries.lookup k := by
  induction entries with
  | nil =>
      by_cases h : k = key
      · simp [alterEntry, h]
      · have hne : (k == key) = false := by simpa using h
        simp [alterEntry, List.lookup_cons, hne, h]
  | cons entry rest ih =>
      obtain ⟨k', v⟩ := entry
      by_cases hk' : k' = key
      · -- the entry of the key is here, and the rest stays as it is
        subst hk'
        by_cases hk : k = k'
        · simp [alterEntry, hk]
        · have hne : (k == k') = false := by simpa using hk
          simp [alterEntry, List.lookup_cons, hne, hk]
      · have hne : (key == k') = false := by simpa using fun h : key = k' => hk' h.symm
        by_cases hk : k = k'
        · subst hk
          simp [alterEntry, hk']
        · have hne' : (k == k') = false := by simpa using hk
          simp only [alterEntry, hk', if_false, List.lookup_cons, hne, hne']
          exact ih

/-- A key that has no entry gets one at the end. -/
theorem alterEntry_of_lookup_none {key : κ} (change : Option ν → ν) {entries : List (κ × ν)}
    (h : entries.lookup key = none) :
    alterEntry key change entries = entries ++ [(key, change none)] := by
  induction entries with
  | nil => rfl
  | cons entry rest ih =>
      obtain ⟨k, v⟩ := entry
      by_cases hk : key = k
      · subst hk
        simp at h
      · have hne : (key == k) = false := by simpa using hk
        have hrest : rest.lookup key = none := by simpa [List.lookup_cons, hne] using h
        have hk' : ¬k = key := fun e => hk e.symm
        simp [alterEntry, hk', ih hrest]

/-- Only the entry of the key is new. -/
theorem mem_alterEntry {key : κ} {change : Option ν → ν} {entries : List (κ × ν)} {p : κ × ν}
    (h : p ∈ alterEntry key change entries) :
    p ∈ entries ∨ p = (key, change (entries.lookup key)) := by
  induction entries with
  | nil => exact Or.inr (by simpa [alterEntry] using h)
  | cons entry rest ih =>
      obtain ⟨k, v⟩ := entry
      by_cases hk : k = key
      · subst hk
        rw [alterEntry, if_pos rfl, List.mem_cons] at h
        rcases h with rfl | h
        · exact Or.inr (by simp)
        · exact Or.inl (List.mem_cons_of_mem _ h)
      · -- the entry of the key comes later, so it is looked up in the rest
        have hne : (key == k) = false := by simpa using fun e : key = k => hk e.symm
        rw [alterEntry, if_neg hk, List.mem_cons] at h
        rcases h with rfl | h
        · exact Or.inl List.mem_cons_self
        · rcases ih h with h | h
          · exact Or.inl (List.mem_cons_of_mem _ h)
          · exact Or.inr (by simpa [List.lookup_cons, hne] using h)

/-- A key that is present keeps its place, and a new one goes to the end. -/
theorem keys_alterEntry (key : κ) (change : Option ν → ν) (entries : List (κ × ν)) :
    (alterEntry key change entries).map (·.1) =
      if key ∈ entries.map (·.1) then entries.map (·.1) else entries.map (·.1) ++ [key] := by
  induction entries with
  | nil => rfl
  | cons entry rest ih =>
      obtain ⟨k, v⟩ := entry
      by_cases hk : k = key
      · rw [alterEntry, if_pos hk, List.map_cons, List.map_cons, hk, if_pos List.mem_cons_self]
      · have hkey : key ∈ k :: rest.map (·.1) ↔ key ∈ rest.map (·.1) := by
          rw [List.mem_cons, or_iff_right fun e => hk e.symm]
        rw [alterEntry, if_neg hk, List.map_cons, List.map_cons, ih]
        by_cases hmem : key ∈ rest.map (·.1)
        · rw [if_pos hmem, if_pos (hkey.mpr hmem)]
        · rw [if_neg hmem, if_neg fun h => hmem (hkey.mp h), List.cons_append]

theorem nodup_keys_alterEntry {key : κ} {change : Option ν → ν} {entries : List (κ × ν)}
    (h : (entries.map (·.1)).Nodup) : ((alterEntry key change entries).map (·.1)).Nodup := by
  rw [keys_alterEntry]
  by_cases hmem : key ∈ entries.map (·.1)
  · rw [if_pos hmem]
    exact h
  · rw [if_neg hmem, ← List.concat_eq_append]
    exact h.concat hmem

/-- With distinct keys, an entry is what its key finds. -/
theorem lookup_eq_some_of_mem {entries : List (κ × ν)} (h : (entries.map (·.1)).Nodup) {p : κ × ν}
    (hp : p ∈ entries) : entries.lookup p.1 = some p.2 := by
  induction entries with
  | nil => simp at hp
  | cons entry rest ih =>
      obtain ⟨k, v⟩ := entry
      rw [List.map_cons, List.nodup_cons] at h
      rcases List.mem_cons.mp hp with rfl | hp
      · simp
      · have hne : (p.1 == k) = false := by
          have : p.1 ≠ k := fun e => h.1 (List.mem_map.mpr ⟨p, hp, e⟩)
          simpa using this
        simp only [List.lookup_cons, hne]
        exact ih h.2 hp

theorem mem_of_lookup_eq_some {κ ν : Type} [BEq κ] [LawfulBEq κ] {entries : List (κ × ν)} {k : κ}
    {v : ν} (h : entries.lookup k = some v) : (k, v) ∈ entries := by
  obtain ⟨before, after, rfl, -⟩ := List.lookup_eq_some_iff.mp h
  exact List.mem_append_right _ List.mem_cons_self

/-- With distinct keys, the order of the entries makes no difference to what a key finds. -/
theorem lookup_perm {entries entries' : List (κ × ν)} (h : (entries.map (·.1)).Nodup)
    (hperm : entries.Perm entries') (k : κ) : entries.lookup k = entries'.lookup k := by
  have h' : (entries'.map (·.1)).Nodup := (hperm.map _).nodup_iff.mp h
  have hmem : ∀ {l : List (κ × ν)}, (l.map (·.1)).Nodup → ∀ v, l.lookup k = some v ↔ (k, v) ∈ l :=
    fun hl v => ⟨mem_of_lookup_eq_some, fun hp => lookup_eq_some_of_mem hl hp⟩
  refine Option.ext fun v => ?_
  rw [hmem h, hmem h', hperm.mem_iff]

theorem lookup_mapValues {μ : Type} (g : ν → μ) (k : κ) (entries : List (κ × ν)) :
    (entries.map fun p => (p.1, g p.2)).lookup k = (entries.lookup k).map g := by
  induction entries with
  | nil => rfl
  | cons entry rest ih =>
      obtain ⟨k', v⟩ := entry
      by_cases hk : k = k'
      · simp [hk]
      · have hne : (k == k') = false := by simpa using hk
        simp only [List.map_cons, List.lookup_cons, hne]
        exact ih

/-- Changing all values and changing one entry can be done in either order. -/
theorem alterEntry_mapValues {μ : Type} (g : ν → μ) (key : κ) {change : Option ν → ν}
    {change' : Option μ → μ} (h : ∀ old, change' (old.map g) = g (change old))
    (entries : List (κ × ν)) :
    alterEntry key change' (entries.map fun p => (p.1, g p.2)) =
      (alterEntry key change entries).map fun p => (p.1, g p.2) := by
  induction entries with
  | nil => simp [alterEntry, ← h]
  | cons entry rest ih =>
      obtain ⟨k, v⟩ := entry
      by_cases hk : k = key
      · simp [alterEntry, hk, ← h]
      · simp [alterEntry, hk, ih]

end Scorecard
