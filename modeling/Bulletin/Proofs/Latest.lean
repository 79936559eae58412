import Mathlib.Data.List.Nodup
import Bulletin.Entries

/-! Which entry of a map counts. A map that is filled with rows one after the other keeps
the last row of each name, and what its names are bound to tells the whole map. -/
namespace Bulletin

namespace Entries

variable {α : Type} {entries others new rows : Entries α} {name : String} {a : α}

/-- The names of a map are distinct. -/
theorem IsSorted.nodup_names (hSorted : entries.IsSorted) : (entries.map Prod.fst).Nodup :=
  List.pairwise_map.mpr (hSorted.imp fun hBefore => String.ne_of_lt hBefore)

/-- With distinct names, every entry is found. -/
theorem get?_eq_some_iff (hNames : (entries.map Prod.fst).Nodup) :
    entries.get? name = some a ↔ (name, a) ∈ entries := by
  induction entries with
  | nil => simp [get?]
  | cons e rest ih =>
      obtain ⟨hFresh, hRest⟩ := List.nodup_cons.mp hNames
      by_cases hHere : name = e.1
      · subst hHere
        have hElsewhere : (e.1, a) ∉ rest := fun hMem =>
          hFresh (List.mem_map.mpr ⟨_, hMem, rfl⟩)
        simp [get?, hElsewhere, Prod.ext_iff, eq_comm]
      · simp [get?, hHere, Prod.ext_iff, ih hRest]

/-- Two maps in which every name is found alike are the same. -/
theorem eq_of_get?_eq (hSorted : entries.IsSorted) (hOthers : others.IsSorted)
    (hFound : ∀ name, entries.get? name = others.get? name) : entries = others := by
  have hMem (e : String × α) : e ∈ entries ↔ e ∈ others := by
    rw [← get?_eq_some_iff hSorted.nodup_names, ← get?_eq_some_iff hOthers.nodup_names, hFound]
  have hPerm : entries.Perm others :=
    (List.perm_ext_iff_of_nodup hSorted.nodup_names.of_map hOthers.nodup_names.of_map).mpr hMem
  refine hPerm.eq_of_pairwise ?_ hSorted hOthers
  intro e f _ _ hBefore hAfter
  exact absurd (String.lt_trans hBefore hAfter) (String.lt_irrefl e.1)

/-- If the new names are distinct, their entries are found, and otherwise what was
there before. -/
theorem get?_insertAll_eq_some_iff (hNames : (new.map Prod.fst).Nodup) :
    (entries.insertAll new).get? name = some a ↔
      (name, a) ∈ new ∨ name ∉ new.map Prod.fst ∧ entries.get? name = some a := by
  unfold insertAll
  induction new generalizing entries with
  | nil => simp
  | cons e rest ih =>
      obtain ⟨hFresh, hRest⟩ := List.nodup_cons.mp hNames
      rw [List.foldl_cons, ih hRest, get?_insert]
      by_cases hHere : name = e.1
      · subst hHere
        have hElsewhere : (e.1, a) ∉ rest := fun hMem =>
          hFresh (List.mem_map.mpr ⟨_, hMem, rfl⟩)
        simp [hFresh, hElsewhere, Prod.ext_iff, eq_comm]
      · simp [hHere, Prod.ext_iff]

theorem get?_ofList_eq_some_iff (hNames : (new.map Prod.fst).Nodup) :
    (ofList new).get? name = some a ↔ (name, a) ∈ new := by
  rw [ofList, get?_insertAll_eq_some_iff hNames]
  simp [get?]

/-- What is filled with the entries of a map in their order is that map. -/
theorem ofList_of_isSorted (hSorted : entries.IsSorted) : ofList entries = entries := by
  refine eq_of_get?_eq (isSorted_ofList entries) hSorted fun name => Option.ext fun a => ?_
  rw [get?_ofList_eq_some_iff hSorted.nodup_names, get?_eq_some_iff hSorted.nodup_names]

/-- Rows of distinct names fill a map alike in any order. -/
theorem ofList_perm (hNames : (rows.map Prod.fst).Nodup) (hPerm : rows.Perm new) :
    ofList rows = ofList new := by
  have hNew : (new.map Prod.fst).Nodup := (hPerm.map Prod.fst).nodup_iff.mp hNames
  refine eq_of_get?_eq (isSorted_ofList rows) (isSorted_ofList new) fun name =>
    Option.ext fun a => ?_
  rw [get?_ofList_eq_some_iff hNames, get?_ofList_eq_some_iff hNew, hPerm.mem_iff]

/-- A name is found with the last new row that has it, and otherwise as before. -/
theorem get?_insertAll (entries new : Entries α) (name : String) :
    (entries.insertAll new).get? name = (new.reverse.lookup name).or (entries.get? name) := by
  unfold insertAll
  induction new generalizing entries with
  | nil => rfl
  | cons e rest ih =>
      obtain ⟨other, b⟩ := e
      rw [List.foldl_cons, ih, get?_insert, List.reverse_cons, List.lookup_append, Option.or_assoc]
      congr 1
      by_cases hHere : name = other
      · simp [hHere]
      · simp [List.lookup_cons, hHere, beq_false_of_ne hHere]

/-- The entries have for each name of the rows what its last row says, and nothing else. -/
structure KeepsLast (rows entries : Entries α) : Prop where
  sorted : entries.IsSorted
  last : ∀ name, entries.get? name = rows.reverse.lookup name

/-- Filling a map with rows keeps the last row of each name. -/
theorem keepsLast_iff : KeepsLast rows entries ↔ entries = ofList rows := by
  have hLast (name : String) : (ofList rows).get? name = rows.reverse.lookup name := by
    rw [ofList, get?_insertAll, get?, Option.or_none]
  constructor
  · intro hKeeps
    exact eq_of_get?_eq hKeeps.sorted (isSorted_ofList rows) fun name =>
      (hKeeps.last name).trans (hLast name).symm
  · rintro rfl
    exact ⟨isSorted_ofList rows, hLast⟩

end Entries

end Bulletin
