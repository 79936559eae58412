/-!
Maps from names to something, held as a list of entries in increasing order of
their names. Names compare character by character, by code point.
-/

namespace Bulletin

/-- The entries of a map. Every operation below keeps them in order and each
name single; `Entries.IsSorted` says so. -/
abbrev Entries (α : Type) := List (String × α)

namespace Entries

variable {α : Type}

/-- Each name is less than the names after it. -/
def IsSorted (entries : Entries α) : Prop :=
  entries.Pairwise fun a b => a.1 < b.1

/-- Puts an entry in its place, instead of one of the same name. -/
def insert (name : String) (a : α) : Entries α → Entries α
  | [] => [(name, a)]
  | (other, b) :: rest =>
    if name < other then (name, a) :: (other, b) :: rest
    else if name = other then (name, a) :: rest
    else (other, b) :: insert name a rest

/-- What the name is bound to. -/
def get? (name : String) : Entries α → Option α
  | [] => none
  | (other, b) :: rest => if name = other then some b else get? name rest

/-- Adds the new entries one after the other, so that the last one of a name
stays. -/
def insertAll (entries new : Entries α) : Entries α :=
  new.foldl (fun all e => all.insert e.1 e.2) entries

/-- The map with these entries, in any order. -/
def ofList (entries : List (String × α)) : Entries α :=
  insertAll [] entries

/-- A name is found with the entry put in last, and other names as before. -/
theorem get?_insert (name wanted : String) (a : α) (entries : Entries α) :
    (entries.insert name a).get? wanted =
      if wanted = name then some a else entries.get? wanted := by
  fun_induction insert name a entries with
  | case1 => rfl
  | case2 other b rest hBefore => rfl
  | case3 b rest hAfter => by_cases hWanted : wanted = name <;> simp [get?, hWanted]
  | case4 other b rest hAfter hOther ih =>
    by_cases hWanted : wanted = other
    · subst hWanted
      simp [get?, Ne.symm hOther]
    · simp [get?, hWanted, ih]

theorem mem_insert {name : String} {a : α} {entries : Entries α} {e : String × α}
    (hMember : e ∈ entries.insert name a) : e = (name, a) ∨ e ∈ entries := by
  fun_induction insert name a entries <;> simp_all <;> grind

theorem IsSorted.insert {entries : Entries α} (hSorted : entries.IsSorted) (name : String)
    (a : α) : (entries.insert name a).IsSorted := by
  unfold IsSorted at hSorted ⊢
  fun_induction Entries.insert name a entries with
  | case1 => simp
  | case2 other b rest hBefore =>
    refine List.pairwise_cons.mpr ⟨fun e hMember => ?_, hSorted⟩
    rcases List.mem_cons.mp hMember with rfl | hRest
    · exact hBefore
    · exact String.lt_trans hBefore (List.rel_of_pairwise_cons hSorted hRest)
  | case3 b rest hAfter =>
    exact List.pairwise_cons.mpr (List.pairwise_cons.mp hSorted)
  | case4 other b rest hAfter hOther ih =>
    obtain ⟨hHead, hRest⟩ := List.pairwise_cons.mp hSorted
    refine List.pairwise_cons.mpr ⟨fun e hMember => ?_, ih hRest⟩
    rcases mem_insert hMember with rfl | hRest
    · exact Decidable.byContradiction fun hNot =>
        hOther (String.le_antisymm (String.not_lt.mp hNot) (String.not_lt.mp hAfter))
    · exact hHead e hRest

theorem isSorted_insertAll {entries : Entries α} (hSorted : entries.IsSorted)
    (new : Entries α) : (entries.insertAll new).IsSorted := by
  induction new generalizing entries with
  | nil => exact hSorted
  | cons e rest ih => exact ih (hSorted.insert e.1 e.2)

theorem isSorted_ofList (entries : List (String × α)) : (ofList entries).IsSorted :=
  isSorted_insertAll List.Pairwise.nil entries

end Entries

end Bulletin
