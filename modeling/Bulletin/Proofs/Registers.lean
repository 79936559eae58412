import Mathlib.Data.List.Nodup
import Mathlib.Data.List.Perm.Subperm
import Bulletin.Proofs.Dangling
import Bulletin.Proofs.Dependence

/-! What a catalog holds after a history of additions. The names are in the order in which
they were first added, each with the record that was added last for it. Catalogs are equal
just if they answer alike. -/
namespace Bulletin

/-- One more item is new, or it was seen before. -/
theorem FirstSeen.append_singleton {α : Type} [DecidableEq α] {items distinct : List α}
    (hSeen : FirstSeen items distinct) (a : α) :
    FirstSeen (items ++ [a]) (if a ∈ distinct then distinct else distinct ++ [a]) := by
  have hOrder : distinct.Pairwise fun b c => (items ++ [a]).idxOf b < (items ++ [a]).idxOf c := by
    refine hSeen.order.imp_of_mem fun {b c} hb hc hBefore => ?_
    rwa [List.idxOf_append_of_mem ((hSeen.mem b).mp hb),
      List.idxOf_append_of_mem ((hSeen.mem c).mp hc)]
  by_cases hOld : a ∈ distinct
  · rw [if_pos hOld]
    refine ⟨hSeen.nodup, fun b => ?_, hOrder⟩
    rw [hSeen.mem, List.mem_append, List.mem_singleton, or_iff_left_of_imp]
    rintro rfl
    exact (hSeen.mem b).mp hOld
  · rw [if_neg hOld]
    refine ⟨?_, fun b => ?_, List.pairwise_append.mpr ⟨hOrder, List.pairwise_singleton _ a, ?_⟩⟩
    · exact hSeen.nodup.append (List.nodup_singleton a) (by simpa using hOld)
    · rw [List.mem_append, List.mem_append, hSeen.mem]
    · intro b hb c hc
      obtain rfl := List.mem_singleton.mp hc
      have hNew : c ∉ items := fun hc => hOld ((hSeen.mem c).mpr hc)
      rw [List.idxOf_append_of_mem ((hSeen.mem b).mp hb), List.idxOf_append_of_notMem hNew]
      exact Nat.lt_of_lt_of_le (List.idxOf_lt_length_of_mem ((hSeen.mem b).mp hb))
        (Nat.le_add_right ..)

namespace Control

namespace Register

variable {α : Type} [Named α] {added : List α} {r r' : Register α} {a b new : α} {name : String}

/-- The register that some records make, put in one after the other. -/
def ofList (added : List α) : Register α :=
  added.foldl (fun r a => put a r) empty

/-- The record was added, and none of its name after it. -/
def AddedLast (added : List α) (a : α) : Prop :=
  ∃ before after, added = before ++ a :: after ∧ ∀ b ∈ after, Named.name b ≠ Named.name a

theorem addedLast_append_singleton : AddedLast (added ++ [new]) a ↔
    a = new ∨ Named.name a ≠ Named.name new ∧ AddedLast added a := by
  constructor
  · rintro ⟨before, after, hAdded, hNone⟩
    rcases List.eq_nil_or_concat' after with rfl | ⟨after, b, rfl⟩
    · exact Or.inl (List.cons.inj (List.append_inj' hAdded rfl).2).1.symm
    · rw [← List.cons_append, ← List.append_assoc] at hAdded
      obtain ⟨rfl, hLast⟩ := List.append_inj' hAdded rfl
      cases hLast
      exact Or.inr ⟨(hNone new (by simp)).symm, before, after, rfl,
        fun b hb => hNone b (List.mem_append_left _ hb)⟩
  · rintro (rfl | ⟨hOther, before, after, rfl, hNone⟩)
    · exact ⟨added, [], rfl, nofun⟩
    · refine ⟨before, after ++ [new], by simp, List.forall_mem_append.mpr ⟨hNone, ?_⟩⟩
      exact List.forall_mem_singleton.mpr hOther.symm

theorem names_put (new : α) (r : Register α) : (put new r).names =
    if Named.name new ∈ r.names then r.names else r.names ++ [Named.name new] :=
  Named.map_name_placed new r.records

theorem ofList_append_singleton : ofList (added ++ [new]) = put new (ofList added) := by
  rw [ofList, List.foldl_append]
  rfl

theorem firstSeen_ofList (added : List α) :
    FirstSeen (added.map Named.name) (ofList added).names := by
  induction added using List.reverseRecOn with
  | nil => exact ⟨List.nodup_nil, by simp [ofList], List.Pairwise.nil⟩
  | append_singleton added new ih =>
      rw [ofList_append_singleton, names_put, List.map_append]
      exact ih.append_singleton (Named.name new)

theorem find?_ofList_eq_some_iff :
    find? name (ofList added) = some a ↔ AddedLast added a ∧ Named.name a = name := by
  induction added using List.reverseRecOn with
  | nil => simp [ofList, find?, empty, AddedLast]
  | append_singleton added new ih =>
      rw [ofList_append_singleton, find?_put, addedLast_append_singleton]
      by_cases hName : Named.name new = name
      · rw [if_pos hName]
        constructor
        · rintro ⟨⟩
          exact ⟨Or.inl rfl, hName⟩
        · rintro ⟨rfl | ⟨hOther, -⟩, rfl⟩
          · rfl
          · exact absurd hName.symm hOther
      · rw [if_neg hName, ih]
        constructor
        · rintro ⟨hLast, rfl⟩
          exact ⟨Or.inr ⟨Ne.symm hName, hLast⟩, rfl⟩
        · rintro ⟨rfl | ⟨-, hLast⟩, rfl⟩
          · exact absurd rfl hName
          · exact ⟨hLast, rfl⟩

theorem mem_names_congr (hFound : ∀ name, find? name r = find? name r') :
    name ∈ r.names ↔ name ∈ r'.names := by
  rw [← isSome_find?_iff, ← isSome_find?_iff, hFound]

theorem name_of_find?_eq_some (hFound : find? name r = some a) : Named.name a = name := by
  rw [find?] at hFound
  simpa using List.find?_some hFound

/-- The names are distinct, so every record is found. -/
theorem find?_eq_some_iff : find? name r = some a ↔ a ∈ r.records ∧ Named.name a = name := by
  constructor
  · intro hFound
    exact ⟨List.mem_of_find?_eq_some hFound, name_of_find?_eq_some hFound⟩
  · rintro ⟨hMem, rfl⟩
    have hKnown : Named.name a ∈ r.names := List.mem_map_of_mem hMem
    obtain ⟨b, hFound⟩ := Option.isSome_iff_exists.mp (isSome_find?_iff.mpr hKnown)
    have hThere : b ∈ r.records := List.mem_of_find?_eq_some hFound
    have hSame := List.inj_on_of_nodup_map r.distinct hThere hMem (name_of_find?_eq_some hFound)
    rw [hFound, hSame]

theorem mem_records_iff : a ∈ r.records ↔ find? (Named.name a) r = some a := by
  rw [find?_eq_some_iff, and_iff_left rfl]

theorem perm_iff : r.records.Perm r'.records ↔ ∀ name, find? name r = find? name r' := by
  rw [List.perm_ext_iff_of_nodup r.distinct.of_map r'.distinct.of_map]
  constructor
  · intro hMem name
    ext a
    rw [find?_eq_some_iff, find?_eq_some_iff, hMem]
  · intro hFound a
    rw [mem_records_iff, mem_records_iff, hFound]

/-- Registers of the same records answer alike, and the other way round. -/
theorem sameRecords_iff [DecidableEq α] :
    sameRecords r r' = true ↔ ∀ name, find? name r = find? name r' := by
  rw [← perm_iff]
  simp only [sameRecords, Bool.and_eq_true, beq_iff_eq, List.all_eq_true, ← mem_records_iff]
  constructor
  · rintro ⟨hLength, hAll⟩
    -- No record is there twice, so as many as the others have are all of them.
    exact (List.Nodup.subperm r.distinct.of_map hAll).perm_of_length_le hLength.ge
  · intro hPerm
    exact ⟨hPerm.length_eq, fun a => hPerm.mem_iff.mp⟩

/-- What is listed and what is found after some records were added. -/
structure Keeps (added listed : List α) (found? : String → Option α) : Prop where
  names : FirstSeen (added.map Named.name) (listed.map Named.name)
  listed : ∀ a, a ∈ listed ↔ AddedLast added a
  found : ∀ name a, found? name = some a ↔ AddedLast added a ∧ Named.name a = name
  missing : ∀ name, found? name = none ↔ name ∉ added.map Named.name

theorem keeps_ofList (added : List α) :
    Keeps added (ofList added).records (find? · (ofList added)) where
  names := firstSeen_ofList added
  listed a := by rw [mem_records_iff, find?_ofList_eq_some_iff, and_iff_left rfl]
  found name a := find?_ofList_eq_some_iff
  missing name := by
    rw [← (firstSeen_ofList added).mem, ← isSome_find?_iff, Option.not_isSome_iff_eq_none]

end Register

/-- The user that is added, if it is one. -/
def Addition.user? : Addition → Option User
  | user u => some u
  | restaurant _ => none

def Addition.restaurant? : Addition → Option Restaurant
  | user _ => none
  | restaurant r => some r

namespace Catalog

variable {k k' : Catalog}

/-- Users are added to users and restaurants to restaurants. -/
theorem ofAdditions_eq (as : List Addition) : ofAdditions as =
    ⟨.ofList (as.filterMap Addition.user?), .ofList (as.filterMap Addition.restaurant?)⟩ := by
  -- From the end, where the newest addition meets the catalog of all before it.
  induction as using List.reverseRecOn with
  | nil => rfl
  | append_singleton as a ih =>
      rw [ofAdditions, List.foldl_append, ← ofAdditions, ih, List.filterMap_append,
        List.filterMap_append]
      cases a with
      | user u =>
          change mk (.put u _) _ = mk (.ofList (_ ++ [u])) (.ofList (_ ++ []))
          rw [Register.ofList_append_singleton, List.append_nil]
      | restaurant r =>
          change mk _ (.put r _) = mk (.ofList (_ ++ [])) (.ofList (_ ++ [r]))
          rw [Register.ofList_append_singleton, List.append_nil]

theorem equal_iff : (k == k') = true ↔ (∀ name, k.user? name = k'.user? name) ∧
    ∀ name, k.restaurant? name = k'.restaurant? name :=
  (Bool.and_eq_true _ _).to_iff.trans
    (and_congr Register.sameRecords_iff Register.sameRecords_iff)

theorem has_congr (hUsers : ∀ name, k.user? name = k'.user? name)
    (hRestaurants : ∀ name, k.restaurant? name = k'.restaurant? name) (p : Party) :
    k.Has p ↔ k'.Has p := by
  cases p with
  | user name => exact Register.mem_names_congr hUsers
  | restaurant name => exact Register.mem_names_congr hRestaurants

/-- What a catalog holds after any additions. Users and restaurants are listed by their names
in the order in which these were first added, each with the record that was added last, which
is also what is found by the name; a name that was not added is not found. Neither has to do
with the other. Two catalogs are equal just if the same is found in them by every name,
whatever the order of the additions, and then every audit comes out the same. -/
theorem told_by_additions (as as' : List Addition) :
    Register.Keeps (as.filterMap Addition.user?) (ofAdditions as).users.records
      (ofAdditions as).user? ∧
    Register.Keeps (as.filterMap Addition.restaurant?) (ofAdditions as).restaurants.records
      (ofAdditions as).restaurant? ∧
    (ofAdditions as).users = (ofAdditions ((as.filterMap Addition.user?).map .user)).users ∧
    (ofAdditions as).restaurants =
      (ofAdditions ((as.filterMap Addition.restaurant?).map .restaurant)).restaurants ∧
    ((ofAdditions as == ofAdditions as') = true ↔
      (∀ name, (ofAdditions as).user? name = (ofAdditions as').user? name) ∧
      ∀ name, (ofAdditions as).restaurant? name = (ofAdditions as').restaurant? name) ∧
    ((ofAdditions as == ofAdditions as') = true →
      ∀ b : Block, b.audit (ofAdditions as) = b.audit (ofAdditions as')) := by
  refine ⟨?_, ?_, ?_, ?_, equal_iff, fun hSame b => ?_⟩
  · rw [ofAdditions_eq]
    exact Register.keeps_ofList _
  · rw [ofAdditions_eq]
    exact Register.keeps_ofList _
  · rw [ofAdditions_eq, ofAdditions_eq, List.filterMap_map]
    simp [Function.comp_def, Addition.user?]
  · rw [ofAdditions_eq, ofAdditions_eq, List.filterMap_map]
    simp [Function.comp_def, Addition.restaurant?]
  · obtain ⟨hUsers, hRestaurants⟩ := equal_iff.mp hSame
    exact Block.audit_congr b (has_congr hUsers hRestaurants)

/-- A record that is replaced keeps its place. -/
example : (ofAdditions [.user ⟨"ann", none⟩, .restaurant ⟨"ann"⟩, .user ⟨"bob", none⟩,
    .user ⟨"ann", some "5"⟩]).users.records = [⟨"ann", some "5"⟩, ⟨"bob", none⟩] := by decide

end Catalog

end Control

end Bulletin
