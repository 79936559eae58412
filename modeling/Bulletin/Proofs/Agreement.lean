import Bulletin.Proofs.Equality
import Bulletin.Proofs.Levels

/-! When data that are handed over come to equal values. One level of the data is compared at
a time, and a type of data is looked at as a whole: whether its members are told apart by what
becomes of them. -/
namespace Bulletin

theorem exists_forall₂_iff {α α' β β' : Type} {R : α → β → Prop} {R' : α' → β' → Prop}
    {E : β → β' → Prop} {l : List α} {l' : List α'} :
    (∃ u u', List.Forall₂ R l u ∧ List.Forall₂ R' l' u' ∧ List.Forall₂ E u u') ↔
      List.Forall₂ (fun a a' => ∃ b b', R a b ∧ R' a' b' ∧ E b b') l l' := by
  constructor
  · rintro ⟨u, u', hLeft, hRight, hEach⟩
    induction hEach generalizing l l' with
    | nil =>
        cases hLeft
        cases hRight
        exact .nil
    | cons hHere _ ih =>
        cases hLeft with
        | cons hHead hLeft =>
            cases hRight with
            | cons hOther hRight => exact .cons ⟨_, _, hHead, hOther, hHere⟩ (ih hLeft hRight)
  · intro hEach
    induction hEach with
    | nil => exact ⟨[], [], .nil, .nil, .nil⟩
    | cons hHead _ ih =>
        obtain ⟨b, b', hLeft, hRight, hHere⟩ := hHead
        obtain ⟨u, u', hLefts, hRights, hEach⟩ := ih
        exact ⟨b :: u, b' :: u', .cons hLeft hLefts, .cons hRight hRights, .cons hHere hEach⟩

namespace Value

variable {v w : Value} {items others : List Value} {entries entries' rows rows' : Entries Value}
  {name : String}

theorem equalItems_iff : equalItems items others = true ↔
    List.Forall₂ (fun v w => v.equal w = true) items others := by
  induction items generalizing others with
  | nil => cases others <;> simp [equalItems]
  | cons v items ih => cases others <;> simp [equalItems, ih]

theorem equalEntries_insert (hEntries : equalEntries entries entries' = true)
    (hValue : v.equal w = true) :
    equalEntries (entries.insert name v) (entries'.insert name w) = true := by
  induction entries generalizing entries' with
  | nil =>
      cases entries' with
      | nil => simp [Entries.insert, equalEntries, hValue]
      | cons => cases hEntries
  | cons e entries ih =>
      cases entries' with
      | nil => cases hEntries
      | cons f entries' =>
          simp only [equalEntries, Bool.and_eq_true, beq_iff_eq] at hEntries
          obtain ⟨⟨hName, hHead⟩, hRest⟩ := hEntries
          rw [Entries.insert, Entries.insert, ← hName]
          split
          · simp [equalEntries, hValue, hName, hHead, hRest]
          · split
            · simp [equalEntries, hValue, hRest]
            · simp [equalEntries, hName, hHead, ih hRest]

/-- Maps that are filled with rows of the same names are equal just if the rows are. -/
theorem equalEntries_ofList_iff (hNames : rows.map Prod.fst = rows'.map Prod.fst)
    (hDistinct : (rows.map Prod.fst).Nodup) :
    equalEntries (Entries.ofList rows) (Entries.ofList rows') = true ↔
      List.Forall₂ (fun row row' => row.2.equal row'.2 = true) rows rows' := by
  have hSame : List.Forall₂ (fun row row' => row.1 = row'.1) rows rows' := by
    rwa [← List.forall₂_eq_eq_eq, List.forall₂_map_left_iff, List.forall₂_map_right_iff] at hNames
  constructor
  · intro hEqual
    refine List.forall₂_iff_zip.mpr ⟨hSame.length_eq, fun {row row'} hPair => ?_⟩
    have hName : row.1 = row'.1 := List.forall₂_zip hSame hPair
    obtain ⟨hRow, hRow'⟩ := List.of_mem_zip hPair
    have hThere : (row.1, row'.2) ∈ rows' := hName ▸ hRow'
    have hFound := get?_of_equalEntries hEqual row.1
    rw [(Entries.get?_ofList_eq_some_iff hDistinct).mpr hRow,
      (Entries.get?_ofList_eq_some_iff (hNames ▸ hDistinct)).mpr hThere] at hFound
    cases hFound with
    | some hValue => exact hValue
  · intro hEach
    have hRows : List.Forall₂ (fun row row' => row.1 = row'.1 ∧ row.2.equal row'.2 = true)
        rows rows' := hSame.mp (fun _ _ => And.intro) hEach
    unfold Entries.ofList Entries.insertAll
    refine List.rel_foldl (P := fun e e' => equalEntries e e' = true) ?_ rfl hRows
    rintro e e' hEntries row row' ⟨hName, hValue⟩
    simp only [hName]
    exact equalEntries_insert hEntries hValue

end Value

namespace Serial

variable {a b name other : String} {m n : Nat} {s s' : Serial} {items items' : List Serial}
  {fields fields' : List (String × Serial)}

/-- Both become values, and the values are equal. -/
def Agree (s s' : Serial) : Prop :=
  ∃ v v', s.toValue = .ok v ∧ s'.toValue = .ok v' ∧ v.equal v' = true

theorem agree_iff {v v' : Value} (hValue : s.toValue = .ok v) (hValue' : s'.toValue = .ok v') :
    s.Agree s' ↔ v.equal v' = true := by
  constructor
  · rintro ⟨w, w', hw, hw', hEqual⟩
    cases hValue.symm.trans hw
    cases hValue'.symm.trans hw'
    exact hEqual
  · exact fun hEqual => ⟨v, v', hValue, hValue', hEqual⟩

theorem Agree.symm (hAgree : s.Agree s') : s'.Agree s := by
  obtain ⟨v, v', hValue, hValue', hEqual⟩ := hAgree
  exact ⟨v', v, hValue', hValue, (Value.equal_comm v' v).trans hEqual⟩

theorem toValue_of_agree_nothing (hAgree : nothing.Agree s) : s.toValue = .ok .nothing := by
  obtain ⟨v, v', hValue, hValue', hEqual⟩ := hAgree
  cases hValue
  cases v' with
  | nothing => exact hValue'
  | _ => cases hEqual

theorem agree_wrapped_iff : (wrapped s).Agree (wrapped s') ↔ s.Agree s' := by
  rw [Agree, toValue, toValue, Agree]

theorem agree_text_iff : (text a).Agree (text b) ↔ a = b := by
  rw [agree_iff rfl rfl]
  exact beq_iff_eq

theorem agree_natural_iff : (natural m).Agree (natural n) ↔ m = n ∧ m < 1 <<< 63 := by
  constructor
  · rintro ⟨v, v', hValue, hValue', hEqual⟩
    obtain ⟨hm, rfl⟩ := toValue_natural_eq_ok_iff.mp hValue
    obtain ⟨hn, rfl⟩ := toValue_natural_eq_ok_iff.mp hValue'
    have hInts := congrArg Int64.toInt (beq_iff_eq.mp hEqual)
    rw [Int64.toInt_ofNat_of_lt hm, Int64.toInt_ofNat_of_lt hn] at hInts
    exact ⟨Int.ofNat_inj.mp hInts, hm⟩
  · rintro ⟨rfl, hFits⟩
    have hValue := toValue_natural_eq_ok_iff.mpr ⟨hFits, rfl⟩
    exact ⟨_, _, hValue, hValue, beq_iff_eq.mpr rfl⟩

theorem agree_sequence_iff : (sequence items).Agree (sequence items') ↔
    List.Forall₂ Agree items items' := by
  refine Iff.trans ?_ exists_forall₂_iff
  constructor
  · rintro ⟨v, v', hValue, hValue', hEqual⟩
    obtain ⟨values, hItems, rfl⟩ := toValue_sequence_eq_ok_iff.mp hValue
    obtain ⟨values', hItems', rfl⟩ := toValue_sequence_eq_ok_iff.mp hValue'
    exact ⟨values, values', hItems, hItems', Value.equalItems_iff.mp hEqual⟩
  · rintro ⟨values, values', hItems, hItems', hEqual⟩
    exact ⟨_, _, toValue_sequence_eq_ok_iff.mpr ⟨values, hItems, rfl⟩,
      toValue_sequence_eq_ok_iff.mpr ⟨values', hItems', rfl⟩, Value.equalItems_iff.mpr hEqual⟩

theorem agree_texts_iff {as bs : List String} :
    (sequence (as.map text)).Agree (sequence (bs.map text)) ↔ as = bs := by
  rw [agree_sequence_iff, List.forall₂_map_left_iff, List.forall₂_map_right_iff]
  simp only [agree_text_iff, List.forall₂_eq_eq_eq]

theorem agree_caseOf_iff : (caseOf name s).Agree (caseOf other s') ↔ name = other ∧ s.Agree s' := by
  constructor
  · rintro ⟨v, v', hValue, hValue', hEqual⟩
    obtain ⟨w, hInner, rfl⟩ := toValue_caseOf_eq_ok_iff.mp hValue
    obtain ⟨w', hInner', rfl⟩ := toValue_caseOf_eq_ok_iff.mp hValue'
    simp only [Value.equal, Value.equalEntries, Bool.and_true, Bool.and_eq_true, beq_iff_eq]
      at hEqual
    exact ⟨hEqual.1, w, w', hInner, hInner', hEqual.2⟩
  · rintro ⟨rfl, w, w', hInner, hInner', hEqual⟩
    refine ⟨_, _, toValue_caseOf_eq_ok_iff.mpr ⟨w, hInner, rfl⟩,
      toValue_caseOf_eq_ok_iff.mpr ⟨w', hInner', rfl⟩, ?_⟩
    simp [Value.equal, Value.equalEntries, hEqual]

/-- The row has the name of the field and what became of its data. -/
def Fills (field : String × Serial) (row : String × Value) : Prop :=
  field.1 = row.1 ∧ field.2.toValue = .ok row.2

theorem toValue_record_eq_ok_iff_fills {v : Value} : (record fields).toValue = .ok v ↔
    ∃ rows, List.Forall₂ Fills fields rows ∧ v = .map (Entries.ofList rows) := by
  rw [toValue_record_eq_ok_iff]
  constructor
  · rintro ⟨rows, entries, hNames, hValues, hLast, rfl⟩
    rw [Entries.keepsLast_iff] at hLast
    exact ⟨rows, hNames.mp (fun _ _ => And.intro) hValues, congrArg Value.map hLast⟩
  · rintro ⟨rows, hFills, rfl⟩
    exact ⟨rows, _, hFills.imp fun _ _ => And.left, hFills.imp fun _ _ => And.right,
      Entries.keepsLast_iff.mpr rfl, rfl⟩

theorem names_of_fills {rows : Entries Value} (hFills : List.Forall₂ Fills fields rows) :
    fields.map Prod.fst = rows.map Prod.fst := by
  rw [← List.forall₂_eq_eq_eq, List.forall₂_map_left_iff, List.forall₂_map_right_iff]
  exact hFills.imp fun _ _ => And.left

theorem agree_iff_fills {field field' : String × Serial} : field.2.Agree field'.2 ↔
    ∃ row row', Fills field row ∧ Fills field' row' ∧ row.2.equal row'.2 = true := by
  constructor
  · rintro ⟨v, v', hValue, hValue', hEqual⟩
    exact ⟨(field.1, v), (field'.1, v'), ⟨rfl, hValue⟩, ⟨rfl, hValue'⟩, hEqual⟩
  · rintro ⟨row, row', hFills, hFills', hEqual⟩
    exact ⟨row.2, row'.2, hFills.2, hFills'.2, hEqual⟩

/-- Records with the same names, each once, agree field by field. -/
theorem agree_record_iff (hNames : fields.map Prod.fst = fields'.map Prod.fst)
    (hDistinct : (fields.map Prod.fst).Nodup) :
    (record fields).Agree (record fields') ↔
      List.Forall₂ (fun field field' => field.2.Agree field'.2) fields fields' := by
  have hRows {rows rows' : Entries Value} (hFills : List.Forall₂ Fills fields rows)
      (hFills' : List.Forall₂ Fills fields' rows') := by
    have hSame := (names_of_fills hFills).symm.trans (hNames.trans (names_of_fills hFills'))
    exact Value.equalEntries_ofList_iff hSame (names_of_fills hFills ▸ hDistinct)
  simp only [agree_iff_fills, ← exists_forall₂_iff]
  constructor
  · rintro ⟨v, v', hValue, hValue', hEqual⟩
    obtain ⟨rows, hFills, rfl⟩ := toValue_record_eq_ok_iff_fills.mp hValue
    obtain ⟨rows', hFills', rfl⟩ := toValue_record_eq_ok_iff_fills.mp hValue'
    exact ⟨rows, rows', hFills, hFills', (hRows hFills hFills').mp hEqual⟩
  · rintro ⟨rows, rows', hFills, hFills', hEqual⟩
    exact ⟨_, _, toValue_record_eq_ok_iff_fills.mpr ⟨rows, hFills, rfl⟩,
      toValue_record_eq_ok_iff_fills.mpr ⟨rows', hFills', rfl⟩, (hRows hFills hFills').mpr hEqual⟩

theorem toValue_natural_ne_nothing (n : Nat) : (natural n).toValue ≠ .ok .nothing :=
  fun hValue => nomatch (toValue_natural_eq_ok_iff.mp hValue).2

theorem toValue_record_ne_nothing : (record fields).toValue ≠ .ok .nothing := by
  intro hValue
  obtain ⟨_, -, hSame⟩ := toValue_record_eq_ok_iff_fills.mp hValue
  cases hSame

/-- Two members of a type that are handed over agree just if they are one and the same, and
`P` holds of it. -/
def Tells {α : Type} (f : α → Serial) (P : α → Prop) : Prop :=
  ∀ a b, (f a).Agree (f b) ↔ a = b ∧ P a

section Tells

variable {α : Type} {f : α → Serial} {P : α → Prop}

theorem tells_natural : Tells natural (· < 1 <<< 63) :=
  fun _ _ => agree_natural_iff

theorem Tells.sequence (hTells : Tells f P) :
    Tells (fun as : List α => .sequence (as.map f)) fun as => ∀ a ∈ as, P a := by
  intro as bs
  rw [agree_sequence_iff, List.forall₂_map_left_iff, List.forall₂_map_right_iff]
  simp only [hTells _ _, and_comm (a := _ = _)]
  rw [List.forall₂_and_left, List.forall₂_eq_eq_eq]

theorem Tells.ofOption (hTells : Tells f P) (hShown : ∀ a, (f a).toValue ≠ .ok .nothing) :
    Tells (fun o : Option α => .ofOption (o.map f)) fun o => ∀ a ∈ o, P a := by
  intro o o'
  cases o with
  | none =>
      cases o' with
      | none => exact ⟨fun _ => ⟨rfl, nofun⟩, fun _ => ⟨_, _, rfl, rfl, rfl⟩⟩
      | some b => exact ⟨fun hAgree => absurd (toValue_of_agree_nothing hAgree) (hShown b), nofun⟩
  | some a =>
      cases o' with
      | none =>
          exact ⟨fun hAgree => absurd (toValue_of_agree_nothing hAgree.symm) (hShown a), nofun⟩
      | some b => simpa [Serial.ofOption, agree_wrapped_iff] using hTells a b

end Tells
end Serial

end Bulletin
