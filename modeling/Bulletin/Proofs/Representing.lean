import Mathlib.Logic.Relation
import Bulletin.Proofs.Levels

/-! Which data become values, and what becomes of them. What keeps data from being a value
is looked for at any depth, and the value is told by the values of the parts. -/
namespace Bulletin

section Forall₂

variable {α β : Type} {R S : α → β → Prop} {l : List α} {u : List β}

theorem forall₂_imp_of_mem (hImp : ∀ a ∈ l, ∀ b, R a b → S a b) (hRelated : List.Forall₂ R l u) :
    List.Forall₂ S l u :=
  ((List.forall₂_and_left l u).mpr ⟨fun _ => id, hRelated⟩).imp fun a b hPair =>
    hImp a hPair.1 b hPair.2

theorem exists_of_mem_forall₂ (hRelated : List.Forall₂ R l u) {a : α} (hMem : a ∈ l) :
    ∃ b, R a b := by
  induction hRelated with
  | nil => simp at hMem
  | cons hHead _ ih =>
      rcases List.mem_cons.mp hMem with rfl | hMem
      · exact ⟨_, hHead⟩
      · exact ih hMem

theorem exists_forall₂ (hEach : ∀ a ∈ l, ∃ b, R a b) : ∃ u, List.Forall₂ R l u := by
  induction l with
  | nil => exact ⟨[], .nil⟩
  | cons a l ih =>
      obtain ⟨⟨b, hHead⟩, hRest⟩ := List.forall_mem_cons.mp hEach
      obtain ⟨u, hRest⟩ := ih hRest
      exact ⟨b :: u, .cons hHead hRest⟩

end Forall₂

namespace Serial

/-- Something about the data themselves, apart from their parts, that no value can hold. -/
inductive IsFlawed : Serial → Prop where
  | wide (signed : Bool) : IsFlawed (.wide signed)
  | natural {n : Nat} (hRange : 1 <<< 63 ≤ n) : IsFlawed (.natural n)
  | key {k : Serial} {step : MapStep} {steps : List MapStep} (hMem : step ∈ steps)
      (hKey : step.key? = some k) (hNameless : ∀ name, ¬ k.Names name) : IsFlawed (.map steps)
  | value {before after : List MapStep} {v : Serial} (hKeyless : ¬ Waits before) :
      IsFlawed (.map (before ++ .value v :: after))

/-- There is no flaw anywhere in the data, at any depth. -/
def IsRepresentable (s : Serial) : Prop :=
  ∀ x, Relation.ReflTransGen Part x s → ¬ x.IsFlawed

/-- What becomes of data. Wrappers leave no trace, sequences keep their items in order, and
cases with data are maps with a single entry. Of the entries that are completed for a map
or a record, the last one of each name counts. -/
inductive Becomes : Serial → Value → Prop where
  | nothing : Becomes .nothing .nothing
  | bool (b : Bool) : Becomes (.bool b) (.bool b)
  | integer (n : Int64) : Becomes (.integer n) (.integer n)
  | natural {n : Nat} (hRange : n < 1 <<< 63) : Becomes (.natural n) (.integer (Int64.ofNat n))
  | single (bits : UInt32) : Becomes (.single bits) (.float (.ofBinary32 bits))
  | double (x : Binary64) : Becomes (.double x) (.float x)
  | char (c : Char) : Becomes (.char c) (.text c.toString)
  | text (s : String) : Becomes (.text s) (.text s)
  | bytes (data : List UInt8) :
      Becomes (.bytes data) (.list (data.map fun b => .integer (Int64.ofNat b.toNat)))
  | wrapped {inner : Serial} {v : Value} (hInner : Becomes inner v) : Becomes (.wrapped inner) v
  | sequence {items : List Serial} {values : List Value}
      (hItems : List.Forall₂ Becomes items values) : Becomes (.sequence items) (.list values)
  | map {steps : List MapStep} {rows entries : List (String × Value)}
      (hNames : List.Forall₂ (fun c row => Names c.1 row.1) (completed steps) rows)
      (hValues : List.Forall₂ (fun c row => Becomes c.2 row.2) (completed steps) rows)
      (hLast : Entries.KeepsLast rows entries) : Becomes (.map steps) (.map entries)
  | record {fields : List (String × Serial)} {rows entries : List (String × Value)}
      (hNames : List.Forall₂ (fun field row => field.1 = row.1) fields rows)
      (hValues : List.Forall₂ (fun field row => Becomes field.2 row.2) fields rows)
      (hLast : Entries.KeepsLast rows entries) : Becomes (.record fields) (.map entries)
  | caseName (name : String) : Becomes (.caseName name) (.text name)
  | caseOf {name : String} {inner : Serial} {v : Value} (hInner : Becomes inner v) :
      Becomes (.caseOf name inner) (.map [(name, v)])
  | caseSequence {name : String} {items : List Serial} {v : Value}
      (hItems : Becomes (.sequence items) v) :
      Becomes (.caseSequence name items) (.map [(name, v)])
  | caseRecord {name : String} {fields : List (String × Serial)} {v : Value}
      (hFields : Becomes (.record fields) v) :
      Becomes (.caseRecord name fields) (.map [(name, v)])

variable {s x : Serial} {v : Value} {steps : List MapStep}

theorem isRepresentable_iff :
    s.IsRepresentable ↔ ¬ s.IsFlawed ∧ ∀ x, Part x s → x.IsRepresentable := by
  constructor
  · intro hSound
    exact ⟨hSound s .refl, fun x hPart y hWithin => hSound y (hWithin.tail hPart)⟩
  · rintro ⟨hHere, hParts⟩ x hWithin
    rcases hWithin.cases_tail with rfl | ⟨y, hWithin, hPart⟩
    · exact hHere
    · exact hParts y hPart x hWithin

/-! What holds of data at any depth. -/

theorem Named.of_isRepresentable (hSound : (map steps).IsRepresentable) : Named steps := by
  intro step hMem k hKey
  by_contra hNameless
  exact hSound _ .refl (.key hMem hKey (not_exists.mp hNameless))

theorem Paired.of_isRepresentable (hSound : (map steps).IsRepresentable) : Paired steps := by
  rintro before v after rfl
  by_contra hKeyless
  exact hSound _ .refl (.value hKeyless)

theorem becomes_of_toValue (hValue : s.toValue = .ok v) : s.Becomes v := by
  induction s using part_induction generalizing v with
  | hPass s ih =>
      cases s with
      | natural n =>
          obtain ⟨hRange, rfl⟩ := toValue_natural_eq_ok_iff.mp hValue
          exact .natural hRange
      | wrapped inner => exact .wrapped (ih inner .wrapped hValue)
      | sequence items =>
          obtain ⟨values, hItems, rfl⟩ := toValue_sequence_eq_ok_iff.mp hValue
          exact .sequence (forall₂_imp_of_mem (fun x hMem _ => ih x (.item hMem)) hItems)
      | map steps =>
          obtain ⟨-, -, rows, entries, hNames, hValues, hLast, rfl⟩ :=
            toValue_map_eq_ok_iff.mp hValue
          refine .map hNames (forall₂_imp_of_mem ?_ hValues) hLast
          intro c hMem row
          obtain ⟨-, step, hStep, hPart⟩ := steps_of_mem_completed hMem
          exact ih c.2 (.value hStep hPart)
      | record fields =>
          obtain ⟨rows, entries, hNames, hValues, hLast, rfl⟩ := toValue_record_eq_ok_iff.mp hValue
          refine .record hNames (forall₂_imp_of_mem ?_ hValues) hLast
          exact fun field hMem row => ih field.2 (.field hMem)
      | caseOf name inner =>
          obtain ⟨w, hInner, rfl⟩ := toValue_caseOf_eq_ok_iff.mp hValue
          exact .caseOf (ih inner .caseOf hInner)
      | caseSequence name items =>
          obtain ⟨w, hItems, rfl⟩ := toValue_caseSequence_eq_ok_iff.mp hValue
          exact .caseSequence (ih _ .caseSequence hItems)
      | caseRecord name fields =>
          obtain ⟨w, hFields, rfl⟩ := toValue_caseRecord_eq_ok_iff.mp hValue
          exact .caseRecord (ih _ .caseRecord hFields)
      | wide => cases hValue
      | _ =>
          cases hValue
          constructor

theorem isRepresentable_of_toValue (hValue : s.toValue = .ok v) : s.IsRepresentable := by
  induction s using part_induction generalizing v with
  | hPass s ih =>
      refine isRepresentable_iff.mpr ⟨fun hFlawed => ?_, fun x hPart => ?_⟩
      · cases hFlawed with
        | wide => cases hValue
        | natural hRange =>
            obtain ⟨hFits, -⟩ := toValue_natural_eq_ok_iff.mp hValue
            omega
        | key hMem hKey hNameless =>
            obtain ⟨-, hNamed, -⟩ := toValue_map_eq_ok_iff.mp hValue
            obtain ⟨name, hName⟩ := hNamed _ hMem _ hKey
            exact hNameless name hName
        | value hKeyless =>
            obtain ⟨hPaired, -⟩ := toValue_map_eq_ok_iff.mp hValue
            exact hKeyless (hPaired _ _ _ rfl)
      · cases hPart with
        | wrapped => exact ih x .wrapped hValue
        | item hMem =>
            obtain ⟨values, hItems, -⟩ := toValue_sequence_eq_ok_iff.mp hValue
            obtain ⟨w, hItem⟩ := exists_of_mem_forall₂ hItems hMem
            exact ih x (.item hMem) hItem
        | key hMem hKey =>
            obtain ⟨-, hNamed, -⟩ := toValue_map_eq_ok_iff.mp hValue
            obtain ⟨name, hName⟩ := hNamed _ hMem _ hKey
            exact ih x (.key hMem hKey) (toValue_eq_text_iff.mpr hName)
        | value hMem hPart =>
            obtain ⟨hPaired, -, rows, entries, -, hValues, -⟩ := toValue_map_eq_ok_iff.mp hValue
            obtain ⟨c, hCompleted, rfl⟩ := exists_completed hPaired hMem hPart
            obtain ⟨row, hRow⟩ := exists_of_mem_forall₂ hValues hCompleted
            exact ih c.2 (.value hMem hPart) hRow
        | field hMem =>
            obtain ⟨rows, entries, -, hValues, -⟩ := toValue_record_eq_ok_iff.mp hValue
            obtain ⟨row, hRow⟩ := exists_of_mem_forall₂ hValues hMem
            exact ih x (.field hMem) hRow
        | caseOf =>
            obtain ⟨w, hInner, -⟩ := toValue_caseOf_eq_ok_iff.mp hValue
            exact ih x .caseOf hInner
        | caseSequence =>
            obtain ⟨w, hItems, -⟩ := toValue_caseSequence_eq_ok_iff.mp hValue
            exact ih _ .caseSequence hItems
        | caseRecord =>
            obtain ⟨w, hFields, -⟩ := toValue_caseRecord_eq_ok_iff.mp hValue
            exact ih _ .caseRecord hFields

theorem exists_toValue (hSound : s.IsRepresentable) : ∃ v, s.toValue = .ok v := by
  induction s using part_induction with
  | hPass s ih =>
      obtain ⟨hHere, hParts⟩ := isRepresentable_iff.mp hSound
      have ih (x : Serial) (hPart : Part x s) : ∃ v, x.toValue = .ok v :=
        ih x hPart (hParts x hPart)
      cases s with
      | natural n =>
          have hFits : n < 1 <<< 63 := Nat.lt_of_not_le fun hRange => hHere (.natural hRange)
          exact ⟨_, toValue_natural_eq_ok_iff.mpr ⟨hFits, rfl⟩⟩
      | wide signed => exact absurd (.wide signed) hHere
      | wrapped inner => exact ih inner .wrapped
      | sequence items =>
          obtain ⟨values, hItems⟩ := exists_forall₂ fun x hMem => ih x (.item hMem)
          exact ⟨_, toValue_sequence_eq_ok_iff.mpr ⟨values, hItems, rfl⟩⟩
      | map steps =>
          have hPaired := Paired.of_isRepresentable hSound
          have hNamed := Named.of_isRepresentable hSound
          have hRow (c : Serial × Serial) (hMem : c ∈ completed steps) :
              ∃ row : String × Value, c.1.Names row.1 ∧ c.2.toValue = .ok row.2 := by
            obtain ⟨⟨first, hFirst, hKey⟩, second, hSecond, hValue⟩ := steps_of_mem_completed hMem
            obtain ⟨name, hName⟩ := hNamed first hFirst c.1 hKey
            obtain ⟨v, hConverts⟩ := ih c.2 (.value hSecond hValue)
            exact ⟨(name, v), hName, hConverts⟩
          obtain ⟨rows, hRows⟩ := exists_forall₂ hRow
          have hNames := hRows.imp fun _ _ => And.left
          have hValues := hRows.imp fun _ _ => And.right
          exact ⟨_, toValue_map_eq_ok_iff.mpr
            ⟨hPaired, hNamed, rows, _, hNames, hValues, Entries.keepsLast_iff.mpr rfl, rfl⟩⟩
      | record fields =>
          have hRow (field : String × Serial) (hMem : field ∈ fields) :
              ∃ row : String × Value, field.1 = row.1 ∧ field.2.toValue = .ok row.2 := by
            obtain ⟨v, hConverts⟩ := ih field.2 (.field hMem)
            exact ⟨(field.1, v), rfl, hConverts⟩
          obtain ⟨rows, hRows⟩ := exists_forall₂ hRow
          have hNames := hRows.imp fun _ _ => And.left
          have hValues := hRows.imp fun _ _ => And.right
          exact ⟨_, toValue_record_eq_ok_iff.mpr
            ⟨rows, _, hNames, hValues, Entries.keepsLast_iff.mpr rfl, rfl⟩⟩
      | caseOf name inner =>
          obtain ⟨v, hInner⟩ := ih inner .caseOf
          exact ⟨_, toValue_caseOf_eq_ok_iff.mpr ⟨v, hInner, rfl⟩⟩
      | caseSequence name items =>
          obtain ⟨v, hItems⟩ := ih _ .caseSequence
          exact ⟨_, toValue_caseSequence_eq_ok_iff.mpr ⟨v, hItems, rfl⟩⟩
      | caseRecord name fields =>
          obtain ⟨v, hFields⟩ := ih _ .caseRecord
          exact ⟨_, toValue_caseRecord_eq_ok_iff.mpr ⟨v, hFields, rfl⟩⟩
      | _ => exact ⟨_, rfl⟩

theorem toValue_of_becomes (hSound : s.IsRepresentable) (hBecomes : s.Becomes v) :
    s.toValue = .ok v := by
  induction s using part_induction generalizing v with
  | hPass s ih =>
      have ih (x : Serial) (hPart : Part x s) (w : Value) : x.Becomes w → x.toValue = .ok w :=
        ih x hPart ((isRepresentable_iff.mp hSound).2 x hPart)
      cases hBecomes with
      | natural hRange => exact toValue_natural_eq_ok_iff.mpr ⟨hRange, rfl⟩
      | wrapped hInner => exact ih _ .wrapped _ hInner
      | sequence hItems =>
          have hConverts := forall₂_imp_of_mem (fun x hMem => ih x (.item hMem)) hItems
          exact toValue_sequence_eq_ok_iff.mpr ⟨_, hConverts, rfl⟩
      | map hNames hValues hLast =>
          have hConverts := forall₂_imp_of_mem (fun c hMem row => by
            obtain ⟨-, step, hStep, hPart⟩ := steps_of_mem_completed hMem
            exact ih c.2 (.value hStep hPart) row.2) hValues
          exact toValue_map_eq_ok_iff.mpr ⟨Paired.of_isRepresentable hSound,
            Named.of_isRepresentable hSound, _, _, hNames, hConverts, hLast, rfl⟩
      | record hNames hValues hLast =>
          have hConverts := forall₂_imp_of_mem
            (fun field hMem row => ih field.2 (.field hMem) row.2) hValues
          exact toValue_record_eq_ok_iff.mpr ⟨_, _, hNames, hConverts, hLast, rfl⟩
      | caseOf hInner =>
          exact toValue_caseOf_eq_ok_iff.mpr ⟨_, ih _ .caseOf _ hInner, rfl⟩
      | caseSequence hItems =>
          exact toValue_caseSequence_eq_ok_iff.mpr ⟨_, ih _ .caseSequence _ hItems, rfl⟩
      | caseRecord hFields =>
          exact toValue_caseRecord_eq_ok_iff.mpr ⟨_, ih _ .caseRecord _ hFields, rfl⟩
      | _ => rfl

theorem toValue_eq_ok_iff : s.toValue = .ok v ↔ s.IsRepresentable ∧ s.Becomes v :=
  ⟨fun hValue => ⟨isRepresentable_of_toValue hValue, becomes_of_toValue hValue⟩,
    fun ⟨hSound, hBecomes⟩ => toValue_of_becomes hSound hBecomes⟩

/-- Data become a value exactly if nothing in them, at any depth, is a number that does not
fit, a key that is no text or a value that comes without a key. What they become is told by
the value of each part: the last entry that is completed for a name counts, and a key that
never gets a value does not. They become a context exactly if they become a map, which
then has the bindings. -/
theorem representable_data_convert (s : Serial) :
    ((∃ v, s.toValue = .ok v) ↔ s.IsRepresentable) ∧
    (∀ v, s.toValue = .ok v ↔ s.IsRepresentable ∧ s.Becomes v) ∧
    ((∃ k, s.toContext = .ok k) ↔ s.IsRepresentable ∧ ∃ entries, s.Becomes (.map entries)) ∧
    ∀ k : Context, s.toContext = .ok k ↔ s.toValue = .ok (.map k.bindings) := by
  refine ⟨⟨?_, exists_toValue⟩, fun v => toValue_eq_ok_iff, ?_, fun k => toContext_eq_ok_iff⟩
  · rintro ⟨v, hValue⟩
    exact isRepresentable_of_toValue hValue
  · simp only [toContext_eq_ok_iff, toValue_eq_ok_iff]
    constructor
    · rintro ⟨k, hSound, hBecomes⟩
      exact ⟨hSound, k.bindings, hBecomes⟩
    · rintro ⟨hSound, entries, hBecomes⟩
      have hSorted := isSorted_of_toValue (toValue_of_becomes hSound hBecomes)
      exact ⟨⟨entries, hSorted.1⟩, hSound, hBecomes⟩

/-- An entry takes the place of a key that waits. -/
example : (map [.key (.text "a"), .entry (.text "b") .nothing, .value .nothing]).toValue =
    .error .valueWithoutKey := rfl

end Serial

end Bulletin
