import Mathlib.Data.List.Forall2
import Bulletin.Proofs.Latest
import Bulletin.Value.Serial

/-! One level of the data that are handed over: what comes of it, given what comes of its
parts. For a map this is told by the entries that its steps complete, without the key that
waits in between. -/
namespace Bulletin

namespace MapStep

/-- The data that are handed over for a key in the step. -/
def key? : MapStep → Option Serial
  | key k => some k
  | value _ => none
  | entry k _ => some k

/-- The data that are handed over for a value in the step. -/
def value? : MapStep → Option Serial
  | key _ => none
  | value v => some v
  | entry _ v => some v

variable {step : MapStep} {x : Serial}

theorem sizeOf_lt_of_key? (hKey : step.key? = some x) : sizeOf x < sizeOf step := by
  cases step with
  | key k =>
      cases hKey
      rw [key.sizeOf_spec]
      omega
  | value v => cases hKey
  | entry k v =>
      cases hKey
      rw [entry.sizeOf_spec]
      omega

theorem sizeOf_lt_of_value? (hValue : step.value? = some x) : sizeOf x < sizeOf step := by
  cases step with
  | key k => cases hValue
  | value v =>
      cases hValue
      rw [value.sizeOf_spec]
      omega
  | entry k v =>
      cases hValue
      rw [entry.sizeOf_spec]
      omega

end MapStep

theorem Value.ofNatural?_of_lt {n : Nat} (hFits : n < 1 <<< 63) :
    Value.ofNatural? n = some (.integer (Int64.ofNat n)) :=
  if_pos hFits

theorem Value.ofNatural?_of_not_lt {n : Nat} (hRange : ¬ n < 1 <<< 63) :
    Value.ofNatural? n = none :=
  if_neg hRange

namespace Serial

/-- The first data are handed over as a part of the second. -/
inductive Part : Serial → Serial → Prop where
  | wrapped {inner : Serial} : Part inner (.wrapped inner)
  | item {x : Serial} {items : List Serial} (hMem : x ∈ items) : Part x (.sequence items)
  | key {x : Serial} {step : MapStep} {steps : List MapStep} (hMem : step ∈ steps)
      (hKey : step.key? = some x) : Part x (.map steps)
  | value {x : Serial} {step : MapStep} {steps : List MapStep} (hMem : step ∈ steps)
      (hValue : step.value? = some x) : Part x (.map steps)
  | field {name : String} {x : Serial} {fields : List (String × Serial)}
      (hMem : (name, x) ∈ fields) : Part x (.record fields)
  | caseOf {name : String} {inner : Serial} : Part inner (.caseOf name inner)
  | caseSequence {name : String} {items : List Serial} :
      Part (.sequence items) (.caseSequence name items)
  | caseRecord {name : String} {fields : List (String × Serial)} :
      Part (.record fields) (.caseRecord name fields)

/-- The data convert to the text of a key. Texts, characters and cases without data do,
and wrappers around them. -/
inductive Names : Serial → String → Prop where
  | text (s : String) : Names (.text s) s
  | char (c : Char) : Names (.char c) c.toString
  | caseName (name : String) : Names (.caseName name) name
  | wrapped {inner : Serial} {name : String} (hInner : Names inner name) :
      Names (.wrapped inner) name

/-- A key waits for its value after these steps: the last one handed over a key alone. -/
def Waits (steps : List MapStep) : Prop :=
  ∃ k, steps.getLast? = some (.key k)

/-- Every value comes when a key waits for it. -/
def Paired (steps : List MapStep) : Prop :=
  ∀ before v after, steps = before ++ .value v :: after → Waits before

/-- Every key converts to a text. -/
def Named (steps : List MapStep) : Prop :=
  ∀ step ∈ steps, ∀ k, step.key? = some k → ∃ name, k.Names name

/-- The entries that the steps complete, each with its key and its value. Either both come
at once, or the value comes right behind the key. -/
def completed : List MapStep → List (Serial × Serial)
  | .key k :: .value v :: rest => (k, v) :: completed rest
  | .entry k v :: rest => (k, v) :: completed rest
  | _ :: rest => completed rest
  | [] => []

variable {s k x : Serial} {v : Value} {items : List Serial} {values : List Value}
  {fields : List (String × Serial)} {steps before rest : List MapStep} {step next : MapStep}
  {entries out : Entries Value} {name : String}

theorem Part.sizeOf_lt (hPart : Part x s) : sizeOf x < sizeOf s := by
  have hText (s : String) : 0 < sizeOf s := by
    cases s
    simp only [String.ofByteArray.sizeOf_spec]
    omega
  cases hPart with
  | wrapped =>
      rw [wrapped.sizeOf_spec]
      omega
  | item hMem =>
      have := List.sizeOf_lt_of_mem hMem
      rw [sequence.sizeOf_spec]
      omega
  | key hMem hKey =>
      have := List.sizeOf_lt_of_mem hMem
      have := MapStep.sizeOf_lt_of_key? hKey
      rw [map.sizeOf_spec]
      omega
  | value hMem hValue =>
      have := List.sizeOf_lt_of_mem hMem
      have := MapStep.sizeOf_lt_of_value? hValue
      rw [map.sizeOf_spec]
      omega
  | field hMem =>
      have := List.sizeOf_lt_of_mem hMem
      rw [Prod.mk.sizeOf_spec] at this
      rw [record.sizeOf_spec]
      omega
  | caseOf =>
      rw [caseOf.sizeOf_spec]
      omega
  | @caseSequence name =>
      have := hText name
      rw [sequence.sizeOf_spec, caseSequence.sizeOf_spec]
      omega
  | @caseRecord name =>
      have := hText name
      rw [record.sizeOf_spec, caseRecord.sizeOf_spec]
      omega

/-- What passes from all parts of data to the data holds of all data. -/
theorem part_induction {P : Serial → Prop} (hPass : ∀ s, (∀ x, Part x s → P x) → P s)
    (s : Serial) : P s := by
  induction hSize : sizeOf s using Nat.strongRecOn generalizing s with
  | ind size ih => exact hPass s fun x hPart => ih _ (hSize ▸ hPart.sizeOf_lt) x rfl

/-! Maps that are handed over step by step. -/

theorem not_waits_nil : ¬ Waits [] := nofun

theorem waits_cons_cons : Waits (step :: next :: before) ↔ Waits (next :: before) := by
  rw [Waits, List.getLast?_cons_cons, Waits]

theorem waits_cons_of_ne (hOther : ∀ k, step ≠ .key k) :
    Waits (step :: before) ↔ Waits before := by
  cases before with
  | nil => simp [Waits, hOther]
  | cons => exact waits_cons_cons

theorem waits_value : Waits (.value x :: before) ↔ Waits before :=
  waits_cons_of_ne nofun

theorem waits_entry : Waits (.entry k x :: before) ↔ Waits before :=
  waits_cons_of_ne nofun

theorem paired_cons : Paired (step :: rest) ↔ (∀ v, step ≠ .value v) ∧
    ∀ before v after, rest = before ++ .value v :: after → Waits (step :: before) := by
  constructor
  · intro hPaired
    refine ⟨?_, fun before v after hRest => hPaired (step :: before) v after (by rw [hRest]; rfl)⟩
    rintro v rfl
    exact not_waits_nil (hPaired [] v rest rfl)
  · rintro ⟨hStep, hRest⟩ before v after hSteps
    rcases List.cons_eq_append_iff.mp hSteps with ⟨rfl, hHead⟩ | ⟨before', rfl, hTail⟩
    · exact absurd (List.cons.inj hHead).1.symm (hStep v)
    · exact hRest before' v after hTail

theorem paired_entry : Paired (.entry k x :: rest) ↔ Paired rest := by
  rw [paired_cons]
  simp only [waits_entry]
  exact ⟨And.right, fun hRest => ⟨nofun, hRest⟩⟩

theorem paired_key_value : Paired (.key k :: .value x :: rest) ↔ Paired rest := by
  rw [paired_cons]
  constructor
  · rintro ⟨-, hRest⟩ before w after rfl
    have hWaits := hRest (.value x :: before) w after rfl
    rwa [waits_cons_cons, waits_value] at hWaits
  · intro hPaired
    refine ⟨nofun, fun before w after hSteps => ?_⟩
    rcases List.cons_eq_append_iff.mp hSteps with ⟨rfl, -⟩ | ⟨before', rfl, hTail⟩
    · exact ⟨k, rfl⟩
    · rw [waits_cons_cons, waits_value]
      exact hPaired before' w after hTail

theorem paired_key_of_ne (hNext : ∀ v after, rest ≠ .value v :: after) :
    Paired (.key k :: rest) ↔ Paired rest := by
  have hSplit {before : List MapStep} {v : Serial} {after : List MapStep}
      (hRest : rest = before ++ .value v :: after) : Waits (.key k :: before) ↔ Waits before := by
    cases before with
    | nil => exact absurd hRest (hNext v after)
    | cons => exact waits_cons_cons
  rw [paired_cons]
  constructor
  · rintro ⟨-, hWaits⟩ before v after hRest
    exact (hSplit hRest).mp (hWaits before v after hRest)
  · intro hPaired
    exact ⟨nofun, fun before v after hRest => (hSplit hRest).mpr (hPaired before v after hRest)⟩

theorem named_key : Named (.key k :: rest) ↔ (∃ name, k.Names name) ∧ Named rest := by
  simp [Named, MapStep.key?]

theorem named_value : Named (.value x :: rest) ↔ Named rest := by
  simp [Named, MapStep.key?]

theorem named_entry : Named (.entry k x :: rest) ↔ (∃ name, k.Names name) ∧ Named rest := by
  simp [Named, MapStep.key?]

/-- What completes an entry hands over its key and its value. -/
theorem steps_of_mem_completed {c : Serial × Serial} (hMem : c ∈ completed steps) :
    (∃ step ∈ steps, step.key? = some c.1) ∧ ∃ step ∈ steps, step.value? = some c.2 := by
  fun_induction completed steps with
  | case1 k v rest ih =>
      rcases List.mem_cons.mp hMem with rfl | hMem
      · exact ⟨⟨.key k, by simp, rfl⟩, .value v, by simp, rfl⟩
      · obtain ⟨hKey, hValue⟩ := ih hMem
        exact ⟨List.exists_mem_cons_of_exists (List.exists_mem_cons_of_exists hKey),
          List.exists_mem_cons_of_exists (List.exists_mem_cons_of_exists hValue)⟩
  | case2 k v rest ih =>
      rcases List.mem_cons.mp hMem with rfl | hMem
      · exact ⟨⟨.entry k v, by simp, rfl⟩, .entry k v, by simp, rfl⟩
      · obtain ⟨hKey, hValue⟩ := ih hMem
        exact ⟨List.exists_mem_cons_of_exists hKey, List.exists_mem_cons_of_exists hValue⟩
  | case3 head rest _ _ ih =>
      obtain ⟨hKey, hValue⟩ := ih hMem
      exact ⟨List.exists_mem_cons_of_exists hKey, List.exists_mem_cons_of_exists hValue⟩
  | case4 => simp at hMem

/-- Where every value has its key, every value completes an entry. -/
theorem exists_completed (hPaired : Paired steps) (hMem : step ∈ steps) {v : Serial}
    (hValue : step.value? = some v) : ∃ c ∈ completed steps, c.2 = v := by
  fun_induction completed steps with
  | case1 k w rest ih =>
      have hRest := paired_key_value.mp hPaired
      rcases List.mem_cons.mp hMem with rfl | hMem
      · cases hValue
      · rcases List.mem_cons.mp hMem with rfl | hMem
        · exact ⟨(k, w), by simp, Option.some.inj hValue⟩
        · obtain ⟨c, hc, hSame⟩ := ih hRest hMem
          exact ⟨c, by simp [hc], hSame⟩
  | case2 k w rest ih =>
      rcases List.mem_cons.mp hMem with rfl | hMem
      · exact ⟨(k, w), by simp, Option.some.inj hValue⟩
      · obtain ⟨c, hc, hSame⟩ := ih (paired_entry.mp hPaired) hMem
        exact ⟨c, by simp [hc], hSame⟩
  | case3 head rest hNext hOther ih =>
      cases head with
      | value w => exact absurd rfl ((paired_cons.mp hPaired).1 w)
      | entry k w => exact (hOther k w rfl).elim
      | key k =>
          have hRest := (paired_key_of_ne fun w after hHead => hNext k w after rfl hHead).mp hPaired
          rcases List.mem_cons.mp hMem with rfl | hMem
          · cases hValue
          · exact ih hRest hMem
  | case4 => simp at hMem

/-! What the conversion does with one level of the data. -/

theorem toValue_natural_eq_ok_iff {n : Nat} :
    (natural n).toValue = .ok v ↔ n < 1 <<< 63 ∧ v = .integer (Int64.ofNat n) := by
  rw [toValue]
  by_cases hFits : n < 1 <<< 63
  · rw [Value.ofNatural?_of_lt hFits]
    exact ⟨fun hSame => ⟨hFits, (Except.ok.inj hSame).symm⟩, fun hSame => congrArg _ hSame.2.symm⟩
  · rw [Value.ofNatural?_of_not_lt hFits]
    exact ⟨nofun, fun hSame => absurd hSame.1 hFits⟩

theorem itemsToValues_eq_ok_iff : itemsToValues items = .ok values ↔
    List.Forall₂ (fun item value => item.toValue = .ok value) items values := by
  induction items generalizing values with
  | nil => simp [itemsToValues, eq_comm]
  | cons item items ih =>
      rw [itemsToValues, bind_eq_ok_iff]
      simp only [bind_pure_eq_ok_iff, ih, List.forall₂_cons_left_iff, exists_and_left]

theorem toValue_sequence_eq_ok_iff : (sequence items).toValue = .ok v ↔
    ∃ values, List.Forall₂ (fun item value => item.toValue = .ok value) items values ∧
      v = .list values := by
  simp only [toValue, bind_pure_eq_ok_iff, itemsToValues_eq_ok_iff]

theorem toValue_caseOf_eq_ok_iff : (caseOf name x).toValue = .ok v ↔
    ∃ w, x.toValue = .ok w ∧ v = .map [(name, w)] :=
  bind_pure_eq_ok_iff

theorem toValue_caseSequence_eq_ok_iff : (caseSequence name items).toValue = .ok v ↔
    ∃ w, (sequence items).toValue = .ok w ∧ v = .map [(name, w)] := by
  rw [← toValue_caseOf_eq_ok_iff, toValue, toValue, toValue]
  cases itemsToValues items <;> rfl

theorem toValue_caseRecord_eq_ok_iff : (caseRecord name fields).toValue = .ok v ↔
    ∃ w, (record fields).toValue = .ok w ∧ v = .map [(name, w)] := by
  rw [← toValue_caseOf_eq_ok_iff, toValue, toValue, toValue]
  cases fieldsToEntries [] fields <;> rfl

/-- Only what names something becomes a text. -/
theorem toValue_eq_text_iff : s.toValue = .ok (.text name) ↔ s.Names name := by
  induction s using part_induction with
  | hPass s ih =>
      constructor
      · intro hText
        cases s with
        | wrapped inner => exact .wrapped ((ih inner .wrapped).mp hText)
        | text s =>
            cases hText
            exact .text name
        | char c =>
            cases hText
            exact .char c
        | caseName =>
            cases hText
            exact .caseName name
        | natural n => exact nomatch (toValue_natural_eq_ok_iff.mp hText).2
        | sequence items =>
            obtain ⟨_, -, hSame⟩ := toValue_sequence_eq_ok_iff.mp hText
            cases hSame
        | map steps =>
            obtain ⟨_, -, hSame⟩ := bind_pure_eq_ok_iff.mp hText
            cases hSame
        | record fields =>
            obtain ⟨_, -, hSame⟩ := bind_pure_eq_ok_iff.mp hText
            cases hSame
        | caseOf name x =>
            obtain ⟨_, -, hSame⟩ := toValue_caseOf_eq_ok_iff.mp hText
            cases hSame
        | caseSequence name items =>
            obtain ⟨_, -, hSame⟩ := toValue_caseSequence_eq_ok_iff.mp hText
            cases hSame
        | caseRecord name fields =>
            obtain ⟨_, -, hSame⟩ := toValue_caseRecord_eq_ok_iff.mp hText
            cases hSame
        | _ => cases hText
      · intro hNames
        cases hNames with
        | text => rfl
        | char => rfl
        | caseName => rfl
        | wrapped hInner => exact (ih _ .wrapped).mpr hInner

/-- Going on with a key that data convert to. -/
theorem bind_key_eq_ok_iff {β : Type} {next : String → Except Unrepresentable β} {b : β} :
    (k.toValue >>= fun v => v.asKey >>= next) = .ok b ↔
      ∃ name, k.Names name ∧ next name = .ok b := by
  simp only [bind_eq_ok_iff, ← toValue_eq_text_iff]
  constructor
  · rintro ⟨v, hValue, name, hKey, hNext⟩
    cases v <;> cases hKey
    exact ⟨name, hValue, hNext⟩
  · rintro ⟨name, hValue, hNext⟩
    exact ⟨.text name, hValue, name, rfl, hNext⟩

theorem fieldsToEntries_eq_ok_iff : fieldsToEntries entries fields = .ok out ↔
    ∃ rows, List.Forall₂ (fun field row => field.1 = row.1) fields rows ∧
      List.Forall₂ (fun field row => field.2.toValue = .ok row.2) fields rows ∧
      out = entries.insertAll rows := by
  induction fields generalizing entries with
  | nil => simp [fieldsToEntries, Entries.insertAll, eq_comm]
  | cons field fields ih =>
      obtain ⟨name, x⟩ := field
      simp only [fieldsToEntries, bind_eq_ok_iff, ih]
      constructor
      · rintro ⟨v, hField, rows, hNames, hValues, rfl⟩
        exact ⟨(name, v) :: rows, .cons rfl hNames, .cons hField hValues, rfl⟩
      · rintro ⟨_, hNames, hValues, rfl⟩
        cases hNames with
        | cons hName hNames =>
            cases hValues with
            | cons hValue hValues =>
                cases hName
                exact ⟨_, hValue, _, hNames, hValues, rfl⟩

theorem toValue_record_eq_ok_iff : (record fields).toValue = .ok v ↔
    ∃ rows entries, List.Forall₂ (fun field row => field.1 = row.1) fields rows ∧
      List.Forall₂ (fun field row => field.2.toValue = .ok row.2) fields rows ∧
      Entries.KeepsLast rows entries ∧ v = .map entries := by
  rw [toValue, bind_pure_eq_ok_iff]
  simp only [fieldsToEntries_eq_ok_iff, Entries.keepsLast_iff]
  constructor
  · rintro ⟨_, ⟨rows, hNames, hValues, rfl⟩, rfl⟩
    exact ⟨rows, _, hNames, hValues, rfl, rfl⟩
  · rintro ⟨rows, _, hNames, hValues, rfl, rfl⟩
    exact ⟨_, ⟨rows, hNames, hValues, rfl⟩, rfl⟩

/-- Filling a map with one more entry first. -/
theorem exists_rows_cons {cs : List (Serial × Serial)} :
    (∃ rows, List.Forall₂ (fun c row => c.1.Names row.1) ((k, x) :: cs) rows ∧
      List.Forall₂ (fun c row => c.2.toValue = .ok row.2) ((k, x) :: cs) rows ∧
      out = entries.insertAll rows) ↔
    ∃ name, k.Names name ∧ ∃ v, x.toValue = .ok v ∧
      ∃ rows, List.Forall₂ (fun c row => c.1.Names row.1) cs rows ∧
        List.Forall₂ (fun c row => c.2.toValue = .ok row.2) cs rows ∧
        out = (entries.insert name v).insertAll rows := by
  constructor
  · rintro ⟨_, hNames, hValues, rfl⟩
    cases hNames with
    | cons hName hNames =>
        cases hValues with
        | cons hValue hValues => exact ⟨_, hName, _, hValue, _, hNames, hValues, rfl⟩
  · rintro ⟨name, hName, v, hValue, rows, hNames, hValues, rfl⟩
    exact ⟨(name, v) :: rows, .cons hName hNames, .cons hValue hValues, rfl⟩

theorem stepsToEntries_key_eq_ok_iff : stepsToEntries entries none (.key k :: rest) = .ok out ↔
    ∃ name, k.Names name ∧ stepsToEntries entries (some name) rest = .ok out :=
  bind_key_eq_ok_iff

theorem stepsToEntries_value_eq_ok_iff :
    stepsToEntries entries (some name) (.value x :: rest) = .ok out ↔
      ∃ v, x.toValue = .ok v ∧ stepsToEntries (entries.insert name v) none rest = .ok out :=
  bind_eq_ok_iff

theorem stepsToEntries_entry_eq_ok_iff :
    stepsToEntries entries none (.entry k x :: rest) = .ok out ↔
      ∃ name, k.Names name ∧
        ∃ v, x.toValue = .ok v ∧ stepsToEntries (entries.insert name v) none rest = .ok out := by
  simp only [← bind_eq_ok_iff, ← bind_key_eq_ok_iff]
  rfl

/-- A key that waits is given up when no value follows. -/
theorem stepsToEntries_some_of_ne (hNext : ∀ v after, rest ≠ .value v :: after) :
    stepsToEntries entries (some name) rest = stepsToEntries entries none rest := by
  cases rest with
  | nil => rfl
  | cons next after =>
      cases next with
      | value v => exact absurd rfl (hNext v after)
      | key => rfl
      | entry => rfl

/-- The steps give a map if every value comes behind a key, every key is a text and every
value that completes an entry can be converted. -/
theorem stepsToEntries_eq_ok_iff : stepsToEntries entries none steps = .ok out ↔
    Paired steps ∧ Named steps ∧
    ∃ rows, List.Forall₂ (fun c row => c.1.Names row.1) (completed steps) rows ∧
      List.Forall₂ (fun c row => c.2.toValue = .ok row.2) (completed steps) rows ∧
      out = entries.insertAll rows := by
  fun_induction completed steps generalizing entries with
  | case1 k x rest ih =>
      simp only [stepsToEntries_key_eq_ok_iff, stepsToEntries_value_eq_ok_iff, ih,
        paired_key_value, named_key, named_value, exists_rows_cons]
      constructor
      · rintro ⟨name, hName, v, hValue, hPaired, hNamed, hRows⟩
        exact ⟨hPaired, ⟨⟨name, hName⟩, hNamed⟩, name, hName, v, hValue, hRows⟩
      · rintro ⟨hPaired, ⟨-, hNamed⟩, name, hName, v, hValue, hRows⟩
        exact ⟨name, hName, v, hValue, hPaired, hNamed, hRows⟩
  | case2 k x rest ih =>
      simp only [stepsToEntries_entry_eq_ok_iff, ih, paired_entry, named_entry, exists_rows_cons]
      constructor
      · rintro ⟨name, hName, v, hValue, hPaired, hNamed, hRows⟩
        exact ⟨hPaired, ⟨⟨name, hName⟩, hNamed⟩, name, hName, v, hValue, hRows⟩
      · rintro ⟨hPaired, ⟨-, hNamed⟩, name, hName, v, hValue, hRows⟩
        exact ⟨name, hName, v, hValue, hPaired, hNamed, hRows⟩
  | case3 head rest hNext hOther ih =>
      cases head with
      | value v =>
          rw [paired_cons]
          exact ⟨nofun, fun hSteps => absurd rfl (hSteps.1.1 v)⟩
      | entry k v => exact (hOther k v rfl).elim
      | key k =>
          have hNext (v : Serial) (after : List MapStep) : rest ≠ .value v :: after :=
            fun hRest => hNext k v after rfl hRest
          simp only [stepsToEntries_key_eq_ok_iff, stepsToEntries_some_of_ne hNext, ih,
            paired_key_of_ne hNext, named_key]
          constructor
          · rintro ⟨name, hName, hPaired, hNamed, hRows⟩
            exact ⟨hPaired, ⟨⟨name, hName⟩, hNamed⟩, hRows⟩
          · rintro ⟨hPaired, ⟨⟨name, hName⟩, hNamed⟩, hRows⟩
            exact ⟨name, hName, hPaired, hNamed, hRows⟩
  | case4 =>
      have hPaired : Paired [] := fun before v after hSteps =>
        absurd hSteps.symm (by simp)
      simp [stepsToEntries, hPaired, Named, Entries.insertAll, eq_comm]

theorem toValue_map_eq_ok_iff : (map steps).toValue = .ok v ↔ Paired steps ∧ Named steps ∧
    ∃ rows entries, List.Forall₂ (fun c row => c.1.Names row.1) (completed steps) rows ∧
      List.Forall₂ (fun c row => c.2.toValue = .ok row.2) (completed steps) rows ∧
      Entries.KeepsLast rows entries ∧ v = .map entries := by
  rw [toValue, bind_pure_eq_ok_iff]
  simp only [stepsToEntries_eq_ok_iff, Entries.keepsLast_iff]
  constructor
  · rintro ⟨_, ⟨hPaired, hNamed, rows, hNames, hValues, rfl⟩, rfl⟩
    exact ⟨hPaired, hNamed, rows, _, hNames, hValues, rfl, rfl⟩
  · rintro ⟨hPaired, hNamed, rows, _, hNames, hValues, rfl, rfl⟩
    exact ⟨_, ⟨hPaired, hNamed, rows, hNames, hValues, rfl⟩, rfl⟩

end Serial

end Bulletin
