import Bulletin.Error
import Bulletin.Proofs.Representing
import Bulletin.Render
import Bulletin.Value.Datum

/-! The ways into values agree. A value that is handed over comes back as it was, and plain
data become the same value whether they are converted at once or handed over piece by
piece. -/
namespace Bulletin

namespace Value

mutual

/-- A value that is handed over comes back as it was. -/
theorem toValue_toSerial : ∀ {v : Value}, v.IsSorted → v.toSerial.toValue = .ok v
  | .nothing, _ => rfl
  | .bool _, _ => rfl
  | .integer _, _ => rfl
  | .float _, _ => rfl
  | .text _, _ => rfl
  | .list items, hSorted => by
      rw [toSerial, Serial.toValue, itemsToValues_itemsToSerial hSorted]
      rfl
  | .map entries, ⟨hSorted, hEntries⟩ => by
      rw [toSerial, Serial.toValue, stepsToEntries_entriesToSteps hEntries []]
      exact congrArg (fun entries => Except.ok (map entries)) (Entries.ofList_of_isSorted hSorted)

theorem itemsToValues_itemsToSerial : ∀ {items : List Value}, ItemsSorted items →
    Serial.itemsToValues (itemsToSerial items) = .ok items
  | [], _ => rfl
  | v :: items, ⟨hHead, hRest⟩ => by
      rw [itemsToSerial, Serial.itemsToValues, toValue_toSerial hHead,
        itemsToValues_itemsToSerial hRest]
      rfl

theorem stepsToEntries_entriesToSteps : ∀ {rows : List (String × Value)}, EntriesSorted rows →
    ∀ entries : Entries Value, Serial.stepsToEntries entries none (entriesToSteps rows) =
      .ok (entries.insertAll rows)
  | [], _, _ => rfl
  | (name, v) :: _, ⟨hHead, hRest⟩, entries =>
      Serial.stepsToEntries_entry_eq_ok_iff.mpr ⟨name, .text name, v, toValue_toSerial hHead,
        stepsToEntries_entriesToSteps hRest (entries.insert name v)⟩

end

/-- Converting what came out of a conversion changes nothing. -/
theorem toValue_toSerial_of_toValue {s : Serial} {v : Value} (hValue : s.toValue = .ok v) :
    v.toSerial.toValue = .ok v :=
  toValue_toSerial (Serial.isSorted_of_toValue hValue)

/-- Handing a value over gives the value itself, with the bits of its floats. As the bindings
of a context it gives the entries of a map; every other value is refused. -/
theorem handed_over_unchanged {v : Value} (hSorted : v.IsSorted) :
    v.toSerial.toValue = .ok v ∧
    (∀ entries, v = .map entries →
      ∃ k : Context, v.toSerial.toContext = .ok k ∧ k.bindings = entries) ∧
    ((∀ entries, v ≠ .map entries) → ∃ cause, v.toSerial.toContext = .error cause ∧
      cause = .notBindings v.kind ∧ (Error.unrepresentable cause).kind = .serialize) := by
  have hValue := toValue_toSerial hSorted
  refine ⟨hValue, ?_, fun hOther => ⟨_, Serial.toContext_of_ne_map hValue hOther, rfl, rfl⟩⟩
  rintro entries rfl
  exact ⟨⟨entries, hSorted.1⟩, Serial.toContext_eq_ok_iff.mpr hValue, rfl⟩

theorem handed_over_unchanged_nested :
    ∃ k, (map [("a", list [float ⟨0x7FF8000000000001⟩, float ⟨0x8000000000000000⟩]),
      ("b", map [])]).toSerial.toContext = .ok k ∧
    k.bindings = [("a", list [float ⟨0x7FF8000000000001⟩, float ⟨0x8000000000000000⟩]),
      ("b", map [])] := by
  have hNames : ("a" : String) < "b" := by decide
  refine (handed_over_unchanged ?_).2.1 _ rfl
  exact ⟨List.pairwise_pair.mpr hNames, ⟨trivial, trivial, trivial⟩,
    ⟨List.Pairwise.nil, trivial⟩, trivial⟩

end Value

/-- A number without a sign that is handed over by its value keeps its bits. -/
theorem Serial.toValue_natural_toNat {n : UInt64} (hFits : n.toNat < 1 <<< 63) :
    (Serial.natural n.toNat).toValue = .ok (.integer n.toInt64) := by
  have hBits : Int64.ofNat n.toNat = n.toInt64 := Int64.toBitVec_inj.mp (by simp)
  rw [← hBits]
  exact toValue_natural_eq_ok_iff.mpr ⟨hFits, rfl⟩

/-- Making a number wider and handing it over agree. -/
theorem Narrow.toValue_toSerial (n : Narrow) : n.toSerial.toValue = .ok (.integer n.widen) := by
  cases n with
  | unsigned8 n =>
      exact Serial.toValue_natural_toNat (n := n.toUInt64) (Nat.lt_trans n.toNat_lt (by decide))
  | unsigned16 n =>
      exact Serial.toValue_natural_toNat (n := n.toUInt64) (Nat.lt_trans n.toNat_lt (by decide))
  | unsigned32 n =>
      exact Serial.toValue_natural_toNat (n := n.toUInt64) (Nat.lt_trans n.toNat_lt (by decide))
  | signed8 n => rfl
  | signed16 n => rfl
  | signed32 n => rfl

namespace Datum

mutual

/-- The same plain data, looked at twice. Counts fit into an integer and the names of a map
are distinct; its entries may come in another order the second time. -/
inductive Alike : Datum → Datum → Prop where
  | unit : Alike .unit .unit
  | bool (b : Bool) : Alike (.bool b) (.bool b)
  | integer (n : Int64) : Alike (.integer n) (.integer n)
  | narrow (n : Narrow) : Alike (.narrow n) (.narrow n)
  | size {n : Nat} (hFits : n < 1 <<< 63) : Alike (.size n) (.size n)
  | single (bits : UInt32) : Alike (.single bits) (.single bits)
  | double (x : Binary64) : Alike (.double x) (.double x)
  | text (s : String) : Alike (.text s) (.text s)
  | absent : Alike .absent .absent
  | present {inner other : Datum} (hInner : Alike inner other) :
      Alike (.present inner) (.present other)
  | list {items others : List Datum} (hItems : ItemsAlike items others) :
      Alike (.list items) (.list others)
  | map {rows reordered others : List (String × Datum)} (hNames : (rows.map Prod.fst).Nodup)
      (hOrder : rows.Perm reordered) (hRows : RowsAlike reordered others) :
      Alike (.map rows) (.map others)
  | value {v : Value} (hSorted : v.IsSorted) : Alike (.value v) (.value v)

inductive ItemsAlike : List Datum → List Datum → Prop where
  | nil : ItemsAlike [] []
  | cons {d other : Datum} {items others : List Datum} (hHead : Alike d other)
      (hRest : ItemsAlike items others) : ItemsAlike (d :: items) (other :: others)

inductive RowsAlike : List (String × Datum) → List (String × Datum) → Prop where
  | nil : RowsAlike [] []
  | cons {name : String} {d other : Datum} {rows others : List (String × Datum)}
      (hHead : Alike d other) (hRest : RowsAlike rows others) :
      RowsAlike ((name, d) :: rows) ((name, other) :: others)

end

/-- Rows of data with the values of the data. -/
def toRows (rows : List (String × Datum)) : List (String × Value) :=
  rows.map fun row => (row.1, row.2.toValue)

theorem entriesToValues_eq (entries : Entries Value) (rows : List (String × Datum)) :
    entriesToValues entries rows = entries.insertAll (toRows rows) := by
  induction rows generalizing entries with
  | nil => rfl
  | cons row rows ih => exact ih _

theorem toValue_map (rows : List (String × Datum)) :
    (map rows).toValue = .map (Entries.ofList (toRows rows)) := by
  rw [toValue, entriesToValues_eq, Entries.ofList]

theorem ofList_toRows_perm {rows reordered : List (String × Datum)}
    (hNames : (rows.map Prod.fst).Nodup) (hOrder : rows.Perm reordered) :
    Entries.ofList (toRows rows) = Entries.ofList (toRows reordered) := by
  refine Entries.ofList_perm ?_ (hOrder.map _)
  rwa [toRows, List.map_map]

/-- The context with a binding for each row, converted at once. -/
def toContext (rows : List (String × Datum)) : Context :=
  .ofList (toRows rows)

/-- A record with a field for each row, as it is handed over. -/
def toRecord (rows : List (String × Datum)) : Serial :=
  .record (rows.map fun row => (row.1, row.2.toSerial))

mutual

/-- Data that are handed over come to the value that they have. -/
theorem Alike.toValue_toSerial : ∀ {d other : Datum}, Alike d other →
    other.toSerial.toValue = .ok d.toValue
  | _, _, .unit => rfl
  | _, _, .bool _ => rfl
  | _, _, .integer _ => rfl
  | _, _, .narrow n => n.toValue_toSerial
  | _, _, .size hFits => by
      rw [toValue, Value.ofNatural?_of_lt hFits]
      exact Serial.toValue_natural_eq_ok_iff.mpr ⟨hFits, rfl⟩
  | _, _, .single _ => rfl
  | _, _, .double _ => rfl
  | _, _, .text _ => rfl
  | _, _, .absent => rfl
  | _, _, .present hInner => hInner.toValue_toSerial
  | _, _, .value hSorted => Value.toValue_toSerial hSorted
  | _, _, .list hItems => by
      rw [toSerial, Serial.toValue, hItems.itemsToValues_itemsToSerial, toValue]
      rfl
  | _, _, .map hNames hOrder hRows => by
      rw [toSerial, Serial.toValue, hRows.stepsToEntries_entriesToSteps [], toValue_map,
        ofList_toRows_perm hNames hOrder]
      rfl

theorem ItemsAlike.itemsToValues_itemsToSerial : ∀ {items others : List Datum},
    ItemsAlike items others →
    Serial.itemsToValues (itemsToSerial others) = .ok (itemsToValues items)
  | _, _, .nil => rfl
  | _, _, .cons hHead hRest => by
      rw [itemsToSerial, Serial.itemsToValues, hHead.toValue_toSerial,
        hRest.itemsToValues_itemsToSerial]
      rfl

theorem RowsAlike.stepsToEntries_entriesToSteps : ∀ {rows others : List (String × Datum)},
    RowsAlike rows others → ∀ entries : Entries Value,
    Serial.stepsToEntries entries none (entriesToSteps others) =
      .ok (entries.insertAll (toRows rows))
  | _, _, .nil, _ => rfl
  | _, _, .cons hHead hRest, entries =>
      Serial.stepsToEntries_entry_eq_ok_iff.mpr ⟨_, .text _, _, hHead.toValue_toSerial,
        hRest.stepsToEntries_entriesToSteps (entries.insert _ _)⟩

end

variable {d other : Datum} {rows others : List (String × Datum)}

theorem RowsAlike.fieldsToEntries_map (hRows : RowsAlike rows others) (entries : Entries Value) :
    Serial.fieldsToEntries entries (others.map fun row => (row.1, row.2.toSerial)) =
      .ok (entries.insertAll (toRows rows)) := by
  induction others generalizing rows entries with
  | nil =>
      cases hRows
      rfl
  | cons row others ih =>
      cases hRows with
      | cons hHead hRest =>
          rw [List.map_cons, Serial.fieldsToEntries, hHead.toValue_toSerial]
          exact ih hRest _

/-- A record is handed over to the same end as a map with the same rows. -/
theorem toValue_toRecord (hAlike : Alike (.map rows) (.map others)) :
    (toRecord others).toValue = .ok (map rows).toValue := by
  cases hAlike with
  | map hNames hOrder hRows =>
      rw [toRecord, Serial.toValue, hRows.fieldsToEntries_map [], toValue_map,
        ofList_toRows_perm hNames hOrder]
      rfl

/-- Plain data become the same value whether they are converted at once or handed over, and
this value is handed over in turn as it is. A context with the rows of a map is the same
whether they are bound one by one or handed over as a map or as a record. So every template
is rendered alike with it. -/
theorem conversions_agree (hAlike : Alike d other) :
    other.toSerial.toValue = .ok d.toValue ∧
    d.toValue.toSerial.toValue = .ok d.toValue ∧
    ∀ rows others, d = .map rows → other = .map others →
      other.toSerial.toContext = .ok (toContext rows) ∧
      (toRecord others).toContext = .ok (toContext rows) ∧
      ∀ (t : Template) (k : Context),
        other.toSerial.toContext = .ok k ∨ (toRecord others).toContext = .ok k →
        t.resolve k = t.resolve (toContext rows) ∧ t.render k = t.render (toContext rows) := by
  have hValue := hAlike.toValue_toSerial
  refine ⟨hValue, Value.toValue_toSerial_of_toValue hValue, ?_⟩
  rintro rows others rfl rfl
  have hBindings : (map rows).toValue = .map (toContext rows).bindings := toValue_map rows
  have hMap : (map others).toSerial.toContext = .ok (toContext rows) := by
    rw [Serial.toContext_eq_ok_iff, hValue, hBindings]
  have hRecord : (toRecord others).toContext = .ok (toContext rows) := by
    rw [Serial.toContext_eq_ok_iff, toValue_toRecord hAlike, hBindings]
  refine ⟨hMap, hRecord, fun t k hEither => ?_⟩
  have hSame : k = toContext rows := by
    rcases hEither with hContext | hContext
    · exact Except.ok.inj (hContext.symm.trans hMap)
    · exact Except.ok.inj (hContext.symm.trans hRecord)
  rw [hSame]
  exact ⟨rfl, rfl⟩

theorem conversions_agree_reordered :
    (toRecord [("b", .list [.narrow (.signed8 (-1)), .size 7]),
      ("a", .present (.single 1))]).toContext =
    .ok (.ofList [("a", .float (.ofBinary32 1)), ("b", .list [.integer (-1), .integer 7])]) := by
  have hRows : Alike
      (.map [("a", .present (.single 1)), ("b", .list [.narrow (.signed8 (-1)), .size 7])])
      (.map [("b", .list [.narrow (.signed8 (-1)), .size 7]), ("a", .present (.single 1))]) := by
    refine .map (by decide) (.swap _ _ _) (.cons (.list ?_) (.cons (.present (.single 1)) .nil))
    exact .cons (.narrow _) (.cons (.size (by decide)) .nil)
  exact ((conversions_agree hRows).2.2 _ _ rfl rfl).2.1

/-- A count that does not fit is refused when it is handed over, and the nearest
floating-point number when it is converted at once. -/
example : (size (1 <<< 63)).toSerial.toValue = .error (.outOfRange (1 <<< 63)) ∧
    (size (1 <<< 63)).toValue = .float ⟨0x43E0000000000000⟩ := ⟨rfl, rfl⟩

end Datum

end Bulletin
