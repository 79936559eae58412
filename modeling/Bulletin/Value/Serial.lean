import Bulletin.Value

/-!
Turning typed data into values. `Serial` describes data the way a program hands
it over piece by piece; `Serial.toValue` keeps what a template can use and says
why the rest cannot be kept. The maps that come out are in order at every depth,
so those that are contexts have each name once.
-/

namespace Bulletin

mutual

/-- Typed data as it is handed over. `natural` is for unsigned numbers of any
width up to 64 bits, `wide` for numbers of 128 bits, `wrapped` for a present
optional value or a wrapper around a single value, and `case…` for the cases of
a type with several, which have a name. -/
inductive Serial where
  | nothing
  | bool (b : Bool)
  | integer (n : Int64)
  | natural (n : Nat)
  | wide (signed : Bool)
  | single (bits : UInt32)
  | double (x : Binary64)
  | char (c : Char)
  | text (s : String)
  | bytes (data : List UInt8)
  | wrapped (inner : Serial)
  | sequence (items : List Serial)
  | map (steps : List MapStep)
  | record (fields : List (String × Serial))
  | caseName (name : String)
  | caseOf (name : String) (inner : Serial)
  | caseSequence (name : String) (items : List Serial)
  | caseRecord (name : String) (fields : List (String × Serial))

/-- One step of handing over a map: a key, the value for the key handed over
last, or both at once. -/
inductive MapStep where
  | key (k : Serial)
  | value (v : Serial)
  | entry (k v : Serial)

end

instance : Inhabited Serial := ⟨.nothing⟩

instance : Inhabited MapStep := ⟨.key .nothing⟩

/-- Why data cannot become a value, or a value a context. -/
inductive Unrepresentable where
  | outOfRange (n : Nat)
  | unsupportedWidth (signed : Bool)
  | keyNotText (found : ValueKind)
  | valueWithoutKey
  | notBindings (found : ValueKind)
  deriving DecidableEq, Repr

namespace Unrepresentable

def message : Unrepresentable → String
  | outOfRange n => s!"integer `{n}` is out of range"
  | unsupportedWidth true => "i128 is not supported"
  | unsupportedWidth false => "u128 is not supported"
  | keyNotText found => s!"map keys must be strings, found {found.describe}"
  | valueWithoutKey => "map value serialized before its key"
  | notBindings found =>
    s!"a binding context must be built from a struct or map, not a {found.describe}"

end Unrepresentable

namespace Value

/-- The integer with this value, if 64 bits with a sign can hold it. -/
def ofNatural? (n : Nat) : Option Value :=
  if n < 1 <<< 63 then some (integer (Int64.ofNat n)) else none

/-- The text of a value that is one. -/
def asKey : Value → Except Unrepresentable String
  | text s => .ok s
  | v => .error (.keyNotText v.kind)

/-- A map with a single entry. -/
def single (name : String) (v : Value) : Value :=
  map [(name, v)]

end Value

/-- What comes out of two steps comes out of the second one, which is given what the
first came to. -/
theorem bind_eq_ok_iff {ε α β : Type} {first : Except ε α} {next : α → Except ε β} {b : β} :
    first >>= next = .ok b ↔ ∃ a, first = .ok a ∧ next a = .ok b := by
  cases first with
  | error e => exact ⟨nofun, fun ⟨_, hFirst, _⟩ => nomatch hFirst⟩
  | ok a => exact ⟨fun hNext => ⟨a, rfl, hNext⟩, fun ⟨_, rfl, hNext⟩ => hNext⟩

theorem bind_pure_eq_ok_iff {ε α β : Type} {first : Except ε α} {f : α → β} {b : β} :
    (first >>= fun a => pure (f a)) = .ok b ↔ ∃ a, first = .ok a ∧ b = f a := by
  rw [bind_eq_ok_iff]
  exact exists_congr fun a => and_congr_right fun _ =>
    ⟨fun hSame => (Except.ok.inj hSame).symm, fun hSame => congrArg Except.ok hSame.symm⟩

namespace Serial

mutual

/-- The value of the data. Wrappers leave no trace, cases with data become maps
with a single entry, and of two entries of a map with the same key the later one
counts. -/
def toValue : Serial → Except Unrepresentable Value
  | nothing => .ok .nothing
  | bool b => .ok (.bool b)
  | integer n => .ok (.integer n)
  | natural n =>
    match Value.ofNatural? n with
    | some v => .ok v
    | none => .error (.outOfRange n)
  | wide signed => .error (.unsupportedWidth signed)
  | single bits => .ok (.float (.ofBinary32 bits))
  | double x => .ok (.float x)
  | char c => .ok (.text c.toString)
  | text s => .ok (.text s)
  | bytes data => .ok (.list (data.map fun b => .integer (Int64.ofNat b.toNat)))
  | wrapped inner => toValue inner
  | sequence items => do return .list (← itemsToValues items)
  | map steps => do return .map (← stepsToEntries [] none steps)
  | record fields => do return .map (← fieldsToEntries [] fields)
  | caseName name => .ok (.text name)
  | caseOf name inner => do return .single name (← toValue inner)
  | caseSequence name items => do return .single name (.list (← itemsToValues items))
  | caseRecord name fields => do return .single name (.map (← fieldsToEntries [] fields))

def itemsToValues : List Serial → Except Unrepresentable (List Value)
  | [] => .ok []
  | item :: rest => do
    let v ← toValue item
    let values ← itemsToValues rest
    return v :: values

def fieldsToEntries (entries : Entries Value) :
    List (String × Serial) → Except Unrepresentable (Entries Value)
  | [] => .ok entries
  | (name, field) :: rest => do
    let v ← toValue field
    fieldsToEntries (entries.insert name v) rest

/-- Carries out the steps of handing over a map. A value takes the key that
waits for it; a key that never gets one is dropped. -/
def stepsToEntries (entries : Entries Value) (key? : Option String) :
    List MapStep → Except Unrepresentable (Entries Value)
  | [] => .ok entries
  | .key k :: rest => do
    let key ← (← toValue k).asKey
    stepsToEntries entries (some key) rest
  | .value v :: rest =>
    match key? with
    | none => .error .valueWithoutKey
    | some key => do
      let v ← toValue v
      stepsToEntries (entries.insert key v) none rest
  | .entry k v :: rest => do
    let key ← (← toValue k).asKey
    let v ← toValue v
    stepsToEntries (entries.insert key v) none rest

end

mutual

/-- What comes out of a conversion is in order at every depth. -/
theorem isSorted_of_toValue : ∀ {s : Serial} {v : Value}, s.toValue = .ok v → v.IsSorted
  | nothing, _, hValue => by cases hValue; trivial
  | bool _, _, hValue => by cases hValue; trivial
  | integer _, _, hValue => by cases hValue; trivial
  | natural n, v, hValue => by
    rw [toValue, Value.ofNatural?] at hValue
    by_cases hFits : n < 1 <<< 63
    · rw [if_pos hFits] at hValue
      cases hValue
      trivial
    · rw [if_neg hFits] at hValue
      cases hValue
  | wide _, _, hValue => nomatch hValue
  | single _, _, hValue => by cases hValue; trivial
  | double _, _, hValue => by cases hValue; trivial
  | char _, _, hValue => by cases hValue; trivial
  | text _, _, hValue => by cases hValue; trivial
  | bytes _, _, hValue => by
    cases hValue
    refine Value.itemsSorted_iff.mpr fun v hMem => ?_
    obtain ⟨b, -, rfl⟩ := List.mem_map.mp hMem
    trivial
  | wrapped _, _, hValue => isSorted_of_toValue (by rwa [toValue] at hValue)
  | sequence _, _, hValue => by
    obtain ⟨values, hItems, rfl⟩ := bind_pure_eq_ok_iff.mp hValue
    exact itemsSorted_of_itemsToValues hItems
  | map _, _, hValue => by
    obtain ⟨entries, hSteps, rfl⟩ := bind_pure_eq_ok_iff.mp hValue
    exact isSorted_of_stepsToEntries ⟨List.Pairwise.nil, trivial⟩ hSteps
  | record _, _, hValue => by
    obtain ⟨entries, hFields, rfl⟩ := bind_pure_eq_ok_iff.mp hValue
    exact isSorted_of_fieldsToEntries ⟨List.Pairwise.nil, trivial⟩ hFields
  | caseName _, _, hValue => by cases hValue; trivial
  | caseOf name _, _, hValue => by
    obtain ⟨w, hInner, rfl⟩ := bind_pure_eq_ok_iff.mp hValue
    exact Value.isSorted_single (isSorted_of_toValue hInner) name
  | caseSequence name _, _, hValue => by
    obtain ⟨values, hItems, rfl⟩ := bind_pure_eq_ok_iff.mp hValue
    exact Value.isSorted_single (v := .list values) (itemsSorted_of_itemsToValues hItems) name
  | caseRecord name _, _, hValue => by
    obtain ⟨entries, hFields, rfl⟩ := bind_pure_eq_ok_iff.mp hValue
    have hSorted := isSorted_of_fieldsToEntries ⟨List.Pairwise.nil, trivial⟩ hFields
    exact Value.isSorted_single hSorted name

theorem itemsSorted_of_itemsToValues : ∀ {items : List Serial} {values : List Value},
    itemsToValues items = .ok values → Value.ItemsSorted values
  | [], _, hItems => by cases hItems; trivial
  | _ :: _, _, hItems => by
    obtain ⟨v, hItem, hItems⟩ := bind_eq_ok_iff.mp hItems
    obtain ⟨values, hRest, rfl⟩ := bind_pure_eq_ok_iff.mp hItems
    exact ⟨isSorted_of_toValue hItem, itemsSorted_of_itemsToValues hRest⟩

theorem isSorted_of_fieldsToEntries : ∀ {fields : List (String × Serial)}
    {entries all : Entries Value}, (Value.map entries).IsSorted →
    fieldsToEntries entries fields = .ok all → (Value.map all).IsSorted
  | [], _, _, hEntries, hFields => by cases hFields; exact hEntries
  | (name, _) :: _, _, _, hEntries, hFields => by
    obtain ⟨v, hField, hRest⟩ := bind_eq_ok_iff.mp hFields
    have hInserted := Value.isSorted_map_insert hEntries (isSorted_of_toValue hField) name
    exact isSorted_of_fieldsToEntries hInserted hRest

theorem isSorted_of_stepsToEntries : ∀ {steps : List MapStep} {key? : Option String}
    {entries all : Entries Value}, (Value.map entries).IsSorted →
    stepsToEntries entries key? steps = .ok all → (Value.map all).IsSorted
  | [], _, _, _, hEntries, hSteps => by cases hSteps; exact hEntries
  | .key _ :: _, _, _, _, hEntries, hSteps => by
    obtain ⟨_, -, hSteps⟩ := bind_eq_ok_iff.mp hSteps
    obtain ⟨key, -, hRest⟩ := bind_eq_ok_iff.mp hSteps
    exact isSorted_of_stepsToEntries hEntries hRest
  | .value _ :: _, none, _, _, _, hSteps => nomatch hSteps
  | .value _ :: _, some key, _, _, hEntries, hSteps => by
    obtain ⟨v, hValue, hRest⟩ := bind_eq_ok_iff.mp hSteps
    have hInserted := Value.isSorted_map_insert hEntries (isSorted_of_toValue hValue) key
    exact isSorted_of_stepsToEntries hInserted hRest
  | .entry _ _ :: _, _, _, _, hEntries, hSteps => by
    obtain ⟨_, -, hSteps⟩ := bind_eq_ok_iff.mp hSteps
    obtain ⟨key, -, hSteps⟩ := bind_eq_ok_iff.mp hSteps
    obtain ⟨v, hValue, hRest⟩ := bind_eq_ok_iff.mp hSteps
    have hInserted := Value.isSorted_map_insert hEntries (isSorted_of_toValue hValue) key
    exact isSorted_of_stepsToEntries hInserted hRest

end

/-- The context that has a binding for each entry of the data, which must be a
map or a record. -/
def toContext (s : Serial) : Except Unrepresentable Context :=
  match hValue : s.toValue with
  | .ok (.map entries) => .ok ⟨entries, (isSorted_of_toValue hValue).1⟩
  | .ok v => .error (.notBindings v.kind)
  | .error cause => .error cause

theorem toContext_eq_ok_iff {s : Serial} {k : Context} :
    s.toContext = .ok k ↔ s.toValue = .ok (.map k.bindings) := by
  unfold toContext
  split
  · next entries hValue =>
    constructor
    · rintro ⟨⟩
      exact hValue
    · intro hSame
      cases k with
      | mk bindings sorted =>
        cases hValue.symm.trans hSame
        rfl
  · next v hOther hValue =>
    rw [hValue]
    exact ⟨nofun, fun hSame => absurd (Except.ok.inj hSame) (hOther _)⟩
  · next cause hValue =>
    rw [hValue]
    exact ⟨nofun, nofun⟩

theorem toContext_of_ne_map {s : Serial} {v : Value} (hValue : s.toValue = .ok v)
    (hOther : ∀ entries, v ≠ .map entries) : s.toContext = .error (.notBindings v.kind) := by
  unfold toContext
  split
  · next entries hMap => exact absurd (Except.ok.inj (hValue.symm.trans hMap)) (hOther entries)
  · next w _ hSame =>
    rw [Except.ok.inj (hValue.symm.trans hSame)]
  · next cause hCause => cases hValue.symm.trans hCause

/-- An optional value. -/
def ofOption : Option Serial → Serial
  | none => nothing
  | some s => wrapped s

end Serial

namespace Value

mutual

/-- Hands over a value itself. -/
def toSerial : Value → Serial
  | nothing => .nothing
  | bool b => .bool b
  | integer n => .integer n
  | float x => .double x
  | text s => .text s
  | list items => .sequence (itemsToSerial items)
  | map entries => .map (entriesToSteps entries)

def itemsToSerial : List Value → List Serial
  | [] => []
  | v :: rest => toSerial v :: itemsToSerial rest

def entriesToSteps : List (String × Value) → List MapStep
  | [] => []
  | (name, v) :: rest => .entry (.text name) (toSerial v) :: entriesToSteps rest

end

end Value

end Bulletin
