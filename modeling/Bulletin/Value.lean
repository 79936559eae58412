import Bulletin.Binary64
import Bulletin.Entries

/-!
Values: what can be bound to a name, when it counts as true in a test, and when
two of them are equal. Binding contexts say what the names of a template stand
for.
-/

namespace Bulletin

/-- Data that a name of a template can be bound to. -/
inductive Value where
  | nothing
  | bool (b : Bool)
  | integer (n : Int64)
  | float (x : Binary64)
  | text (s : String)
  | list (items : List Value)
  | map (entries : List (String × Value))
  deriving Repr

/-- The sort of a value. -/
inductive ValueKind where
  | nothing
  | bool
  | integer
  | float
  | text
  | list
  | map
  deriving DecidableEq, Repr

namespace ValueKind

/-- The name of the sort in messages. -/
def describe : ValueKind → String
  | nothing => "none"
  | bool => "bool"
  | integer => "integer"
  | float => "float"
  | text => "string"
  | list => "list"
  | map => "map"

end ValueKind

namespace Value

instance : Inhabited Value := ⟨nothing⟩

def kind : Value → ValueKind
  | nothing => .nothing
  | bool _ => .bool
  | integer _ => .integer
  | float _ => .float
  | text _ => .text
  | list _ => .list
  | map _ => .map

/-- Whether a conditional that tests the value counts it as true. Zero, the
empty text, list and map, and nothing at all count as false. -/
def isTruthy : Value → Bool
  | nothing => false
  | bool b => b
  | integer n => n != 0
  | float x => !x.isZero
  | text s => !s.isEmpty
  | list items => !items.isEmpty
  | map entries => !entries.isEmpty

mutual

/-- Equality of values. Numbers compare as numbers, so that the two zeros are
equal and what is no number is not equal to itself. An integer never equals a
float. -/
def equal : Value → Value → Bool
  | nothing, nothing => true
  | bool a, bool b => a == b
  | integer a, integer b => a == b
  | float a, float b => a.numericEq b
  | text a, text b => a == b
  | list a, list b => equalItems a b
  | map a, map b => equalEntries a b
  | _, _ => false

def equalItems : List Value → List Value → Bool
  | [], [] => true
  | a :: as, b :: bs => equal a b && equalItems as bs
  | _, _ => false

def equalEntries : List (String × Value) → List (String × Value) → Bool
  | [], [] => true
  | (name, a) :: as, (other, b) :: bs => name == other && equal a b && equalEntries as bs
  | _, _ => false

end

instance : BEq Value := ⟨equal⟩

mutual

/-- Whether the entries of every map in the value are in order. A constructor of a
nested type cannot ask for this itself; what comes out of a conversion has it, see
`Serial.isSorted_of_toValue`. -/
def IsSorted : Value → Prop
  | list items => ItemsSorted items
  | map entries => Entries.IsSorted entries ∧ EntriesSorted entries
  | _ => True

def ItemsSorted : List Value → Prop
  | [] => True
  | v :: rest => IsSorted v ∧ ItemsSorted rest

def EntriesSorted : List (String × Value) → Prop
  | [] => True
  | (_, v) :: rest => IsSorted v ∧ EntriesSorted rest

end

theorem itemsSorted_iff {items : List Value} : ItemsSorted items ↔ ∀ v ∈ items, v.IsSorted := by
  induction items with
  | nil => simp [ItemsSorted]
  | cons v items ih => rw [ItemsSorted, ih, List.forall_mem_cons]

theorem entriesSorted_iff {entries : List (String × Value)} :
    EntriesSorted entries ↔ ∀ e ∈ entries, e.2.IsSorted := by
  induction entries with
  | nil => simp [EntriesSorted]
  | cons e entries ih => rw [EntriesSorted, ih, List.forall_mem_cons]

theorem isSorted_single {v : Value} (hSorted : v.IsSorted) (name : String) :
    (map [(name, v)]).IsSorted :=
  ⟨List.pairwise_singleton _ _, hSorted, trivial⟩

theorem isSorted_map_insert {entries : Entries Value} {v : Value}
    (hEntries : (map entries).IsSorted) (hSorted : v.IsSorted) (name : String) :
    (map (entries.insert name v)).IsSorted := by
  refine ⟨hEntries.1.insert name v, entriesSorted_iff.mpr fun e hMem => ?_⟩
  rcases Entries.mem_insert hMem with rfl | hOld
  · exact hSorted
  · exact entriesSorted_iff.mp hEntries.2 e hOld

end Value

/-- The names that a template can use, each once and with its value. -/
structure Context where
  bindings : Entries Value
  sorted : bindings.IsSorted
  deriving Repr

namespace Context

def empty : Context where
  bindings := []
  sorted := List.Pairwise.nil

instance : Inhabited Context := ⟨empty⟩

/-- The context with these bindings. The last one of a name counts. -/
def ofList (bindings : List (String × Value)) : Context where
  bindings := .ofList bindings
  sorted := Entries.isSorted_ofList bindings

/-- Binds a name, in place of an earlier binding. -/
def insert (k : Context) (name : String) (v : Value) : Context where
  bindings := k.bindings.insert name v
  sorted := k.sorted.insert name v

def get? (k : Context) (name : String) : Option Value :=
  k.bindings.get? name

def contains (k : Context) (name : String) : Bool :=
  (k.get? name).isSome

def size (k : Context) : Nat :=
  k.bindings.length

def isEmpty (k : Context) : Bool :=
  k.bindings.isEmpty

/-- Adds bindings one after the other. They replace those of the same names. -/
def extend (k : Context) (bindings : List (String × Value)) : Context where
  bindings := k.bindings.insertAll bindings
  sorted := Entries.isSorted_insertAll k.sorted bindings

/-- The bindings of both contexts. Where both bind a name, the second counts. -/
def merge (k other : Context) : Context :=
  k.extend other.bindings

/-- Equality of contexts: the same names with equal values. -/
def equal (k other : Context) : Bool :=
  Value.equalEntries k.bindings other.bindings

instance : BEq Context := ⟨equal⟩

end Context

end Bulletin
