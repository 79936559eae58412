import Bulletin.Value.Serial

/-!
Plain data can become a value in two ways: directly, and by being handed over
piece by piece. Both are defined here side by side.
-/

namespace Bulletin

/-- A whole number of fewer bits than an integer value has. -/
inductive Narrow where
  | unsigned8 (n : UInt8)
  | unsigned16 (n : UInt16)
  | unsigned32 (n : UInt32)
  | signed8 (n : Int8)
  | signed16 (n : Int16)
  | signed32 (n : Int32)
  deriving DecidableEq, Repr

namespace Narrow

/-- The number with 64 bits and a sign. -/
def widen : Narrow → Int64
  | unsigned8 n => n.toUInt64.toInt64
  | unsigned16 n => n.toUInt64.toInt64
  | unsigned32 n => n.toUInt64.toInt64
  | signed8 n => n.toInt64
  | signed16 n => n.toInt64
  | signed32 n => n.toInt64

/-- The number as it is handed over, by its value if it has no sign. -/
def toSerial : Narrow → Serial
  | unsigned8 n => .natural n.toNat
  | unsigned16 n => .natural n.toNat
  | unsigned32 n => .natural n.toNat
  | signed8 n => .integer n.toInt64
  | signed16 n => .integer n.toInt64
  | signed32 n => .integer n.toInt64

end Narrow

/-- Plain data of the sorts that convert to a value without fail. `size` is for
counts, which may exceed what an integer value can hold. -/
inductive Datum where
  | unit
  | bool (b : Bool)
  | integer (n : Int64)
  | narrow (n : Narrow)
  | size (n : Nat)
  | single (bits : UInt32)
  | double (x : Binary64)
  | text (s : String)
  | absent
  | present (inner : Datum)
  | list (items : List Datum)
  | map (entries : List (String × Datum))
  | value (v : Value)

instance : Inhabited Datum := ⟨.unit⟩

namespace Datum

mutual

/-- The value of the data. A count past the integers becomes the nearest
floating-point number. -/
def toValue : Datum → Value
  | unit => .nothing
  | bool b => .bool b
  | integer n => .integer n
  | narrow n => .integer n.widen
  | size n => (Value.ofNatural? n).getD (.float (.ofNat n))
  | single bits => .float (.ofBinary32 bits)
  | double x => .float x
  | text s => .text s
  | absent => .nothing
  | present inner => toValue inner
  | list items => .list (itemsToValues items)
  | map entries => .map (entriesToValues [] entries)
  | value v => v

def itemsToValues : List Datum → List Value
  | [] => []
  | item :: rest => toValue item :: itemsToValues rest

def entriesToValues (entries : Entries Value) : List (String × Datum) → Entries Value
  | [] => entries
  | (name, d) :: rest => entriesToValues (entries.insert name (toValue d)) rest

end

mutual

/-- The data as it is handed over piece by piece. -/
def toSerial : Datum → Serial
  | unit => .nothing
  | bool b => .bool b
  | integer n => .integer n
  | narrow n => n.toSerial
  | size n => .natural n
  | single bits => .single bits
  | double x => .double x
  | text s => .text s
  | absent => .nothing
  | present inner => .wrapped (toSerial inner)
  | list items => .sequence (itemsToSerial items)
  | map entries => .map (entriesToSteps entries)
  | value v => v.toSerial

def itemsToSerial : List Datum → List Serial
  | [] => []
  | item :: rest => toSerial item :: itemsToSerial rest

def entriesToSteps : List (String × Datum) → List MapStep
  | [] => []
  | (name, d) :: rest => .entry (.text name) (toSerial d) :: entriesToSteps rest

end

end Datum

end Bulletin
