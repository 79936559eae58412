/-!
Floating-point numbers of 64 bits, held as their bits, so that nothing about
them depends on the machine. Only what the values of a document need is here:
comparing, telling zero from the rest, making them from whole numbers and from
32-bit floats, and their text. This has the fewest decimal digits that read back
as the same number, written out without an exponent.
-/

namespace Bulletin

/-- A binary64 number, given by its bits: the sign, eleven bits of exponent and
52 bits of fraction. -/
structure Binary64 where
  bits : UInt64
  deriving DecidableEq, Repr

namespace Binary64

def isNegative (x : Binary64) : Bool :=
  decide (1 <<< 63 ≤ x.bits.toNat)

def exponentField (x : Binary64) : Nat :=
  x.bits.toNat >>> 52 % 2048

def fraction (x : Binary64) : Nat :=
  x.bits.toNat % (1 <<< 52)

/-- What a number is: no number, an infinity, or `significand · 2 ^ exponent`
with a sign. Both zeros have significand zero. -/
inductive Magnitude where
  | nan
  | infinite
  | finite (significand : Nat) (exponent : Int)
  deriving DecidableEq, Repr

def magnitude (x : Binary64) : Magnitude :=
  if x.exponentField = 2047 then
    if x.fraction = 0 then .infinite else .nan
  else if x.exponentField = 0 then .finite x.fraction (-1074)
  else .finite (1 <<< 52 + x.fraction) (x.exponentField - 1075)

def isNaN (x : Binary64) : Bool :=
  decide (x.magnitude = .nan)

/-- Whether this is one of the two zeros. -/
def isZero (x : Binary64) : Bool :=
  x.exponentField == 0 && x.fraction == 0

/-- Numeric equality. The zeros are equal to each other, and what is no number
is equal to nothing, not to itself either. -/
def numericEq (x y : Binary64) : Bool :=
  !x.isNaN && !y.isNaN && (x.bits == y.bits || (x.isZero && y.isZero))

/-- The number with these fields. -/
def ofFields (negative : Bool) (exponent fraction : Nat) : Binary64 :=
  ⟨UInt64.ofNat ((if negative then 1 <<< 63 else 0) + exponent <<< 52 + fraction)⟩

/-- A quotient by a power of two, rounded to the nearest whole number. Half a
unit goes to the even neighbour. -/
def roundShift (n shift : Nat) : Nat :=
  let unit := 1 <<< shift
  let quotient := n / unit
  let doubled := 2 * (n % unit)
  if unit < doubled || (doubled == unit && quotient % 2 == 1) then quotient + 1
  else quotient

/-- The number nearest to a whole number of at most 64 bits. Of two numbers
equally near it is the one with an even fraction. -/
def ofNat (n : Nat) : Binary64 :=
  if n = 0 then ⟨0⟩
  else
    let top := n.log2
    let significand := if top ≤ 52 then n <<< (52 - top) else roundShift n (top - 52)
    ofFields false (top + 1022) significand

/-- The number that a 32-bit float with these bits stands for. Every one has an
exact counterpart. What is no number stays so and becomes quiet. -/
def ofBinary32 (bits : UInt32) : Binary64 :=
  let n := bits.toNat
  let negative := decide (1 <<< 31 ≤ n)
  let exponent := n >>> 23 % 256
  let fraction := n % (1 <<< 23)
  if exponent = 255 then
    ofFields negative 2047
      (if fraction = 0 then 0 else 1 <<< 51 + (fraction % (1 <<< 22)) <<< 29)
  else if exponent = 0 then
    if fraction = 0 then ofFields negative 0 0
    else
      let top := fraction.log2
      ofFields negative (top + 874) ((fraction - 1 <<< top) <<< (52 - top))
  else ofFields negative (exponent + 896) (fraction <<< 29)

end Binary64

/-- A decimal number, `digits · 10 ^ exponent`. -/
structure Decimal where
  digits : Nat
  exponent : Int
  deriving DecidableEq, Repr

namespace Decimal

/-- The number written out, with as many zeros as its exponent asks for. -/
def text (d : Decimal) : String :=
  let digits := Nat.toDigits 10 d.digits
  match d.exponent with
  | .ofNat zeros => String.ofList (digits ++ List.replicate zeros '0')
  | .negSucc below =>
    let places := below + 1
    if places < digits.length then
      let whole := digits.length - places
      String.ofList (digits.take whole ++ '.' :: digits.drop whole)
    else
      String.ofList
        ('0' :: '.' :: (List.replicate (places - digits.length) '0' ++ digits))

end Decimal

namespace Binary64

/-- The real numbers that round to a given number, as an interval around it. All
three are multiples of the same power of two, of which only the quotients
matter. The ends belong to the interval if `closed` holds. -/
structure Interval where
  low : Nat
  value : Nat
  high : Nat
  closed : Bool
  deriving DecidableEq, Repr

namespace Interval

/-- Whether the interval holds a number, given in the same unit. -/
def holds (i : Interval) (x : Nat) : Bool :=
  if i.closed then i.low ≤ x && x ≤ i.high else i.low < x && x < i.high

end Interval

/-- The interval of a positive finite number, in quarters of the distance to its
upper neighbour. The lower neighbour of a power of two is half as far, unless
that power is the least normal number. -/
def interval (significand : Nat) (exponent : Int) : Interval where
  low := 4 * significand - if significand = 1 <<< 52 && -1074 < exponent then 1 else 2
  value := 4 * significand
  high := 4 * significand + 2
  closed := significand % 2 == 0

/-- The multiple of `step` that lies in the interval and nearest to its value,
as the number of steps, if there is one. From the middle between two multiples
it goes up. -/
def nearestMultiple? (i : Interval) (step : Nat) : Option Nat :=
  let below := i.value / step
  let rest := i.value % step
  match i.holds (below * step), i.holds ((below + 1) * step) with
  | true, true => some (if step ≤ 2 * rest then below + 1 else below)
  | true, false => some below
  | false, true => some (below + 1)
  | false, false => none

/-- The interval in units that make both a power of two and a power of ten
whole, with the number of units in `10 ^ place`. -/
def scaled (i : Interval) (exponent place : Int) : Interval × Nat :=
  let factor := Nat.pow 10 (-place).toNat <<< exponent.toNat
  ({ i with low := i.low * factor, value := i.value * factor, high := i.high * factor },
    Nat.pow 10 place.toNat <<< (-exponent).toNat)

/-- Tries the powers of ten from `10 ^ place` down, as many as `count`, for the
first with a multiple in the interval. -/
def coarsest? (i : Interval) (exponent : Int) : Nat → Int → Option Decimal
  | 0, _ => none
  | count + 1, place =>
    let (j, step) := scaled i exponent place
    match nearestMultiple? j step with
    | some digits => some ⟨digits, place⟩
    | none => coarsest? i exponent count (place - 1)

/-- The decimal with the fewest digits that rounds to the positive number
`significand · 2 ^ exponent`, and of those the nearest. No such number reaches
`10 ^ 309`, and multiples of `10 ^ -342` are dense enough for all of them. -/
def shortest (significand : Nat) (exponent : Int) : Decimal :=
  (coarsest? (interval significand exponent) (exponent - 2) 652 309).getD ⟨0, 0⟩

/-- The number as it stands in a document. -/
def text (x : Binary64) : String :=
  let sign := if x.isNegative then "-" else ""
  match x.magnitude with
  | .nan => "NaN"
  | .infinite => sign ++ "inf"
  | .finite 0 _ => sign ++ "0"
  | .finite significand exponent => sign ++ (shortest significand exponent).text

end Binary64

end Bulletin
