import ClassLattice.Decimal.Binary64

/-!
# Shortest decimal form

A finite number is written with the fewest digits that read back as the same number, and of the
candidates with that many digits the nearest, or the greater of two that are equally near.  A number
of digits is enough if one of the two neighbours of the number on the grid of that many digits lies
in the interval of all values that round to the number; the ends of the interval belong to it if the
mantissa is even.
-/

set_option autoImplicit false

namespace ClassLattice

/-- Decimal digits with a power of ten. -/
structure Decimal where
  digits : Nat
  exponent : Int
  deriving DecidableEq

namespace Decimal

open Binary64 (leastMantissa wholePower)

/-- The values that round to a positive number, as fractions with a common denominator. -/
structure Interval where
  low : Nat
  value : Nat
  high : Nat
  denominator : Nat
  /-- Whether the ends belong to the interval. -/
  isClosed : Bool

/-- The interval of a positive number.  Below a power of two the gap to the next number is half of
the gap above, unless the exponent is the least one. -/
def Interval.around (mantissa : Nat) (exponent : Int) : Interval :=
  let unit := wholePower 2 (exponent - 2)
  let below := if mantissa = leastMantissa && -1074 < exponent then 1 else 2
  { low := (4 * mantissa - below) * unit
    value := 4 * mantissa * unit
    high := (4 * mantissa + 2) * unit
    denominator := wholePower 2 (2 - exponent)
    isClosed := mantissa % 2 = 0 }

/-- Whether a whole number of steps of a power of ten lies in an interval. -/
def Interval.contains (interval : Interval) (steps : Nat) (power : Int) : Bool :=
  let point := steps * wholePower 10 power * interval.denominator
  let low := interval.low * wholePower 10 (-power)
  let high := interval.high * wholePower 10 (-power)
  if interval.isClosed then low ≤ point && point ≤ high else low < point && point < high

/-- The point nearest to the value, if one lies in the interval, among the two neighbours of the
value on the grid of a power of ten. -/
def Interval.nearest? (interval : Interval) (power : Int) : Option Nat :=
  let numerator := interval.value * wholePower 10 (-power)
  let denominator := interval.denominator * wholePower 10 power
  let below := numerator / denominator
  let isBelowNearer := numerator % denominator * 2 < denominator
  match interval.contains below power, interval.contains (below + 1) power with
  | true, true => some (if isBelowNearer then below else below + 1)
  | true, false => some below
  | false, true => some (below + 1)
  | false, false => none

/-- The number of digits that the value has before the decimal point; for a value below one tenth
it is the negative number of zeros behind the point. -/
def Interval.magnitude (interval : Interval) : Int :=
  let whole := interval.value / interval.denominator
  if whole ≠ 0 then (Nat.toDigits 10 whole).length
  else
    let isLeading (count : Nat) : Bool :=
      interval.denominator ≤ interval.value * Nat.pow 10 (count + 1)
    let zeros := ((List.range 400).find? isLeading).getD 400
    Int.negOfNat zeros

/-- The first hit on the grids of rising numbers of digits.  A hit at the upper neighbour may be a
power of ten, which is then written with one digit. -/
def Interval.shortest (interval : Interval) : Decimal :=
  let magnitude := interval.magnitude
  let hit := (List.range 17).findSome? fun (count : Nat) =>
    let power := magnitude - (count + 1)
    (interval.nearest? power).map fun digits =>
      if digits = Nat.pow 10 (count + 1) then ⟨1, magnitude⟩ else ⟨digits, power⟩
  hit.getD ⟨0, 0⟩

/-- The shortest decimal that reads back as a number. -/
def shortest (mantissa : Nat) (exponent : Int) : Decimal :=
  if mantissa = 0 then ⟨0, 0⟩ else (Interval.around mantissa exponent).shortest

/-- A decimal number without an exponent, always with a point and a digit behind it. -/
def positional (decimal : Decimal) : String :=
  let digits := Nat.toDigits 10 decimal.digits
  if 0 ≤ decimal.exponent then
    String.ofList (digits ++ List.replicate decimal.exponent.toNat '0') ++ ".0"
  else
    let places := (-decimal.exponent).toNat
    let padded := List.replicate (places + 1 - digits.length) '0' ++ digits
    let (whole, fraction) := padded.splitAt (padded.length - places)
    String.ofList whole ++ "." ++ String.ofList fraction

end Decimal

/-- A number as text: without an exponent, and with a point and a digit behind it if finite. -/
def Binary64.text : Binary64 → String
  | finite isNegative mantissa exponent =>
    (if isNegative then "-" else "") ++ (Decimal.shortest mantissa exponent).positional
  | infinite isNegative => if isNegative then "-inf" else "inf"
  | nan => "NaN"

end ClassLattice
