/-!
# Double precision numbers

Binary floating-point numbers of 64 bits, given by what they are and not by their bits, and the
one that is nearest to a decimal number.
-/

set_option autoImplicit false

namespace ClassLattice

/-- A double precision number.  A finite one is its mantissa times a power of two. -/
inductive Binary64 where
  | finite (isNegative : Bool) (mantissa : Nat) (exponent : Int)
  | infinite (isNegative : Bool)
  | nan
  deriving DecidableEq

namespace Binary64

/-- The quotient rounded to the nearest whole number, a half to the even neighbour. -/
def divideToNearestEven (numerator denominator : Nat) : Nat :=
  let quotient := numerator / denominator
  let twiceRest := numerator % denominator * 2
  if denominator < twiceRest then quotient + 1
  else if twiceRest = denominator then quotient + quotient % 2
  else quotient

/-- A power of a whole number, or one if the exponent is negative. -/
def wholePower (base : Nat) (exponent : Int) : Nat := Nat.pow base exponent.toNat

/-- A fraction divided by a power of two, as numerator and denominator. -/
def scale (numerator denominator : Nat) (exponent : Int) : Nat × Nat :=
  (numerator * wholePower 2 (-exponent), denominator * wholePower 2 exponent)

/-- The least mantissa of 53 bits. -/
def leastMantissa : Nat := 0x10000000000000

/-- The number nearest to a positive fraction, of two equally near ones the one with an even
mantissa.  The mantissa has 53 bits unless the exponent is the least one. -/
def ofFraction (isNegative : Bool) (numerator denominator : Nat) : Binary64 :=
  let low := (Nat.log2 numerator : Int) - (Nat.log2 denominator : Int) - 53
  let (n, d) := scale numerator denominator low
  let exponent := max (if n / d < 2 * leastMantissa then low else low + 1) (-1074)
  let (n, d) := scale numerator denominator exponent
  let mantissa := divideToNearestEven n d
  let (mantissa, exponent) :=
    if mantissa = 2 * leastMantissa then (leastMantissa, exponent + 1) else (mantissa, exponent)
  if 971 < exponent then .infinite isNegative else .finite isNegative mantissa exponent

/-- The number nearest to the value that decimal digits and an exponent spell.  Beyond four hundred
places before or behind the point nothing else matters. -/
def ofDecimal (isNegative : Bool) (digits : Nat) (exponent : Int) : Binary64 :=
  let places := (Nat.toDigits 10 digits).length + exponent
  if digits = 0 || places < -400 then .finite isNegative 0 (-1074)
  else if 400 < places then .infinite isNegative
  else ofFraction isNegative (digits * wholePower 10 exponent) (wholePower 10 (-exponent))

end Binary64

end ClassLattice
