/-!
# Precision — rational numbers with few binary digits

A rational number is rounded to a given number of significant binary digits; halfway cases
go to the even neighbour. Single precision has 24 digits, double precision 53. Exponents
are not limited, unless a least one is given.
-/

namespace DesignByNumbers.Precision

/-- A whole number times a power of two. -/
structure Scaled where
  significand : Nat
  exponent : Int
deriving Repr, DecidableEq

/-- The rational number that a scaled number stands for. -/
def Scaled.toRat (scaled : Scaled) : Rat :=
  (scaled.significand : Rat) * (2 : Rat) ^ scaled.exponent

/-- A quotient rounded to the nearest whole number, halfway cases to the even one. -/
def roundQuotient (numerator denominator : Nat) : Nat :=
  let quotient := numerator / denominator
  let twice := 2 * (numerator % denominator)
  if twice < denominator then quotient
  else if denominator < twice then quotient + 1
  else quotient + quotient % 2

/-- Numerator and denominator of a number divided by a power of two. -/
def divided (x : Rat) (exponent : Int) : Nat × Nat :=
  (x.num.toNat <<< (-exponent).toNat, x.den <<< exponent.toNat)

/-- The exponent at which a positive number has the given count of digits before the binary
point. -/
def exponentFor (digits : Nat) (x : Rat) : Int :=
  let guess : Int := (x.num.toNat.log2 : Int) - x.den.log2 - digits + 1
  let (numerator, denominator) := divided x guess
  if numerator < denominator <<< (digits - 1) then guess - 1 else guess

/-- A number that is not negative, rounded to a multiple of a power of two. -/
def roundAt (exponent : Int) (x : Rat) : Scaled :=
  let (numerator, denominator) := divided x exponent
  { significand := roundQuotient numerator denominator, exponent }

/-- A number that is not negative, rounded to a count of significant digits. -/
def round (digits : Nat) (x : Rat) : Scaled :=
  if x.num ≤ 0 then { significand := 0, exponent := 0 } else roundAt (exponentFor digits x) x

/-- A scaled number within a count of significant digits. Rounding up can end in the least
number with one digit more. -/
def Scaled.carried (digits : Nat) (scaled : Scaled) : Scaled :=
  if scaled.significand = 1 <<< digits then
    { significand := 1 <<< (digits - 1), exponent := scaled.exponent + 1 }
  else scaled

/-- A number that is not negative, rounded to a count of significant digits of which none
lies below a least exponent. -/
def roundAbove (digits : Nat) (least : Int) (x : Rat) : Scaled :=
  if x.num ≤ 0 then { significand := 0, exponent := least }
  else
    let exponent := exponentFor digits x
    (roundAt (if exponent < least then least else exponent) x).carried digits

/-- A number of either sign, rounded to a count of significant digits. -/
def nearest (digits : Nat) (x : Rat) : Rat :=
  if x < 0 then -(round digits (-x)).toRat else (round digits x).toRat

/-- The significant digits of single precision. -/
def single : Nat := 24

/-- The significant digits of double precision. -/
def double : Nat := 53

/-- The word that stores a number of single precision between 2⁻¹²⁶ and 2¹²⁸, or zero: an
exponent field above a significand whose leading digit is implied. -/
def Scaled.singleWord (scaled : Scaled) : Nat :=
  if scaled.significand = 0 then 0
  else ((scaled.exponent + 149).toNat <<< 23) + scaled.significand

end DesignByNumbers.Precision
