import DesignByNumbers.Precision

/-!
# Double — numbers of double precision

A finite number is a sign and a whole number below 2⁵³ times a power of two from 2⁻¹⁰⁷⁴ to
2⁹⁷¹. The whole number has all of its 53 digits unless the power is the least one, so that
every finite number has one form; zero has one for each sign. What rounds to more than the
greatest finite number is infinite.
-/

namespace DesignByNumbers

/-- A number of double precision. -/
inductive Double
  | finite (negative : Bool) (magnitude : Precision.Scaled)
  | infinite (negative : Bool)
  | nan
deriving Repr, DecidableEq

namespace Double

def leastExponent : Int := -1074

def greatestExponent : Int := 971

def zeroMagnitude : Precision.Scaled := { significand := 0, exponent := leastExponent }

/-- The number of a sign that is nearest to a magnitude; halfway cases go to the even
neighbour. -/
def ofMagnitude (negative : Bool) (x : Rat) : Double :=
  let magnitude := Precision.roundAbove Precision.double leastExponent x
  if magnitude.exponent ≤ greatestExponent then .finite negative magnitude
  else .infinite negative

def ofInt (value : Int) : Double :=
  ofMagnitude (value < 0) (value.natAbs : Rat)

def isFinite : Double → Bool
  | .finite _ _ => true
  | .infinite _ | .nan => false

/-- The magnitude of a finite number, and zero for the others. -/
def magnitude : Double → Rat
  | .finite _ scaled => scaled.toRat
  | .infinite _ | .nan => 0

/-- The value of a finite number. Both zeros have the same. -/
def toRat? : Double → Option Rat
  | .finite false scaled => some scaled.toRat
  | .finite true scaled => some (-scaled.toRat)
  | .infinite _ | .nan => none

end Double

end DesignByNumbers
