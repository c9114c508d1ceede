import DesignByNumbers.Double
import DesignByNumbers.Numeral
import DesignByNumbers.Text.Part

/-!
# Double.Decimal — decimal texts of numbers of double precision

Reading a decimal gives the nearest number. Writing a number gives the decimal with the
fewest digits that reads back to it, and of several such decimals the nearest one.
-/

namespace DesignByNumbers

/-- A whole number times a power of ten. -/
structure Decimal where
  digits : Nat
  exponent : Int
deriving Repr, DecidableEq

namespace Decimal

def powerOfTen : Nat → Nat
  | 0 => 1
  | n + 1 => 10 * powerOfTen n

def toRat (decimal : Decimal) : Rat :=
  mkRat (decimal.digits * powerOfTen decimal.exponent.toNat : Nat)
    (powerOfTen (-decimal.exponent).toNat)

def digitCount (n : Nat) : Nat := (Nat.toDigits 10 n).length

/-- The least exponent of a power of ten above a positive number. -/
def leadingExponent (x : Rat) : Int :=
  let guess : Int := (digitCount x.num.toNat : Int) - digitCount x.den
  if x < toRat { digits := 1, exponent := guess } then guess else guess + 1

end Decimal

namespace Double

/-! ## Reading -/

/-- A width in decimal digits that no finite number but zero reaches, before or behind the
point. -/
def widthBound : Int := 400

/-- The number of a sign that is nearest to a decimal. Decimals far out of range are
recognised by their width. -/
def ofDecimal (negative : Bool) (decimal : Decimal) : Double :=
  let width : Int := Decimal.digitCount decimal.digits + decimal.exponent
  if decimal.digits = 0 ∨ width < -widthBound then .finite negative zeroMagnitude
  else if widthBound < width then .infinite negative
  else ofMagnitude negative decimal.toRat

/-- Whether a character marks the exponent of a decimal. -/
def isExponentMark (c : Char) : Bool := c = 'e' || c = 'E'

/-- The digits of a text that may be empty. -/
def optionalDigits? (text : List Char) : Option (List Nat) :=
  if text.isEmpty then some [] else Numeral.digits? text

def exponent? : Option (List Char) → Option Int
  | none => some 0
  | some text =>
    let (negative, magnitude) := Text.splitSign text
    (Numeral.digits? magnitude).map fun digits =>
      if negative then -(Numeral.ofDigits digits : Int) else Numeral.ofDigits digits

/-- The decimal that a text without a sign denotes: digits with a point among or around
them, and an exponent. -/
def decimal? (text : List Char) : Option Decimal := do
  let (mantissa, exponentText) := Text.cut isExponentMark text
  let (wholeText, fractionText) := Text.cut (· = '.') mantissa
  let whole ← optionalDigits? wholeText
  let fraction ← optionalDigits? (fractionText.getD [])
  let exponent ← exponent? exponentText
  if whole.isEmpty && fraction.isEmpty then none
  else some { digits := Numeral.ofDigits (whole ++ fraction), exponent := exponent - fraction.length }

/-- The number that a text denotes: a decimal or a word in letters of either case, behind
a sign. -/
def parse? (text : List Char) : Option Double :=
  let (negative, magnitude) := Text.splitSign text
  let word := String.ofList (magnitude.map Char.toLower)
  if word = "inf" || word = "infinity" then some (.infinite negative)
  else if word = "nan" then some .nan
  else (decimal? magnitude).map (ofDecimal negative)

/-! ## The fewest digits -/

/-- Whether a decimal reads back to a magnitude. -/
def readsBack (magnitude : Precision.Scaled) (decimal : Decimal) : Bool :=
  ofDecimal false decimal = .finite false magnitude

/-- A positive magnitude in units of the last of a count of digits, and the exponent of the
unit. -/
def inDigits (magnitude : Precision.Scaled) (count : Nat) : Rat × Int :=
  let x := magnitude.toRat
  let exponent := Decimal.leadingExponent x - count
  (x / Decimal.toRat { digits := 1, exponent }, exponent)

/-- The decimal with a count of digits that is nearest to a positive magnitude, in a tie the
even one. -/
def rounded (magnitude : Precision.Scaled) (count : Nat) : Decimal :=
  let (units, exponent) := inDigits magnitude count
  { digits := Precision.roundQuotient units.num.toNat units.den, exponent }

/-- The decimal with a count of digits that reads back to a positive magnitude, if one of
the two next to it does. If both do it is the nearer one. -/
def withDigits? (magnitude : Precision.Scaled) (count : Nat) : Option Decimal :=
  let (units, exponent) := inDigits magnitude count
  let below : Decimal := { digits := units.num.toNat / units.den, exponent }
  let above : Decimal := { below with digits := below.digits + 1 }
  match readsBack magnitude below, readsBack magnitude above with
  | true, true => some (rounded magnitude count)
  | true, false => some below
  | false, true => some above
  | false, false => none

/-- A count of digits that is enough to tell every number from all others. -/
def sufficientDigits : Nat := 17

/-- The decimal with the fewest digits that reads back to a positive magnitude. -/
def shortest (magnitude : Precision.Scaled) : Decimal :=
  ((List.range sufficientDigits).findSome? fun n => withDigits? magnitude (n + 1)).getD
    (rounded magnitude sufficientDigits)

/-! ## Writing -/

/-- The digits of a decimal without the zeros at their end. -/
def significantDigits (decimal : Decimal) : List Char :=
  ((Nat.toDigits 10 decimal.digits).reverse.dropWhile (· = '0')).reverse

/-- Digits with a point among or around them, so many places behind their start. -/
def positional (digits : List Char) (point : Int) : List Char :=
  let padded := List.replicate (-point).toNat '0' ++ digits
  let whole := padded.take point.toNat
  let fraction := padded.drop point.toNat
  (if point ≤ 0 then ['0'] else whole ++ List.replicate (point.toNat - whole.length) '0') ++
    '.' :: (if fraction.isEmpty then ['0'] else fraction)

/-- An exponent with its sign and at least two digits. -/
def exponentText (exponent : Int) : List Char :=
  let digits := Nat.toDigits 10 exponent.natAbs
  (if exponent < 0 then '-' else '+') :: (List.replicate (2 - digits.length) '0' ++ digits)

/-- Digits with a point behind the first one, if others follow, and an exponent. -/
def scientific (digits : List Char) (exponent : Int) : List Char :=
  let mantissa := match digits with
    | first :: second :: rest => first :: '.' :: second :: rest
    | _ => digits
  mantissa ++ 'e' :: exponentText exponent

/-- The digits of a number whose point stands so many places behind their start. Numbers
from 10⁻⁴ up to 10¹⁶ are written without an exponent. -/
def layOut (digits : List Char) (point : Int) : List Char :=
  if -4 < point ∧ point ≤ 16 then positional digits point else scientific digits (point - 1)

def printMagnitude (magnitude : Precision.Scaled) : List Char :=
  if magnitude.significand = 0 then layOut [] 0
  else
    let decimal := shortest magnitude
    layOut (significantDigits decimal) (Decimal.digitCount decimal.digits + decimal.exponent)

def print : Double → String
  | .finite negative magnitude =>
    String.ofList ((if negative then ['-'] else []) ++ printMagnitude magnitude)
  | .infinite false => "inf"
  | .infinite true => "-inf"
  | .nan => "nan"

end Double

end DesignByNumbers
