import DesignByNumbers.Picture
import DesignByNumbers.Precision

/-!
# Picture.Grey — pictures as grey images

The intensity of a cell falls from one, white, at colour zero to nought, black, at colour
one hundred, and stays there beyond. Colours are 64-bit integers, and so is the difference
from which the intensity is made. Images hold intensities in single precision and are
stored with a byte for each cell.
-/

namespace DesignByNumbers.Picture

/-! ## Colours as machine words -/

/-- The least magnitude beyond the positive 64-bit integers, 2⁶³. -/
def wordBound : Int := 9223372036854775808

/-- Whether an integer is a 64-bit integer. -/
def isWord (value : Int) : Bool := -wordBound ≤ value && value < wordBound

/-- The 64-bit integer that differs by a multiple of 2⁶⁴. -/
def wrapWord (value : Int) : Int := value.bmod 18446744073709551616

/-- The colours of all cells as 64-bit integers. That all colours are integers is checked
before their ranges are. -/
def colours (picture : Picture) : Except Failure (Vector Int (side * side)) :=
  match (picture.mapResolved Numeral.parse?).mapM id with
  | none => .error .unconvertible
  | some values => if values.all isWord then .ok values else .error .outOfRange

/-! ## Intensities -/

/-- The nearest number between nought and one. -/
def clip (x : Rat) : Rat :=
  if x < 0 then 0 else if 1 < x then 1 else x

/-- The intensity of a colour. -/
def intensity (colour : Int) : Rat :=
  clip ((wrapWord (Canvas.extent - colour) : Rat) / (Canvas.extent : Rat))

/-- The intensities of all cells in single precision. -/
def greyImage (picture : Picture) : Except Failure (Vector Precision.Scaled (side * side)) := do
  let values ← picture.colours
  return values.map fun value => Precision.round Precision.single (intensity value)

/-! ## Bytes -/

/-- The byte for white. -/
def white : Nat := 255

/-- The byte for an intensity: its share of white in the given precision, cut to a whole
number and, beyond the bytes, to the lowest eight digits. -/
def greyByte (digits : Nat) (x : Rat) : Nat :=
  let share := Precision.nearest digits (x * (white : Rat))
  (share.num.tdiv share.den % 256).toNat

/-- The bytes of an image in single precision. -/
def imageBytes {n : Nat} (image : Vector Precision.Scaled n) : Vector Nat n :=
  image.map fun x => greyByte Precision.single x.toRat

/-- A rational number in double precision. -/
def inDouble (x : Rat) : Rat := Precision.nearest Precision.double x

/-- The byte for a quotient of integers, in double precision throughout. -/
def quotientByte (numerator denominator : Int) : Nat :=
  greyByte Precision.double (inDouble (inDouble numerator / inDouble denominator))

end DesignByNumbers.Picture
