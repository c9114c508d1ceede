import DesignByNumbers.Double.Decimal
import DesignByNumbers.Text.Blank

/-!
# Double.Stepwise — decimals read with a rounding after every step

The digits of a decimal are gathered one after the other and the power of ten is applied
at the end, all in double precision. No more than seventeen digits are gathered, zeros at
the start included. The result is exact for short decimals; for long ones it may differ
from the nearest number in its last digits.
-/

namespace DesignByNumbers.Double

def gatheredDigits : Nat := 17

def greatestPower : Nat := 308

def inDouble (x : Rat) : Rat := (ofMagnitude false x).magnitude

def powerInDouble (exponent : Nat) : Rat := inDouble (Decimal.powerOfTen exponent : Nat)

/-- The magnitude with a further digit at its end. -/
def gather (value : Rat) (digit : Char) : Rat :=
  inDouble (inDouble (10 * value) + (Numeral.asciiDigitValue digit : Rat))

/-- A magnitude times a power of ten. Nothing is read if the power or the result is too
large. Small powers are divided by in two steps. -/
def applyPower? (negative : Bool) (value : Rat) (exponent : Int) : Option Double :=
  let size := exponent.natAbs
  if 0 < exponent then
    let result := ofMagnitude negative (value * powerInDouble size)
    if size ≤ greatestPower ∧ result.isFinite then some result else none
  else if size ≤ greatestPower then some (ofMagnitude negative (value / powerInDouble size))
  else if size ≤ 2 * greatestPower then
    let first := inDouble (value / powerInDouble (size - greatestPower))
    some (ofMagnitude negative (first / powerInDouble greatestPower))
  else some (.finite negative zeroMagnitude)

/-- The exponent behind a number: an optional sign and digits up to the end. -/
def plainExponent? : Option (List Char) → Option Int
  | none => some 0
  | some text =>
    let (negative, digits) := Text.splitSign text
    if Numeral.isDigits digits && digits.length ≤ gatheredDigits then
      let value : Int := Numeral.ofAsciiDigits digits
      some (if negative then -value else value)
    else none

/-- The number that digits denote: those before a point and those behind it, with an
exponent. Digits before the point that are not gathered still count as places. -/
def ofDigits? (negative : Bool) (whole fraction : List Char) (exponent : Int) : Option Double :=
  let shown := fraction.take (gatheredDigits - whole.length)
  let value := (whole.take gatheredDigits ++ shown).foldl gather 0
  applyPower? negative value
    (exponent + ((whole.length - gatheredDigits : Nat) : Int) - shown.length)

/-- Whether a text is empty or consists of ASCII digits. -/
def isOptionalDigits (text : List Char) : Bool := text.all Char.isDigit

/-- The number that a decimal in ASCII digits denotes. -/
def stepwiseDecimal? (text : List Char) : Option Double := do
  let (negative, magnitude) := Text.splitSign text
  let (mantissa, exponentText) := Text.cut isExponentMark magnitude
  let (whole, fractionText) := Text.cut (· = '.') mantissa
  let fraction := fractionText.getD []
  let exponent ← plainExponent? exponentText
  if isOptionalDigits whole && isOptionalDigits fraction && !(whole ++ fraction).isEmpty then
    ofDigits? negative whole fraction exponent
  else none

/-- The infinity that a word in letters of either case denotes. -/
def infinity? (text : List Char) : Option Double :=
  let (negative, magnitude) := Text.splitSign text
  let word := String.ofList (magnitude.map Char.toLower)
  if word = "inf" || word = "infinity" then some (.infinite negative) else none

/-- The number that a text denotes: a word for infinity, or a decimal with blanks around
it. -/
def parseStepwise? (text : List Char) : Option Double :=
  infinity? text <|> stepwiseDecimal? (Text.trimmed Text.isAsciiBlank text)

end DesignByNumbers.Double
