import DesignByNumbers.Text.Blank
import DesignByNumbers.Text.Digit

/-!
# Numeral — integers and their decimal texts

Reading accepts margins of blanks, one sign, and decimal digits of any script with
single underscores between them. Neither reading nor writing passes `digitLimit` digits:
a longer numeral has no value here, and a larger integer has no text.
-/

namespace DesignByNumbers.Numeral

/-- The most digits, leading zeros included, that a numeral may have. -/
def digitLimit : Nat := 4300

/-! ## Reading -/

/-- Whether a character may stand in the margins of a numeral. -/
def isMargin (c : Char) : Bool :=
  Text.isBlank c && !Text.isInformationSeparator c

/-- A text without its margins. -/
def trimMargins (text : List Char) : List Char :=
  ((text.dropWhile isMargin).reverse.dropWhile isMargin).reverse

/-- The digits that follow a digit, each of them after at most one underscore. -/
def digitsAfterDigit? : List Char → Option (List Nat)
  | [] => some []
  | '_' :: c :: rest =>
    match Text.digitValue? c, digitsAfterDigit? rest with
    | some digit, some digits => some (digit :: digits)
    | _, _ => none
  | c :: rest =>
    match Text.digitValue? c, digitsAfterDigit? rest with
    | some digit, some digits => some (digit :: digits)
    | _, _ => none

/-- The digits of an unsigned numeral. -/
def digits? : List Char → Option (List Nat)
  | [] => none
  | c :: rest =>
    match Text.digitValue? c, digitsAfterDigit? rest with
    | some digit, some digits => some (digit :: digits)
    | _, _ => none

/-- The number that a sequence of digits, most significant first, stands for. -/
def ofDigits (digits : List Nat) : Nat :=
  digits.foldl (fun value digit => 10 * value + digit) 0

/-- The value of an unsigned numeral within the digit limit. -/
def magnitude? (text : List Char) : Option Nat :=
  match digits? text with
  | some digits => if digits.length ≤ digitLimit then some (ofDigits digits) else none
  | none => none

/-- The value of a signed or unsigned numeral without margins. -/
def signed? : List Char → Option Int
  | '-' :: rest => (magnitude? rest).map fun (n : Nat) => -(n : Int)
  | '+' :: rest => (magnitude? rest).map fun (n : Nat) => (n : Int)
  | rest => (magnitude? rest).map fun (n : Nat) => (n : Int)

/-- The integer that a text denotes, if it is a numeral within the digit limit. -/
def parse? (text : String) : Option Int :=
  signed? (trimMargins text.toList)

/-- The value of an ASCII digit. -/
def asciiDigitValue (c : Char) : Nat := c.toNat - '0'.toNat

/-- The number that a sequence of ASCII digits stands for, whatever its length. -/
def ofAsciiDigits (digits : List Char) : Nat :=
  ofDigits (digits.map asciiDigitValue)

/-! ## Writing -/

/-- The decimal text of an integer of any size. -/
def decimal : Int → String
  | .ofNat n => n.repr
  | .negSucc n => "-" ++ (n + 1).repr

/-- The decimal text of an integer, if the digit limit admits it. -/
def print? (value : Int) : Option String :=
  if (Nat.toDigits 10 value.natAbs).length ≤ digitLimit then some (decimal value) else none

/-! ## Plain numerals

What a program computes with is a plain numeral: an optional minus sign and ASCII
digits, of any number.
-/

/-- Whether a text is one or more ASCII digits. -/
def isDigits (text : List Char) : Bool :=
  !text.isEmpty && text.all Char.isDigit

/-- Whether a text is an optional minus sign and one or more ASCII digits. -/
def isPlain (text : String) : Bool :=
  match text.toList with
  | '-' :: rest => isDigits rest
  | rest => isDigits rest

/-- The text with its leading minus sign removed, or with one put in front. -/
def negate (text : String) : String :=
  match text.toList with
  | '-' :: rest => String.ofList rest
  | rest => String.ofList ('-' :: rest)

end DesignByNumbers.Numeral
