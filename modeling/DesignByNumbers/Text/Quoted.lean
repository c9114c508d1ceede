import DesignByNumbers.Text.Printable

/-!
# Text.Quoted — text between quotes

The quoted form shows a text on one line of printable characters. The quote is a single
one, unless the text holds a single quote and no double one. The backslash, the quote
and the three common controls are written with a backslash and a letter, every other
unprintable character by its code point in the shortest of three widths.
-/

namespace DesignByNumbers.Text

/-- A number in lower-case hexadecimal, filled with zeros on the left up to a width. -/
def hexadecimal (width n : Nat) : List Char :=
  let digits := Nat.toDigits 16 n
  List.replicate (width - digits.length) '0' ++ digits

/-- A code point in the shortest of the three numeric escapes. -/
def codePointEscape (n : Nat) : List Char :=
  if n ≤ 0xFF then '\\' :: 'x' :: hexadecimal 2 n
  else if n ≤ 0xFFFF then '\\' :: 'u' :: hexadecimal 4 n
  else '\\' :: 'U' :: hexadecimal 8 n

/-- What stands for one character between quotes of the given sort. -/
def escaped (quote c : Char) : List Char :=
  if c = quote || c = '\\' then ['\\', c]
  else if c = '\n' then ['\\', 'n']
  else if c = '\r' then ['\\', 'r']
  else if c = '\t' then ['\\', 't']
  else if isPrintable c then [c]
  else codePointEscape c.toNat

/-- The quote that needs the fewer escapes, a single one when in doubt. -/
def quoteFor (text : List Char) : Char :=
  if text.contains '\'' && !text.contains '"' then '"' else '\''

def quoted (text : String) : String :=
  let characters := text.toList
  let quote := quoteFor characters
  String.ofList (quote :: (characters.flatMap (escaped quote) ++ [quote]))

end DesignByNumbers.Text
