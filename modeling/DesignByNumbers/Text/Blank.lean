/-!
# Text.Blank — the characters that separate words

A blank has the bidirectional class of white space or of a separator, or the general
category of a space: twenty-nine code points in all. `Char.isWhitespace` knows four of them.
-/

namespace DesignByNumbers.Text

/-- Whether a character only separates what stands beside it. -/
def isBlank (c : Char) : Bool :=
  let n := c.toNat
  (0x09 ≤ n && n ≤ 0x0D) || (0x1C ≤ n && n ≤ 0x20) || n == 0x85 || n == 0xA0 ||
    n == 0x1680 || (0x2000 ≤ n && n ≤ 0x200A) || n == 0x2028 || n == 0x2029 || n == 0x202F || n == 0x205F ||
    n == 0x3000

/-- The four information separators, blanks that no numeral tolerates at its ends. -/
def isInformationSeparator (c : Char) : Bool :=
  0x1C ≤ c.toNat && c.toNat ≤ 0x1F

/-- The blanks of ASCII that are no separators of information. -/
def isAsciiBlank (c : Char) : Bool :=
  c = ' ' || (0x09 ≤ c.toNat && c.toNat ≤ 0x0D)

end DesignByNumbers.Text
