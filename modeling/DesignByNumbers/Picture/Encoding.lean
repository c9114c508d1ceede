import DesignByNumbers.Picture

/-!
# Picture.Encoding — pictures as text

An encoding writes one text per cell and ends every row with a line feed. One of the two
shows the colours themselves, each in a column of three characters or more and with a
space behind it; the other tells dark cells from light ones.
-/

namespace DesignByNumbers.Picture

/-- The ways to write a picture as text. -/
inductive Encoding
  | test
  | binary
deriving Repr, DecidableEq, Inhabited

namespace Encoding

/-- The name of an encoding. -/
def name : Encoding → String
  | .test => "test"
  | .binary => "binary"

/-- The encoding with a name. -/
def ofName (name : String) : Except Diagnostic Encoding :=
  if name = "test" then .ok .test
  else if name = "binary" then .ok .binary
  else .error (.unlocated (.unknownEncoding name))

/-- The least width of a cell that shows its colour. -/
def cellWidth : Nat := 3

/-- A colour filled with spaces up to the width of a cell, and one more space. -/
def padded (colour : String) : String :=
  colour ++ Diagnostic.spaces (cellWidth - colour.length) ++ " "

/-- The least colour that counts as dark. -/
def darkFrom : Int := 50

/-- The mark of a dark or a light cell. -/
def mark? (colour : String) : Option String :=
  (Numeral.parse? colour).map fun value => if darkFrom ≤ value then "o" else " "

/-- The text of a cell. -/
def cell? : Encoding → String → Option String
  | .test, colour => some (padded colour)
  | .binary, colour => mark? colour

end Encoding

/-- The cells of a grid in rows. -/
def rows {α : Type} (cells : Vector α (side * side)) : List (List α) :=
  (List.range side).map fun row =>
    (cells.toArray.extract (side * row) (side * (row + 1))).toList

/-- The text of a picture, unless a cell has none. -/
def encode? (encoding : Encoding) (picture : Picture) : Option String := do
  let lines ← (rows (picture.mapResolved encoding.cell?)).mapM fun row => do
    let texts ← row.mapM id
    return String.join texts ++ "\n"
  return String.join lines

end DesignByNumbers.Picture
