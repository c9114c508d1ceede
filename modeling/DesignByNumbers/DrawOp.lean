import DesignByNumbers.Text.Quoted

/-!
# DrawOp — the drawing trace

A run of a program leaves a trace of four kinds of operation. Their fields are the texts
of the numbers as the program computed them, so that a trace keeps spellings apart that
denote one integer.
-/

namespace DesignByNumbers

inductive DrawOp
  /-- Colour the paper. -/
  | background (colour : String)
  /-- Choose the colour of the lines that follow. -/
  | foreground (colour : String)
  /-- Draw a line in the colour chosen last. -/
  | line (x0 y0 x1 y1 : String)
  /-- Draw a single dot. -/
  | point (x y colour : String)
deriving Repr, DecidableEq, Inhabited

namespace DrawOp

/-- The pen colour before an operation chooses one. -/
def defaultPen : String := "100"

/-- The paper colour before an operation chooses one. -/
def defaultPaper : String := "0"

/-- The pen colour after an operation. -/
def penAfter (pen : String) : DrawOp → String
  | .foreground colour => colour
  | _ => pen

/-- A constructor name applied to named fields. -/
def describeFields (name : String) (fields : List (String × String)) : String :=
  name ++ "(" ++
    String.intercalate ", " (fields.map fun (field, value) => field ++ "=" ++ Text.quoted value) ++
    ")"

def describe : DrawOp → String
  | .background colour => describeFields "Background" [("colour", colour)]
  | .foreground colour => describeFields "Foreground" [("colour", colour)]
  | .line x0 y0 x1 y1 =>
    describeFields "Line" [("x0", x0), ("y0", y0), ("x1", x1), ("y1", y1)]
  | .point x y colour => describeFields "Point" [("x", x), ("y", y), ("colour", colour)]

end DrawOp

end DesignByNumbers
