import DesignByNumbers.Diagnostic

/-!
# Canvas — user coordinates and the walk over a trace

A program draws on a canvas with its origin at the bottom left; columns of an output are
counted like user coordinates, rows from the top. Every output walks a trace in paint
order with the pen colour chosen last, and refuses an operation whose numbers it cannot
read.
-/

namespace DesignByNumbers.Canvas

/-- The extent of the canvas in user units, on both axes. -/
def extent : Int := 100

def column? (x : String) : Option Int := Numeral.parse? x

def row? (y : String) : Option Int := (Numeral.parse? y).map (extent - ·)

/-- A way to add an operation to an output, given the pen colour. There is no result where
a number of the operation cannot be read. -/
abbrev Step (α : Type) := String → DrawOp → α → Option α

/-- Adds operations to an output in paint order, starting with a pen colour. -/
def walk {α : Type} (step : Step α) : String → α → List DrawOp → Except Diagnostic α
  | _, output, [] => .ok output
  | pen, output, op :: rest =>
    match step pen op output with
    | none => .error (.unlocated (.unreadableNumber op))
    | some output => walk step (op.penAfter pen) output rest

/-- Adds a trace to an output, starting with the default pen. -/
def draw {α : Type} (step : Step α) (blank : α) (trace : List DrawOp) : Except Diagnostic α :=
  walk step DrawOp.defaultPen blank trace

end DesignByNumbers.Canvas
