import DesignByNumbers.Canvas
import DesignByNumbers.Picture.Segment

/-!
# Picture — traces as grids of cells

A picture has a cell for every pair of user coordinates on the canvas, row zero on top. A
cell holds the colour painted on it last, or none, in which case it shows the paper, whose
colour counts at the end only. What is painted outside the grid is lost.
-/

namespace DesignByNumbers

namespace Picture

/-- How many cells a side of the grid has: both ends of the canvas are on it. -/
def side : Nat := 101

end Picture

/-- A grid of painted and unpainted cells, row by row from the top. -/
structure Picture where
  background : String
  cells : Vector (Option String) (Picture.side * Picture.side)
deriving Repr, DecidableEq

namespace Picture

/-- The grid on which nothing is painted. -/
def blank : Picture :=
  { background := DrawOp.defaultPaper, cells := Vector.replicate _ none }

/-- The index of a cell. -/
def index (row column : Nat) : Nat := side * row + column

theorem index_lt {row column : Nat} (hr : row < side) (hc : column < side) :
    index row column < side * side := by
  have hrow : side * (row + 1) ≤ side * side := Nat.mul_le_mul_left side hr
  have hsplit : side * (row + 1) = side * row + side := Nat.mul_succ side row
  unfold index
  omega

/-- Whether a coordinate lies on the grid. -/
def isOnGrid (coordinate : Int) : Prop := 0 ≤ coordinate ∧ coordinate ≤ Canvas.extent

instance (coordinate : Int) : Decidable (isOnGrid coordinate) :=
  inferInstanceAs (Decidable (_ ∧ _))

theorem toNat_lt_side {coordinate : Int} (h : isOnGrid coordinate) :
    coordinate.toNat < side := by
  obtain ⟨hlow, hhigh⟩ := h
  unfold Canvas.extent at hhigh
  unfold side
  omega

/-- The picture with a cell painted, or the same one if the cell is not on the grid. -/
def paint (picture : Picture) (column row : Int) (colour : String) : Picture :=
  if h : isOnGrid column ∧ isOnGrid row then
    { picture with
      cells := picture.cells.set (index row.toNat column.toNat) (some colour)
        (index_lt (toNat_lt_side h.2) (toNat_lt_side h.1)) }
  else picture

/-- The picture with another colour of the paper. -/
def withBackground (picture : Picture) (colour : String) : Picture :=
  { picture with background := colour }

/-- The picture with all cells of a line painted. -/
def paintSegment (picture : Picture) (segment : Segment) (colour : String) : Picture :=
  segment.cells.foldl (fun picture (column, row) => picture.paint column row colour) picture

/-- Adds an operation to a picture. Colours are kept as texts and not converted. -/
def addOp : Canvas.Step Picture
  | _, .foreground _, picture => some picture
  | _, .background colour, picture => some (picture.withBackground colour)
  | pen, .line x0 y0 x1 y1, picture => do
    let left ← Canvas.column? x0
    let top ← Canvas.row? y0
    let right ← Canvas.column? x1
    let bottom ← Canvas.row? y1
    return picture.paintSegment { x0 := left, y0 := top, x1 := right, y1 := bottom } pen
  | _, .point x y colour, picture => do
    let column ← Canvas.column? x
    let row ← Canvas.row? y
    return picture.paint column row colour

/-- The picture of a trace. -/
def ofTrace (trace : List DrawOp) : Except Diagnostic Picture :=
  Canvas.draw addOp blank trace

/-! ## Cells -/

/-- The colour that a cell shows. -/
def shown (picture : Picture) (cell : Option String) : String :=
  cell.getD picture.background

/-- The colours that all cells show. -/
def resolved (picture : Picture) : Vector String (side * side) :=
  picture.cells.map picture.shown

/-- The values of a function at the colours that all cells show. The colour of the paper is
looked at once. -/
def mapResolved {α : Type} (picture : Picture) (f : String → α) : Vector α (side * side) :=
  let paper := f picture.background
  picture.cells.map fun cell => (cell.map f).getD paper

theorem mapResolved_eq {α : Type} (picture : Picture) (f : String → α) :
    picture.mapResolved f = picture.resolved.map f := by
  simp only [mapResolved, resolved, Vector.map_map]
  congr 1
  funext cell
  cases cell <;> rfl

/-- The painted cells in reading order, as rows, columns and colours. -/
def painted (picture : Picture) : List (Nat × Nat × String) :=
  picture.cells.toList.zipIdx.filterMap fun (cell, position) =>
    cell.map fun colour => (position / side, position % side, colour)

/-- The painted cells that an earlier picture does not have in the same colour. -/
def paintedSince (picture earlier : Picture) : List (Nat × Nat × String) :=
  (picture.cells.toList.zip earlier.cells.toList).zipIdx.filterMap
    fun ((new, old), position) =>
      if new = old then none
      else new.map fun colour => (position / side, position % side, colour)

/-- The pictures after the first operation of a trace, after the first two, and so on. The
diagnostic of an operation that is refused comes last. -/
def growing : String → Picture → List DrawOp → List (Except Diagnostic Picture)
  | _, _, [] => []
  | pen, picture, op :: rest =>
    match Canvas.walk addOp pen picture [op] with
    | .error diagnostic => [.error diagnostic]
    | .ok picture => .ok picture :: growing (op.penAfter pen) picture rest

/-- The pictures of all non-empty beginnings of a trace. -/
def stages (trace : List DrawOp) : List (Except Diagnostic Picture) :=
  growing DrawOp.defaultPen blank trace

end Picture

end DesignByNumbers
