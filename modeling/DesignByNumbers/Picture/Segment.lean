/-!
# Picture.Segment — the cells of a line

The cells between two end points are found by a walk that accumulates an error, the
difference between the distances made good on the two axes. The walk works in every
direction with integers only.
-/

namespace DesignByNumbers

/-- The two end points of a line. -/
structure Segment where
  x0 : Int
  y0 : Int
  x1 : Int
  y1 : Int
deriving Repr, DecidableEq

namespace Segment

/-- How far apart the ends are on the horizontal axis. -/
def width (segment : Segment) : Nat := (segment.x1 - segment.x0).natAbs

/-- How far apart the ends are on the vertical axis. -/
def height (segment : Segment) : Nat := (segment.y1 - segment.y0).natAbs

/-- The horizontal direction towards the end. -/
def stepX (segment : Segment) : Int := if segment.x0 < segment.x1 then 1 else -1

/-- The vertical direction towards the end. -/
def stepY (segment : Segment) : Int := if segment.y0 < segment.y1 then 1 else -1

/-- A cell on the way along a segment, with the error accumulated so far. -/
structure Walker where
  x : Int
  y : Int
  error : Int
deriving Repr, DecidableEq

/-- The walker at the start of a segment. -/
def start (segment : Segment) : Walker :=
  { x := segment.x0, y := segment.y0, error := segment.width - segment.height }

/-- Whether a walker stands on the end of a segment. -/
def isAtEnd (segment : Segment) (walker : Walker) : Bool :=
  walker.x = segment.x1 && walker.y = segment.y1

/-- The walker one cell further. It moves on each axis on which the error tells it to. -/
def advance (segment : Segment) (walker : Walker) : Walker :=
  let twice := 2 * walker.error
  let movesX : Bool := -(segment.height : Int) < twice
  let movesY : Bool := twice < segment.width
  { x := if movesX then walker.x + segment.stepX else walker.x
    y := if movesY then walker.y + segment.stepY else walker.y
    error := walker.error - (if movesX then (segment.height : Int) else 0) +
      (if movesY then (segment.width : Int) else 0) }

/-- The cells that a walker passes before it stands on the end, after those collected. -/
def cellsFrom (segment : Segment) : Nat → Walker → Array (Int × Int) → Array (Int × Int)
  | 0, walker, cells => cells.push (walker.x, walker.y)
  | count + 1, walker, cells =>
    let cells := cells.push (walker.x, walker.y)
    if segment.isAtEnd walker then cells
    else cellsFrom segment count (segment.advance walker) cells

/-- The cells of a segment, both ends included. The walk takes as many steps as the longer
axis has units. -/
def cells (segment : Segment) : Array (Int × Int) :=
  cellsFrom segment (max segment.width segment.height) segment.start #[]

end Segment

end DesignByNumbers
