import DesignByNumbers.Canvas
import DesignByNumbers.Markup

/-!
# Markup.Drawing — traces as vector graphics

Every operation but the choice of a pen becomes one shape: the paper a rectangle over the
whole canvas, a line a stroke in the pen colour, a dot a rectangle of side one. Shapes
outside the canvas are kept.
-/

namespace DesignByNumbers.Markup

/-- The grey of a colour number, where zero is white and a hundred is black. -/
def rgb? (colour : String) : Option String := do
  let value ← Numeral.parse? colour
  let level ← Numeral.print? (Canvas.extent - value)
  return "rgb(" ++ level ++ "%," ++ level ++ "%," ++ level ++ "%)"

def paper (fill : String) : Element :=
  .node "rect" (.ofList [("x", .integer 0), ("y", .integer 0), ("width", .integer Canvas.extent),
    ("height", .integer Canvas.extent), ("fill", .text fill)]) []

def stroke (x1 y1 x2 y2 : Int) (colour : String) : Element :=
  .node "line" (.ofList [("x1", .integer x1), ("y1", .integer y1), ("x2", .integer x2),
    ("y2", .integer y2), ("stroke", .text colour), ("stroke-linecap", .text "round")]) []

def dot (x y : Int) (fill : String) : Element :=
  .node "rect" (.ofList [("x", .integer x), ("y", .integer y), ("width", .integer 1),
    ("height", .integer 1), ("fill", .text fill)]) []

/-- Adds the shape of an operation to the shapes before it. -/
def addShape : Canvas.Step (Array Element)
  | _, .foreground _, shapes => some shapes
  | _, .background colour, shapes => do
    let fill ← rgb? colour
    return shapes.push (paper fill)
  | pen, .line x0 y0 x1 y1, shapes => do
    let left ← Canvas.column? x0
    let top ← Canvas.row? y0
    let right ← Canvas.column? x1
    let bottom ← Canvas.row? y1
    let colour ← rgb? pen
    return shapes.push (stroke left top right bottom colour)
  | _, .point x y colour, shapes => do
    let left ← Canvas.column? x
    let top ← Canvas.row? y
    let fill ← rgb? colour
    return shapes.push (dot left top fill)

/-- The size of a vector graphic, as it is written. -/
structure Size where
  width : Value
  height : Value
deriving Repr, DecidableEq

/-- A graphic with as many pixels as the canvas has units. -/
def Size.default : Size :=
  { width := .integer Canvas.extent, height := .integer Canvas.extent }

/-- The attributes of a whole graphic. -/
def Size.attributes (size : Size) : NameMap Value :=
  .ofList [("width", size.width), ("height", size.height), ("viewBox", .text "0 0 100 100"),
    ("xmlns", .text "http://www.w3.org/2000/svg"), ("version", .text "1.1")]

/-- The vector graphic of a trace. -/
def ofTrace (size : Size) (trace : List DrawOp) : Except Diagnostic Element := do
  let shapes ← Canvas.draw addShape #[] trace
  return .node "svg" size.attributes shapes.toList

end DesignByNumbers.Markup
