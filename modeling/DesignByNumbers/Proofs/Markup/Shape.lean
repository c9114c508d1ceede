import DesignByNumbers.Markup.Drawing

/-!
# Proofs.Markup.Shape — what an operation adds to a drawing

An operation adds one shape to a drawing, with all of its numbers converted, or it chooses a pen and
adds none. Heights are counted from the bottom in operations, and from the top in shapes.

* `adds_of_addShape` — the shape of an operation that is drawn.
-/

namespace DesignByNumbers.Markup

/-- Shapes with that of an operation behind them. -/
inductive Adds (pen : String) (shapes : Array Element) : DrawOp → Array Element → Prop
  | nothing (colour : String) : Adds pen shapes (.foreground colour) shapes
  | paper {colour fill : String} (hFill : rgb? colour = some fill) :
    Adds pen shapes (.background colour) (shapes.push (paper fill))
  | stroke {x0 y0 x1 y1 fill : String} {left bottom right top : Int}
      (hLeft : Numeral.parse? x0 = some left) (hBottom : Numeral.parse? y0 = some bottom)
      (hRight : Numeral.parse? x1 = some right) (hTop : Numeral.parse? y1 = some top)
      (hFill : rgb? pen = some fill) :
    Adds pen shapes (.line x0 y0 x1 y1)
      (shapes.push (stroke left (Canvas.extent - bottom) right (Canvas.extent - top) fill))
  | dot {x y colour fill : String} {left height : Int} (hLeft : Numeral.parse? x = some left)
      (hHeight : Numeral.parse? y = some height) (hFill : rgb? colour = some fill) :
    Adds pen shapes (.point x y colour) (shapes.push (dot left (Canvas.extent - height) fill))

/-- Whatever is drawn of an operation is its shape, behind the shapes before it. -/
theorem adds_of_addShape {pen : String} {op : DrawOp} {shapes shapes' : Array Element}
    (h : addShape pen op shapes = some shapes') : Adds pen shapes op shapes' := by
  cases op with
  | foreground colour =>
    cases h
    exact .nothing colour
  | background colour =>
    obtain ⟨fill, hFill, h⟩ := Option.bind_eq_some_iff.mp h
    cases h
    exact .paper hFill
  | line x0 y0 x1 y1 =>
    obtain ⟨left, hLeft, h⟩ := Option.bind_eq_some_iff.mp h
    obtain ⟨firstRow, hFirst, h⟩ := Option.bind_eq_some_iff.mp h
    obtain ⟨right, hRight, h⟩ := Option.bind_eq_some_iff.mp h
    obtain ⟨lastRow, hLast, h⟩ := Option.bind_eq_some_iff.mp h
    obtain ⟨fill, hFill, h⟩ := Option.bind_eq_some_iff.mp h
    cases h
    obtain ⟨bottom, hBottom, rfl⟩ := Option.map_eq_some_iff.mp hFirst
    obtain ⟨top, hTop, rfl⟩ := Option.map_eq_some_iff.mp hLast
    exact .stroke hLeft hBottom hRight hTop hFill
  | point x y colour =>
    obtain ⟨left, hLeft, h⟩ := Option.bind_eq_some_iff.mp h
    obtain ⟨row, hRow, h⟩ := Option.bind_eq_some_iff.mp h
    obtain ⟨fill, hFill, h⟩ := Option.bind_eq_some_iff.mp h
    cases h
    obtain ⟨height, hHeight, rfl⟩ := Option.map_eq_some_iff.mp hRow
    exact .dot hLeft hHeight hFill

end DesignByNumbers.Markup
