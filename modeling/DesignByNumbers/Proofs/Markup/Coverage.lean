import DesignByNumbers.Proofs.Markup.Shape
import DesignByNumbers.Proofs.Picture

/-!
# Proofs.Markup.Coverage — the cells that shapes cover

A shape is looked at through its attributes alone: where it lies, what it covers, which colour
it has. What an operation adds to a drawing covers the cells that the operation covers.

* `covers_paper`, `covers_dot`, `covers_stroke` — the three kinds of shape.
* `depicts_addShape` — the shape of an operation, cell by cell.
* `walk_addShape` — a drawing only grows, whatever was drawn before.
-/

namespace DesignByNumbers

namespace Element

/-! ## Shapes -/

/-- The integer that an attribute holds. -/
def integer? (element : Element) (name : String) : Option Int :=
  match element.attributes.get? name with
  | some (.integer value) => some value
  | _ => none

/-- The text that an attribute holds. -/
def text? (element : Element) (name : String) : Option String :=
  match element.attributes.get? name with
  | some (.text content) => some content
  | _ => none

/-- The colour of a shape: that of its area, or that of its stroke. -/
def colour? (element : Element) : Option String :=
  (element.text? "fill").or (element.text? "stroke")

/-- The end points of a stroke. -/
def segment? (element : Element) : Option Segment := do
  let left ← element.integer? "x1"
  let top ← element.integer? "y1"
  let right ← element.integer? "x2"
  let bottom ← element.integer? "y2"
  return { x0 := left, y0 := top, x1 := right, y1 := bottom }

/-- A rectangle has a width and a height. -/
def IsRectangle (element : Element) (width height : Int) : Prop :=
  element.tag = "rect" ∧ element.integer? "width" = some width ∧
    element.integer? "height" = some height

/-- A cell, which need not be on the grid, lies on a shape: on a rectangle of the size of the
canvas, at the corner of a rectangle of side one, or on the way between the ends of a stroke. -/
def Covers (element : Element) (column row : Int) : Prop :=
  element.IsRectangle Canvas.extent Canvas.extent ∨
    (element.IsRectangle 1 1 ∧ element.integer? "x" = some column ∧
      element.integer? "y" = some row) ∨
    (element.tag = "line" ∧ ∃ segment, element.segment? = some segment ∧
      (column, row) ∈ segment.cells)

end Element

namespace Markup

section Shapes

variable {column row : Int}

theorem covers_paper (fill : String) : (paper fill).Covers column row :=
  .inl ⟨rfl, rfl, rfl⟩

theorem covers_dot {x y : Int} {fill : String} :
    (dot x y fill).Covers column row ↔ x = column ∧ y = row := by
  have hWidth : (dot x y fill).integer? "width" = some 1 := rfl
  have hHeight : (dot x y fill).integer? "height" = some 1 := rfl
  have hX : (dot x y fill).integer? "x" = some x := rfl
  have hY : (dot x y fill).integer? "y" = some y := rfl
  have hTag : (dot x y fill).tag = "rect" := rfl
  simp [Element.Covers, Element.IsRectangle, hWidth, hHeight, hX, hY, hTag, Canvas.extent]

theorem covers_stroke {x1 y1 x2 y2 : Int} {colour : String} :
    (stroke x1 y1 x2 y2 colour).Covers column row ↔
      (column, row) ∈ Segment.cells ⟨x1, y1, x2, y2⟩ := by
  have hSegment : (stroke x1 y1 x2 y2 colour).segment? = some ⟨x1, y1, x2, y2⟩ := rfl
  have hTag : (stroke x1 y1 x2 y2 colour).tag = "line" := rfl
  simp [Element.Covers, Element.IsRectangle, hSegment, hTag]

theorem colour?_paper (fill : String) : (paper fill).colour? = some fill := rfl

theorem colour?_dot (x y : Int) (fill : String) : (dot x y fill).colour? = some fill := rfl

theorem colour?_stroke (x1 y1 x2 y2 : Int) (colour : String) :
    (stroke x1 y1 x2 y2 colour).colour? = some colour := rfl

end Shapes

/-! ## Operations -/

/-- The shapes of an operation show it: there is none where it has no colour for cells, and else
one that covers the same cells, in the grey of that colour. -/
inductive Depicts (pen : String) (op : DrawOp) : Array Element → Prop
  | nothing (hInk : op.ink? pen = none) : Depicts pen op #[]
  | shape {shape : Element} {ink fill : String} (hInk : op.ink? pen = some ink)
      (hFill : rgb? ink = some fill) (hColour : shape.colour? = some fill)
      (hCovers : ∀ column row, shape.Covers column row ↔ op.Covers column row) :
      Depicts pen op #[shape]

variable {pen : String} {op : DrawOp} {shapes shapes' : Array Element}

/-- What an operation adds to a drawing does not depend on what was drawn before. -/
theorem addShape_eq (pen : String) (op : DrawOp) (shapes : Array Element) :
    addShape pen op shapes = (addShape pen op #[]).map (shapes ++ ·) := by
  cases op with
  | foreground colour => simp [addShape]
  | background colour =>
    simp only [addShape]
    cases rgb? colour <;> simp
  | line x0 y0 x1 y1 =>
    simp only [addShape]
    cases Canvas.column? x0 <;> cases Canvas.row? y0 <;> cases Canvas.column? x1 <;>
      cases Canvas.row? y1 <;> cases rgb? pen <;> simp
  | point x y colour =>
    simp only [addShape]
    cases Canvas.column? x <;> cases Canvas.row? y <;> cases rgb? colour <;> simp

/-- What an operation other than a choice of the paper adds to a drawing shows it. -/
theorem depicts_addShape (h : addShape pen op #[] = some shapes) (hPaper : op.paper? = none) :
    Depicts pen op shapes := by
  cases adds_of_addShape h with
  | nothing colour => exact .nothing rfl
  | paper => cases hPaper
  | @stroke x0 y0 x1 y1 fill left bottom right top hLeft hBottom hRight hTop hFill =>
    have hSegment : DrawOp.segment? x0 y0 x1 y1 =
        some ⟨left, Canvas.extent - bottom, right, Canvas.extent - top⟩ := by
      simp [DrawOp.segment?, Canvas.column?, Canvas.row?, hLeft, hBottom, hRight, hTop]
    -- both are the cells between the same ends
    refine .shape rfl hFill (colour?_stroke ..) fun column row => ?_
    simp [covers_stroke, DrawOp.Covers, hSegment]
  | dot hLeft hHeight hFill =>
    refine .shape rfl hFill (colour?_dot ..) fun column row => ?_
    simp [covers_dot, DrawOp.Covers, Canvas.column?, Canvas.row?, hLeft, hHeight]

/-! ## Traces -/

/-- A drawing only grows, whatever was drawn before. -/
theorem walk_addShape {trace : List DrawOp} (before : Array Element)
    (h : Canvas.walk addShape pen shapes trace = .ok shapes') :
    Canvas.walk addShape pen (before ++ shapes) trace = .ok (before ++ shapes') := by
  induction trace generalizing pen shapes with
  | nil =>
    cases h
    rfl
  | cons op rest ih =>
    obtain ⟨between, hStep, hRest⟩ := Canvas.walk_cons.mp h
    rw [addShape_eq] at hStep
    obtain ⟨added, hAdded, rfl⟩ := Option.map_eq_some_iff.mp hStep
    -- the first operation adds the same shapes, with the earlier ones in front
    refine Canvas.walk_cons.mpr ⟨before ++ (shapes ++ added), ?_, ih hRest⟩
    rw [addShape_eq, hAdded, Option.map_some, Array.append_assoc]

end Markup

end DesignByNumbers
