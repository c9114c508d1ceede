import DesignByNumbers.Proofs.Markup.Shape
import DesignByNumbers.Proofs.Numeral
import DesignByNumbers.Proofs.Reader

/-!
# Proofs.Markup — which drawings have a text

The text of a tree of markup is missing when an integer in it has more digits than the limit.
The coordinates of a drawing are read from texts within the limit, but rows are counted from
the top, so that a height far below the canvas can gain a digit.

* `Element.print?_eq_none_iff` — where a tree has no text.
* `print?_ofTrace_eq_none_iff` — the traces whose drawing has no text.
-/

namespace DesignByNumbers

namespace Markup

theorem printAttributes?_eq_none_iff {attributes : NameMap Value} :
    printAttributes? attributes = none ↔
      ∃ entry ∈ attributes.toList, entry.2.print? = none := by
  rw [printAttributes?, Option.map_eq_none_iff]
  induction attributes.toList with
  | nil => simp
  | cons entry rest ih =>
    simp only [List.mapM_cons, List.mem_cons, exists_eq_or_imp, ← ih]
    cases hEntry : entry.2.print? with
    | none => simp [printAttribute?, hEntry]
    | some content =>
      cases rest.mapM printAttribute? <;> simp [printAttribute?, hEntry]

end Markup

namespace Element

theorem printAll?_eq_none_iff {elements : List Element} :
    printAll? elements = none ↔ ∃ element ∈ elements, element.print? = none := by
  induction elements with
  | nil => simp [printAll?]
  | cons element rest ih =>
    simp only [printAll?, List.mem_cons, exists_eq_or_imp, ← ih]
    cases element.print? <;> cases printAll? rest <;> simp

/-- A tree has no text where an integer in it has none. -/
theorem print?_eq_none_iff {tag : String} {attributes : NameMap Markup.Value}
    {children : List Element} :
    (Element.node tag attributes children).print? = none ↔
      (∃ entry ∈ attributes.toList, entry.2.print? = none) ∨
        ∃ child ∈ children, child.print? = none := by
  rw [print?, ← Markup.printAttributes?_eq_none_iff, ← printAll?_eq_none_iff]
  cases Markup.printAttributes? attributes <;> cases printAll? children <;> simp

end Element

/-- The texts of the heights in an operation. -/
def DrawOp.heights : DrawOp → List String
  | .line _ y0 _ y1 => [y0, y1]
  | .point _ y _ => [y]
  | _ => []

/-- A height of an operation is so far below the canvas that its row has more digits than the
limit. -/
def DrawOp.IsTooLow (op : DrawOp) : Prop :=
  ∃ y ∈ op.heights, ∃ value, Numeral.parse? y = some value ∧
    value ≤ Canvas.extent - 10 ^ Numeral.digitLimit

namespace Markup

/-! ## Shapes -/

theorem print?_of_parse? {text : String} {value : Int} (h : Numeral.parse? text = some value) :
    Numeral.print? value = some (Numeral.decimal value) :=
  Numeral.print?_eq_some_iff.mpr ⟨Numeral.natAbs_lt_of_parse? h, rfl⟩

/-- A row has no text where its height is that far below the canvas. -/
theorem print?_row_eq_none_iff {text : String} {value : Int} (h : Numeral.parse? text = some value) :
    Numeral.print? (Canvas.extent - value) = none ↔
      value ≤ Canvas.extent - 10 ^ Numeral.digitLimit := by
  have hBound := Numeral.natAbs_lt_of_parse? h
  have hSmall : (100 : Nat) ≤ 10 ^ Numeral.digitLimit :=
    Nat.le_trans (by decide) (Nat.pow_le_pow_right (by decide) (show 2 ≤ Numeral.digitLimit by decide))
  rw [Option.eq_none_iff_forall_not_mem, ← Numeral.natCast_ten_pow_digitLimit, Canvas.extent]
  simp only [Option.mem_def, Numeral.print?_eq_some_iff, not_and]
  -- the value is within the limit, so that its row can only leave it at the bottom
  generalize 10 ^ Numeral.digitLimit = bound at hBound hSmall ⊢
  constructor
  · intro hNone
    have hLarge : ¬ (100 - value).natAbs < bound := fun hLess => hNone _ hLess rfl
    omega
  · intro hLow text hLess
    omega

variable {shapes shapes' : Array Element}

/-- Some shape has no text. -/
def LacksText (shapes : Array Element) : Prop :=
  ∃ shape ∈ shapes, shape.print? = none

theorem lacksText_push {shape : Element} :
    LacksText (shapes.push shape) ↔ LacksText shapes ∨ shape.print? = none := by
  simp [LacksText, or_and_right, exists_or]

theorem print?_paper_ne_none (fill : String) : (paper fill).print? ≠ none := by
  have hEntries : (NameMap.ofList [("x", .integer 0), ("y", .integer 0),
      ("width", .integer Canvas.extent), ("height", .integer Canvas.extent),
      ("fill", .text fill)]).toList = [("x", Value.integer 0), ("y", .integer 0),
        ("width", .integer Canvas.extent), ("height", .integer Canvas.extent),
        ("fill", .text fill)] := rfl
  have hZero : Numeral.print? 0 ≠ none := by decide +kernel
  have hExtent : Numeral.print? Canvas.extent ≠ none := by decide +kernel
  rw [paper, Ne, Element.print?_eq_none_iff, hEntries]
  simp [Value.print?, hZero, hExtent]

theorem print?_stroke_eq_none_iff {x1 y1 x2 y2 : Int} {colour : String} :
    (stroke x1 y1 x2 y2 colour).print? = none ↔
      ∃ value ∈ [x1, y1, x2, y2], Numeral.print? value = none := by
  have hEntries : (NameMap.ofList [("x1", .integer x1), ("y1", .integer y1), ("x2", .integer x2),
      ("y2", .integer y2), ("stroke", .text colour), ("stroke-linecap", .text "round")]).toList =
      [("x1", Value.integer x1), ("y1", .integer y1), ("x2", .integer x2), ("y2", .integer y2),
        ("stroke", .text colour), ("stroke-linecap", .text "round")] := rfl
  rw [stroke, Element.print?_eq_none_iff, hEntries]
  simp [Value.print?]

theorem print?_dot_eq_none_iff {x y : Int} {fill : String} :
    (dot x y fill).print? = none ↔ ∃ value ∈ [x, y], Numeral.print? value = none := by
  have hEntries : (NameMap.ofList [("x", .integer x), ("y", .integer y), ("width", .integer 1),
      ("height", .integer 1), ("fill", .text fill)]).toList =
      [("x", Value.integer x), ("y", .integer y), ("width", .integer 1), ("height", .integer 1),
        ("fill", .text fill)] := rfl
  have hOne : Numeral.print? 1 ≠ none := by decide +kernel
  rw [dot, Element.print?_eq_none_iff, hEntries]
  simp [Value.print?, hOne]

/-! ## Drawings -/

/-- An operation that is added brings a shape without a text exactly when it is too low. -/
theorem lacksText_addShape {pen : String} {op : DrawOp} (h : addShape pen op shapes = some shapes') :
    LacksText shapes' ↔ LacksText shapes ∨ op.IsTooLow := by
  cases adds_of_addShape h with
  | nothing colour => simp [DrawOp.IsTooLow, DrawOp.heights]
  | paper =>
    rw [lacksText_push]
    simp [print?_paper_ne_none, DrawOp.IsTooLow, DrawOp.heights]
  | stroke hLeft hBottom hRight hTop =>
    rw [lacksText_push, print?_stroke_eq_none_iff]
    simp [DrawOp.IsTooLow, DrawOp.heights, print?_of_parse? hLeft, print?_of_parse? hRight,
      print?_row_eq_none_iff hBottom, print?_row_eq_none_iff hTop, hBottom, hTop]
  | dot hLeft hHeight =>
    rw [lacksText_push, print?_dot_eq_none_iff]
    simp [DrawOp.IsTooLow, DrawOp.heights, print?_of_parse? hLeft, print?_row_eq_none_iff hHeight,
      hHeight]

theorem lacksText_walk {pen : String} {trace : List DrawOp}
    (h : Canvas.walk addShape pen shapes trace = .ok shapes') :
    LacksText shapes' ↔ LacksText shapes ∨ ∃ op ∈ trace, op.IsTooLow := by
  induction trace generalizing pen shapes with
  | nil =>
    cases h
    simp
  | cons op rest ih =>
    rw [Canvas.walk] at h
    split at h
    next => cases h
    next between hAdd =>
      simp only [ih h, lacksText_addShape hAdd, List.mem_cons, exists_eq_or_imp, or_assoc]

/-- The drawing of a trace has no text exactly when an operation of the trace is too low. -/
theorem print?_ofTrace_eq_none_iff {trace : List DrawOp} {element : Element}
    (h : ofTrace .default trace = .ok element) :
    element.print? = none ↔ ∃ op ∈ trace, op.IsTooLow := by
  obtain ⟨shapes, hDraw, hElement⟩ := Except.bind_eq_ok_iff.mp h
  cases hElement
  have hWalk : LacksText shapes ↔ LacksText #[] ∨ ∃ op ∈ trace, op.IsTooLow := lacksText_walk hDraw
  have hEntries : Size.default.attributes.toList = [("width", .integer Canvas.extent),
      ("height", .integer Canvas.extent), ("viewBox", .text "0 0 100 100"),
      ("xmlns", .text "http://www.w3.org/2000/svg"), ("version", .text "1.1")] := rfl
  have hExtent : Numeral.print? Canvas.extent ≠ none := by decide +kernel
  have hEmpty : ¬ LacksText #[] := by simp [LacksText]
  rw [Element.print?_eq_none_iff, hEntries]
  simp only [hEmpty, false_or] at hWalk
  rw [← hWalk]
  simp [Value.print?, hExtent, LacksText]

end Markup

end DesignByNumbers
