import DesignByNumbers.Backend
import DesignByNumbers.Proofs.Markup.Readable
import DesignByNumbers.Proofs.Markup.Shape
import DesignByNumbers.Proofs.Reader
import DesignByNumbers.Proofs.Trace

/-!
# Proofs.Markup.NormalForm — what the text of a drawing says

The text of a vector graphic says which shapes there are, where they lie and which grey they have.
It does not say how the numbers of the trace were spelled, nor which pens were chosen without a line
behind them. What is left of a trace without these is its normal form: the text can be told from it,
and it from the text.

* `normalForm?` — a trace as a list of marks.
* `attributesOf_injective`, `shape_injective` — a mark can be told from its shape.
* `ofTrace_eq_ok` — the graphic of a trace is that of its normal form.
* `draw_vector_eq_iff` — traces with the same text.
-/

namespace DesignByNumbers

/-- What is seen of an operation, with all numbers converted: the paper, a line with its pen, or a
dot. -/
inductive Mark
  | paper (colour : Int)
  | line (x0 y0 x1 y1 pen : Int)
  | dot (x y colour : Int)
deriving Repr, DecidableEq

namespace DrawOp

/-- The mark of an operation with a pen. The choice of a pen leaves none. -/
def mark? (pen : String) : DrawOp → Option Mark
  | .background colour => do
    let colour ← Numeral.parse? colour
    return .paper colour
  | .foreground _ => none
  | .line x0 y0 x1 y1 => do
    let x0 ← Numeral.parse? x0
    let y0 ← Numeral.parse? y0
    let x1 ← Numeral.parse? x1
    let y1 ← Numeral.parse? y1
    let pen ← Numeral.parse? pen
    return .line x0 y0 x1 y1 pen
  | .point x y colour => do
    let x ← Numeral.parse? x
    let y ← Numeral.parse? y
    let colour ← Numeral.parse? colour
    return .dot x y colour

/-- The marks of a trace behind the choice of a pen: one for each operation, except that the choices
of further pens are dropped. -/
def marks? (pen : String) : List DrawOp → Option (List Mark)
  | [] => some []
  | .foreground colour :: rest => marks? colour rest
  | op :: rest => do
    let mark ← op.mark? pen
    let marks ← marks? pen rest
    return mark :: marks

/-- An operation with a mark comes first, with the pen that was chosen before it. -/
theorem marks?_cons {pen : String} {op : DrawOp} {rest : List DrawOp} {mark : Mark}
    {marks : List Mark} (hMark : op.mark? pen = some mark)
    (hRest : marks? (op.penAfter pen) rest = some marks) :
    marks? pen (op :: rest) = some (mark :: marks) := by
  cases op with
  | foreground colour => cases hMark
  | _ =>
    have hOthers : marks? pen rest = some marks := hRest
    simp [marks?, hMark, hOthers]

/-- The normal form of a trace. Lines in front of the first choice of a pen have the default one. -/
def normalForm? (trace : List DrawOp) : Option (List Mark) :=
  marks? defaultPen trace

end DrawOp

namespace Markup

/-! ## Marks as shapes -/

/-- The grey of a colour number of any size. -/
def grey (colour : Int) : String :=
  let level := Numeral.decimal (Canvas.extent - colour)
  "rgb(" ++ level ++ "%," ++ level ++ "%," ++ level ++ "%)"

/-- The shape of a mark. -/
def shape : Mark → Element
  | .paper colour => paper (grey colour)
  | .line x0 y0 x1 y1 pen => stroke x0 (Canvas.extent - y0) x1 (Canvas.extent - y1) (grey pen)
  | .dot x y colour => dot x (Canvas.extent - y) (grey colour)

theorem exists_of_rgb? {colour fill : String} (h : rgb? colour = some fill) :
    ∃ value, Numeral.parse? colour = some value ∧ fill = grey value := by
  obtain ⟨value, hValue, h⟩ := Option.bind_eq_some_iff.mp h
  obtain ⟨level, hLevel, hFill⟩ := Option.bind_eq_some_iff.mp h
  obtain ⟨-, rfl⟩ := Numeral.print?_eq_some_iff.mp hLevel
  cases hFill
  exact ⟨value, hValue, rfl⟩

/-- An operation that is added to a drawing adds the shape of its mark, or it chooses a pen. -/
theorem eq_foreground_or_exists_mark {pen : String} {op : DrawOp} {shapes shapes' : Array Element}
    (h : addShape pen op shapes = some shapes') :
    (∃ colour, op = .foreground colour ∧ shapes' = shapes) ∨
      ∃ mark, op.mark? pen = some mark ∧ shapes' = shapes.push (shape mark) := by
  cases adds_of_addShape h with
  | nothing colour => exact .inl ⟨colour, rfl, rfl⟩
  | paper hFill =>
    obtain ⟨value, hValue, rfl⟩ := exists_of_rgb? hFill
    exact .inr ⟨.paper value, by simp [DrawOp.mark?, hValue], rfl⟩
  | @stroke x0 y0 x1 y1 fill left bottom right top hLeft hBottom hRight hTop hFill =>
    obtain ⟨value, hValue, rfl⟩ := exists_of_rgb? hFill
    refine .inr ⟨.line left bottom right top value, ?_, rfl⟩
    simp [DrawOp.mark?, hLeft, hBottom, hRight, hTop, hValue]
  | @dot x y colour fill left height hLeft hHeight hFill =>
    obtain ⟨value, hValue, rfl⟩ := exists_of_rgb? hFill
    refine .inr ⟨.dot left height value, ?_, rfl⟩
    simp [DrawOp.mark?, hLeft, hHeight, hValue]

/-- A walk adds the shapes of all marks in their order. -/
theorem exists_marks_of_walk {pen : String} {trace : List DrawOp} {shapes shapes' : Array Element}
    (h : Canvas.walk addShape pen shapes trace = .ok shapes') :
    ∃ marks, DrawOp.marks? pen trace = some marks ∧
      shapes'.toList = shapes.toList ++ marks.map shape := by
  induction trace generalizing pen shapes with
  | nil =>
    cases h
    exact ⟨[], rfl, (List.append_nil _).symm⟩
  | cons op rest ih =>
    obtain ⟨between, hStep, hRest⟩ := Canvas.walk_cons.mp h
    obtain ⟨marks, hMarks, hShapes⟩ := ih hRest
    rcases eq_foreground_or_exists_mark hStep with ⟨colour, rfl, rfl⟩ | ⟨mark, hMark, rfl⟩
    · exact ⟨marks, hMarks, hShapes⟩
    · refine ⟨mark :: marks, DrawOp.marks?_cons hMark hMarks, ?_⟩
      rw [hShapes, Array.toList_push, List.append_assoc, List.map_cons, List.singleton_append]

/-- The graphic of a trace is that of its normal form. -/
theorem ofTrace_eq_ok {size : Size} {trace : List DrawOp} {element : Element}
    (h : ofTrace size trace = .ok element) :
    ∃ marks, DrawOp.normalForm? trace = some marks ∧
      element = .node "svg" size.attributes (marks.map shape) := by
  obtain ⟨shapes, hDraw, hElement⟩ := Except.bind_eq_ok_iff.mp h
  cases hElement
  obtain ⟨marks, hMarks, hShapes⟩ := exists_marks_of_walk hDraw
  exact ⟨marks, hMarks, by rw [hShapes]; rfl⟩

/-! ## Shapes as texts -/

theorem not_mem_decimal {value : Int} {c : Char} (hMinus : c ≠ '-') (hDigit : c.isDigit = false) :
    c ∉ (Numeral.decimal value).toList := by
  intro hMem
  rcases Numeral.eq_minus_or_isDigit_of_mem_decimal hMem with h | h
  · exact hMinus h
  · rw [hDigit] at h
    cases h

theorem not_mem_grey (colour : Int) : '"' ∉ (grey colour).toList := by
  have hLevel : '"' ∉ (Numeral.decimal (Canvas.extent - colour)).toList :=
    not_mem_decimal (by decide) (by decide)
  simp [grey, hLevel]

/-- Each colour number has a grey of its own, also outside of the range that can be seen. -/
theorem grey_injective {colour colour' : Int} (h : grey colour = grey colour') : colour = colour' := by
  have hPercent : ∀ {value : Int}, ∀ c ∈ (Numeral.decimal value).toList, c ∉ ['%'] := by
    intro value c hc hMem
    obtain rfl := List.mem_singleton.mp hMem
    exact not_mem_decimal (by decide) (by decide) hc
  have hChars := congrArg String.toList h
  simp only [grey, String.toList_append, List.append_assoc] at hChars
  -- the first level ends at the percent sign behind it
  obtain ⟨hLevel, -⟩ := parts_injective hPercent hPercent (List.mem_singleton_self '%')
    (List.mem_singleton_self '%') (List.append_cancel_left hChars)
  have hExtent := Numeral.decimal_injective (String.toList_inj.mp hLevel)
  omega

/-- What is written of the shape of a mark. -/
def attributesOf : Mark → List (String × String)
  | .paper colour => [("x", "0"), ("y", "0"), ("width", "100"), ("height", "100"),
      ("fill", grey colour)]
  | .line x0 y0 x1 y1 pen => [("x1", Numeral.decimal x0),
      ("y1", Numeral.decimal (Canvas.extent - y0)), ("x2", Numeral.decimal x1),
      ("y2", Numeral.decimal (Canvas.extent - y1)), ("stroke", grey pen),
      ("stroke-linecap", "round")]
  | .dot x y colour => [("x", Numeral.decimal x), ("y", Numeral.decimal (Canvas.extent - y)),
      ("width", "1"), ("height", "1"), ("fill", grey colour)]

theorem written_shape (mark : Mark) : written (shape mark).attributes = attributesOf mark := by
  cases mark <;> rfl

/-- All names that a shape may have its attributes under. -/
def shapeNames : List String :=
  ["x", "y", "width", "height", "fill", "x1", "y1", "x2", "y2", "stroke", "stroke-linecap"]

theorem isAttribute_attributesOf (mark : Mark) :
    ∀ entry ∈ attributesOf mark, IsAttribute entry := by
  have hNames : ∀ name ∈ shapeNames, IsName name := by decide +kernel
  have hName : ∀ entry ∈ attributesOf mark, entry.1 ∈ shapeNames := by
    cases mark <;> simp [attributesOf, shapeNames]
  have hDecimal : ∀ value : Int, '"' ∉ (Numeral.decimal value).toList :=
    fun _ => not_mem_decimal (by decide) (by decide)
  have hValue : ∀ entry ∈ attributesOf mark, '"' ∉ entry.2.toList := by
    cases mark <;> simp [attributesOf, hDecimal, not_mem_grey]
  exact fun entry hEntry => ⟨hNames _ (hName entry hEntry), hValue entry hEntry⟩

theorem isReadable_shape (mark : Mark) : (shape mark).IsReadable := by
  have hAttributes := isAttribute_attributesOf mark
  rw [← written_shape] at hAttributes
  cases mark <;> exact .node (by decide +kernel) hAttributes (List.forall_mem_nil _)

/-- A mark can be told from what is written of its shape. -/
theorem attributesOf_injective {mark mark' : Mark} (h : attributesOf mark = attributesOf mark') :
    mark = mark' := by
  have hRow : ∀ {y y' : Int}, Numeral.decimal (Canvas.extent - y) =
      Numeral.decimal (Canvas.extent - y') → y = y' := by
    intro y y' hText
    have hExtent := Numeral.decimal_injective hText
    omega
  cases mark with
  | paper colour =>
    cases mark' with
    | paper colour' =>
      simp only [attributesOf, List.cons.injEq, Prod.mk.injEq, true_and, and_true] at h
      rw [grey_injective h]
    -- a stroke has other attributes, a dot another size
    | line => simp [attributesOf] at h
    | dot => simp [attributesOf] at h
  | line x0 y0 x1 y1 pen =>
    cases mark' with
    | line x0' y0' x1' y1' pen' =>
      simp only [attributesOf, List.cons.injEq, Prod.mk.injEq, true_and, and_true] at h
      obtain ⟨hLeft, hTop, hRight, hBottom, hPen⟩ := h
      rw [Numeral.decimal_injective hLeft, hRow hTop, Numeral.decimal_injective hRight,
        hRow hBottom, grey_injective hPen]
    | paper => simp [attributesOf] at h
    | dot => simp [attributesOf] at h
  | dot x y colour =>
    cases mark' with
    | dot x' y' colour' =>
      simp only [attributesOf, List.cons.injEq, Prod.mk.injEq, true_and, and_true] at h
      obtain ⟨hLeft, hTop, hColour⟩ := h
      rw [Numeral.decimal_injective hLeft, hRow hTop, grey_injective hColour]
    | paper => simp [attributesOf] at h
    | line => simp [attributesOf] at h

theorem shape_injective {mark mark' : Mark} (h : (shape mark).Alike (shape mark')) :
    mark = mark' := by
  have hWritten := h.written_eq
  rw [written_shape, written_shape] at hWritten
  exact attributesOf_injective hWritten

/-- Marks can be told from their shapes, in their order. -/
theorem shapes_injective {marks marks' : List Mark}
    (h : List.Forall₂ Element.Alike (marks.map shape) (marks'.map shape)) : marks = marks' := by
  rw [List.forall₂_map_left_iff, List.forall₂_map_right_iff] at h
  exact List.forall₂_eq_eq_eq ▸ h.imp fun _ _ => shape_injective

/-- The texts of two graphics of one size are the same only if their marks are. The size may hold
any characters, since both texts start with it. -/
theorem marks_eq_of_print? {size : Size} {marks marks' : List Mark} {text : String}
    (h : (Element.node "svg" size.attributes (marks.map shape)).print? = some text)
    (h' : (Element.node "svg" size.attributes (marks'.map shape)).print? = some text) :
    marks = marks' := by
  have hReadable : ∀ marks : List Mark, ∀ element ∈ marks.map shape, element.IsReadable := by
    intro marks element hMem
    obtain ⟨mark, -, rfl⟩ := List.mem_map.mp hMem
    exact isReadable_shape mark
  have hChars := (Element.toList_of_print? h).symm.trans (Element.toList_of_print? h')
  simp only [Element.chars, List.cons.injEq, true_and, List.append_cancel_left_eq] at hChars
  exact shapes_injective (Element.allAlike_of_chars (hReadable marks) (hReadable marks') hChars).1

end Markup

namespace Backend

/-- A text that a vector graphic is drawn with is that of the normal form. -/
theorem exists_of_draw_vector {size : Markup.Size} {trace : List DrawOp} {text : String}
    (h : draw (.vector size) trace = .ok text) :
    ∃ marks, DrawOp.normalForm? trace = some marks ∧
      (Element.node "svg" size.attributes (marks.map Markup.shape)).print? = some text := by
  rw [draw] at h
  cases hTrace : Markup.ofTrace size trace with
  | error diagnostic => simp [hTrace] at h
  | ok element =>
    obtain ⟨marks, hMarks, rfl⟩ := Markup.ofTrace_eq_ok hTrace
    refine ⟨marks, hMarks, ?_⟩
    cases hText : (Element.node "svg" size.attributes (marks.map Markup.shape)).print? with
    | none => simp [hTrace, hText] at h
    | some text' => simpa [hTrace, hText] using h

/-- Two traces that are drawn as vector graphics of one size have the same text if and only if they
have the same normal form. -/
theorem draw_vector_eq_iff {size : Markup.Size} {trace trace' : List DrawOp} {text text' : String}
    (h : draw (.vector size) trace = .ok text) (h' : draw (.vector size) trace' = .ok text') :
    ∃ marks marks', DrawOp.normalForm? trace = some marks ∧
      DrawOp.normalForm? trace' = some marks' ∧ (text = text' ↔ marks = marks') := by
  obtain ⟨marks, hMarks, hText⟩ := exists_of_draw_vector h
  obtain ⟨marks', hMarks', hText'⟩ := exists_of_draw_vector h'
  refine ⟨marks, marks', hMarks, hMarks', ?_, ?_⟩
  · rintro rfl
    exact Markup.marks_eq_of_print? hText hText'
  · rintro rfl
    exact Option.some.inj (hText.symm.trans hText')

/-- A pen that is not a number and has no line behind it leaves nothing in the text, and neither
does the spelling of a colour. -/
theorem draw_vector_eq_iff_deadPen :
    ∃ text, draw (.vector .default) [.foreground "red", .background "07"] = .ok text ∧
      draw (.vector .default) [.background "+7"] = .ok text ∧
      DrawOp.normalForm? [.foreground "red", .background "07"] =
        DrawOp.normalForm? [.background "+7"] := by
  let text := "<svg width=\"100\" height=\"100\" viewBox=\"0 0 100 100\" " ++
    "xmlns=\"http://www.w3.org/2000/svg\" version=\"1.1\"><rect x=\"0\" y=\"0\" " ++
    "width=\"100\" height=\"100\" fill=\"rgb(93%,93%,93%)\"></rect></svg>"
  have h : draw (.vector .default) [.foreground "red", .background "07"] = .ok text := by
    decide +kernel
  have h' : draw (.vector .default) [.background "+7"] = .ok text := by
    decide +kernel
  obtain ⟨marks, marks', hMarks, hMarks', hIff⟩ := draw_vector_eq_iff h h'
  exact ⟨text, h, h', by rw [hMarks, hMarks', hIff.mp rfl]⟩

end Backend

end DesignByNumbers
