import DesignByNumbers.Proofs.Picture

/-!
# Proofs.Picture.Painting — what is painted last lies on top

A cell of the picture of a trace shows the colour of the last operation that covers it, and the
paper where no operation does. The paper is the one chosen last, wherever in the trace that was,
whereas the pen of a line is the one chosen last before it.

* `cellAt_ofTrace_of_isLast`, `cellAt_ofTrace_of_forall_not` — the two cases.
* `ofTrace_erase` — what covers no cell of the grid can be left out of a trace.
* `painters_law` — the colours of all cells, and what lies outside the grid.
-/

namespace DesignByNumbers.Picture

variable {trace : List DrawOp} {picture : Picture} {row column : Fin side}

/-- The colour that a trace gives a cell. -/
inductive Shows (trace : List DrawOp) (row column : Fin side) : String → Prop
  /-- The last operation that covers the cell is a dot of that colour, or a line drawn with it. -/
  | painted {before : List DrawOp} {op : DrawOp} {colour : String}
      (hLast : IsLast (fun op => op.Covers column row) trace before op)
      (hInk : op.ink? (DrawOp.penBehind before) = some colour) : Shows trace row column colour
  /-- No operation covers the cell, and the paper has that colour in the end. -/
  | unpainted (hNone : ∀ op ∈ trace, ¬ op.Covers column row) :
      Shows trace row column (DrawOp.paperBehind trace)

/-- What covers a cell has a colour for it. -/
theorem exists_ink_of_covers {op : DrawOp} {x y : Int} (h : op.Covers x y) (pen : String) :
    ∃ colour, op.ink? pen = some colour := by
  cases op with
  | background => cases h
  | foreground => cases h
  | line => exact ⟨pen, rfl⟩
  | point _ _ colour => exact ⟨colour, rfl⟩

/-! ## The colour of a cell -/

theorem background_ofTrace (h : ofTrace trace = .ok picture) :
    picture.background = DrawOp.paperBehind trace :=
  background_walk h

/-- The last operation that covers a cell gives it its colour. -/
theorem cellAt_ofTrace_of_isLast (h : ofTrace trace = .ok picture) {before : List DrawOp}
    {op : DrawOp} (hLast : IsLast (fun op => op.Covers column row) trace before op) :
    picture.cellAt row column = op.ink? (DrawOp.penBehind before) := by
  obtain ⟨behind, rfl, hCovers, hBehind⟩ := hLast
  obtain ⟨under, upper, -, hUpper, hRest⟩ := Canvas.draw_split h
  -- nothing behind the operation touches the cell again
  rw [cellAt_walk hRest hBehind, cellAt_addOp_of_covers hUpper hCovers]

/-- A cell that no operation covers is not painted. -/
theorem cellAt_ofTrace_of_forall_not (h : ofTrace trace = .ok picture)
    (hNone : ∀ op ∈ trace, ¬ op.Covers column row) : picture.cellAt row column = none := by
  rw [cellAt_walk h hNone, cellAt_blank]

theorem colourAt_of_shows (h : ofTrace trace = .ok picture) {colour : String}
    (hShows : Shows trace row column colour) : picture.colourAt row column = colour := by
  rw [colourAt_eq]
  cases hShows with
  | painted hLast hInk => rw [cellAt_ofTrace_of_isLast h hLast, hInk, Option.getD_some]
  | unpainted hNone =>
    rw [cellAt_ofTrace_of_forall_not h hNone, Option.getD_none, background_ofTrace h]

/-- Every cell is given a colour. -/
theorem exists_shows (trace : List DrawOp) (row column : Fin side) :
    ∃ colour, Shows trace row column colour := by
  rcases exists_isLast_or (fun op : DrawOp => op.Covers column row) trace with
    ⟨before, op, hLast⟩ | hNone
  · obtain ⟨colour, hInk⟩ := exists_ink_of_covers hLast.holds (DrawOp.penBehind before)
    exact ⟨colour, .painted hLast hInk⟩
  · exact ⟨_, .unpainted hNone⟩

/-- A cell shows the colour that the trace gives it. -/
theorem shows_iff (h : ofTrace trace = .ok picture) {colour : String} :
    Shows trace row column colour ↔ picture.colourAt row column = colour := by
  constructor
  · exact colourAt_of_shows h
  · rintro rfl
    obtain ⟨colour, hShows⟩ := exists_shows trace row column
    rwa [colourAt_of_shows h hShows]

/-! ## Outside the grid -/

/-- An operation covers no cell of the grid. -/
def IsOffGrid (op : DrawOp) : Prop :=
  ∀ row column : Fin side, ¬ op.Covers column row

/-- What covers no cell of the grid adds nothing to a picture. -/
theorem addOp_eq_of_isOffGrid {pen colour : String} {op : DrawOp} {under upper : Picture}
    (h : addOp pen op under = some upper) (hInk : op.ink? pen = some colour) (hOff : IsOffGrid op) :
    upper = under := by
  -- an operation with a colour for cells is no paper, and the cells stay as they are
  have hPaper : op.paper? = none := by
    cases op with
    | background => cases hInk
    | _ => rfl
  refine ext_cellAt ?_ fun row column => cellAt_addOp_of_not_covers h (hOff row column)
  rw [background_addOp h, hPaper, Option.getD_none]

/-- What covers no cell of the grid can be left out of a trace. -/
theorem ofTrace_erase {before behind : List DrawOp} {op : DrawOp} {colour : String}
    (h : ofTrace (before ++ op :: behind) = .ok picture)
    (hInk : op.ink? (DrawOp.penBehind before) = some colour) (hOff : IsOffGrid op) :
    ofTrace (before ++ behind) = .ok picture := by
  obtain ⟨under, upper, hUnder, hUpper, hRest⟩ := Canvas.draw_split h
  obtain rfl := addOp_eq_of_isOffGrid hUpper hInk hOff
  -- nor does it choose a pen, so that what follows is drawn as it was
  rw [DrawOp.penAfter_of_ink? hInk] at hRest
  rw [ofTrace, Canvas.draw, Canvas.walk_append behind hUnder, DrawOp.foldl_penAfter]
  exact hRest

/-! ## The law -/

/-- The picture of a trace shows in every cell the colour of the last operation that covers it,
or else that of the paper. Operations that cover no cell of the grid could be left out, and of a
line only the cells on the grid are painted. -/
theorem painters_law (h : ofTrace trace = .ok picture) :
    (∀ row column colour, Shows trace row column colour ↔ picture.colourAt row column = colour) ∧
    (∀ before op behind colour, trace = before ++ op :: behind →
      op.ink? (DrawOp.penBehind before) = some colour → IsOffGrid op →
      ofTrace (before ++ behind) = .ok picture) ∧
    (∀ (under : Picture) segment pen, under.paintSegment segment pen =
      (segment.cells.toList.filter fun (x, y) => isOnGrid x ∧ isOnGrid y).foldl
        (fun picture (x, y) => picture.paint x y pen) under) := by
  refine ⟨fun row column colour => shows_iff h, ?_, ?_⟩
  · rintro before op behind colour rfl hInk hOff
    exact ofTrace_erase h hInk hOff
  · intro under segment pen
    rw [paintSegment_eq, paintAll_filter]

/-- A line on top of a dot, half of it outside the grid, with a pen and a paper that are chosen
too late for the line but not for the paper. -/
theorem painters_law_crossing :
    let line := DrawOp.line "-1" "0" "1" "0"
    let trace := [.point "0" "0" "80", line, .foreground "30", .background "7"]
    ∃ picture, ofTrace trace = .ok picture ∧ picture.colourAt 100 0 = "100" ∧
      picture.colourAt 0 0 = "7" := by
  intro line trace
  have hMinus : Numeral.parse? "-1" = some (-1) := by decide +kernel
  have hZero : Numeral.parse? "0" = some 0 := by decide +kernel
  have hOne : Numeral.parse? "1" = some 1 := by decide +kernel
  have hPicture : ∃ picture, ofTrace trace = .ok picture := by
    simp only [trace, line, ofTrace, Canvas.draw, Canvas.walk, addOp, Canvas.column?, Canvas.row?,
      hMinus, hZero, hOne]
    exact ⟨_, rfl⟩
  obtain ⟨picture, hPicture⟩ := hPicture
  have hLaw := (painters_law hPicture).1
  have hSegment : DrawOp.segment? "-1" "0" "1" "0" = some ⟨-1, 100, 1, 100⟩ := by
    simp [DrawOp.segment?, Canvas.column?, Canvas.row?, hMinus, hZero, hOne, Canvas.extent]
  have hCells : Segment.cells ⟨-1, 100, 1, 100⟩ = #[(-1, 100), (0, 100), (1, 100)] := by
    decide +kernel
  refine ⟨picture, hPicture, ?_, ?_⟩
  · have hLast : IsLast (fun op => op.Covers (0 : Fin side) (100 : Fin side)) trace
        [.point "0" "0" "80"] line := by
      refine ⟨[.foreground "30", .background "7"], rfl, ⟨_, hSegment, ?_⟩, ?_⟩
      · rw [hCells]
        decide +kernel
      · simp [DrawOp.Covers]
    exact (hLaw 100 0 "100").mp (.painted hLast rfl)
  · refine (hLaw 0 0 "7").mp (.unpainted ?_)
    simp [trace, line, DrawOp.Covers, hSegment, hCells, Canvas.column?, Canvas.row?, hZero,
      Canvas.extent]

end DesignByNumbers.Picture
