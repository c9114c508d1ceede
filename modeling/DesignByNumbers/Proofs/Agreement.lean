import DesignByNumbers.Proofs.Markup.Coverage
import DesignByNumbers.Proofs.Picture.Painting
import DesignByNumbers.Proofs.Reader

/-!
# Proofs.Agreement — vector graphics and pictures show the same

A picture keeps the paper apart and looks at its colour in the end, while a vector graphic lays
every paper over what was drawn before. With the paper that is chosen last laid first, and no
other one, both show the same on every cell of the grid.

* `Agrees.add`, `exists_agrees_walk` — one operation, and a whole trace without its papers.
* `showsCell_hoistPaper` — the drawing over the paper that is chosen last.
* `vector_agrees_with_raster` — the topmost shape on a cell has the grey of the cell.
-/

namespace DesignByNumbers

/-- A trace with the paper that it chooses last at its start, and no other one. -/
def DrawOp.hoistPaper (trace : List DrawOp) : List DrawOp :=
  (lastPaper? trace).toList.map .background ++ trace.filter fun op => op.paper?.isNone

namespace Markup

variable {row column : Fin Picture.side} {shapes : List Element} {cell : Option String}

/-! ## Cells -/

/-- Shapes show a cell: none of them covers it where it is bare, and else the last one that does
has the grey of its colour. -/
inductive ShowsCell (shapes : List Element) (row column : Fin Picture.side) : Option String → Prop
  | bare (hNone : ∀ shape ∈ shapes, ¬ shape.Covers column row) : ShowsCell shapes row column none
  | painted {before : List Element} {shape : Element} {ink fill : String}
      (hLast : IsLast (fun shape => shape.Covers column row) shapes before shape)
      (hColour : shape.colour? = some fill) (hFill : rgb? ink = some fill) :
      ShowsCell shapes row column (some ink)

namespace ShowsCell

/-- Shapes beside a cell can follow. -/
theorem append {more : List Element} (h : ShowsCell shapes row column cell)
    (hMore : ∀ shape ∈ more, ¬ shape.Covers column row) :
    ShowsCell (shapes ++ more) row column cell := by
  cases h with
  | bare hNone => exact .bare (List.forall_mem_append.mpr ⟨hNone, hMore⟩)
  | painted hLast hColour hFill => exact .painted (hLast.append hMore) hColour hFill

/-- A paper below the shapes is seen where a cell was bare. -/
theorem overPaper {colour fill : String} (h : ShowsCell shapes row column cell)
    (hFill : rgb? colour = some fill) :
    ShowsCell (paper fill :: shapes) row column (cell.or (some colour)) := by
  cases h with
  | bare hNone =>
    have hLast : IsLast (fun shape => shape.Covers column row) (paper fill :: shapes) []
        (paper fill) := ⟨shapes, rfl, covers_paper fill, hNone⟩
    exact .painted hLast (colour?_paper fill) hFill
  | painted hLast hColour hInk => exact .painted (hLast.cons (paper fill)) hColour hInk

/-- The last shape that covers a cell has the grey of its colour. -/
theorem exists_fill (h : ShowsCell shapes row column cell) {before : List Element}
    {shape : Element} (hLast : IsLast (fun shape => shape.Covers column row) shapes before shape)
    (otherwise : String) :
    ∃ fill, shape.colour? = some fill ∧ rgb? (cell.getD otherwise) = some fill := by
  cases h with
  | bare hNone =>
    obtain ⟨behind, rfl, hCovers, -⟩ := hLast
    exact absurd hCovers (hNone shape (by simp))
  | painted hLast' hColour hFill =>
    obtain rfl := hLast.unique hLast'
    exact ⟨_, hColour, hFill⟩

theorem eq_none (h : ShowsCell shapes row column cell)
    (hNone : ∀ shape ∈ shapes, ¬ shape.Covers column row) : cell = none := by
  cases h with
  | bare => rfl
  | painted hLast =>
    obtain ⟨behind, rfl, hCovers, -⟩ := hLast
    exact absurd hCovers (hNone _ (by simp))

end ShowsCell

/-- Shapes show what is painted on the cells of a picture. -/
def Agrees (picture : Picture) (shapes : List Element) : Prop :=
  ∀ row column, ShowsCell shapes row column (picture.cellAt row column)

theorem agrees_blank : Agrees .blank [] := by
  intro row column
  rw [Picture.cellAt_blank]
  exact .bare (by simp)

/-! ## Operations -/

section Step

variable {pen : String} {op : DrawOp} {drawn drawn' : Array Element} {picture picture' : Picture}

/-- An operation that is drawn can be painted. -/
theorem exists_addOp (h : addShape pen op drawn = some drawn') (picture : Picture) :
    ∃ picture', Picture.addOp pen op picture = some picture' := by
  cases adds_of_addShape h with
  | nothing colour => exact ⟨_, rfl⟩
  | paper => exact ⟨_, rfl⟩
  | stroke hLeft hBottom hRight hTop =>
    simp only [Picture.addOp, Canvas.column?, Canvas.row?, hLeft, hBottom, hRight, hTop]
    exact ⟨_, rfl⟩
  | dot hLeft hHeight =>
    simp only [Picture.addOp, Canvas.column?, Canvas.row?, hLeft, hHeight]
    exact ⟨_, rfl⟩

/-- A paper leaves what is painted on the cells. -/
theorem Agrees.addPaper (h : Agrees picture shapes) {colour : String}
    (hPicture : Picture.addOp pen (.background colour) picture = some picture') :
    Agrees picture' shapes := by
  intro row column
  rw [Picture.cellAt_addOp_of_not_covers hPicture (by simp [DrawOp.Covers])]
  exact h row column

/-- An operation other than a paper is shown by its shape wherever it is painted. -/
theorem Agrees.add (h : Agrees picture drawn.toList) (hPaper : op.paper? = none)
    (hDrawn : addShape pen op #[] = some drawn')
    (hPicture : Picture.addOp pen op picture = some picture') :
    Agrees picture' (drawn ++ drawn').toList := by
  intro row column
  have hDepicts := depicts_addShape hDrawn hPaper
  rw [Array.toList_append]
  -- where the operation covers the cell its shape lies on top, and elsewhere it lies beside it
  by_cases hCovers : op.Covers column row
  · rw [Picture.cellAt_addOp_of_covers hPicture hCovers]
    cases hDepicts with
    | nothing hInk =>
      obtain ⟨ink, hSome⟩ := Picture.exists_ink_of_covers hCovers pen
      rw [hInk] at hSome
      cases hSome
    | shape hInk hFill hColour hShape =>
      rw [hInk]
      exact .painted (isLast_concat ((hShape _ _).mpr hCovers)) hColour hFill
  · rw [Picture.cellAt_addOp_of_not_covers hPicture hCovers]
    refine (h row column).append ?_
    cases hDepicts with
    | nothing => simp
    | shape hInk hFill hColour hShape => simpa [hShape] using hCovers

end Step

/-! ## Traces -/

section Walk

variable {pen : String} {trace : List DrawOp} {drawn drawn' shown : Array Element}
  {picture : Picture}

/-- A trace that is drawn can be painted, and without its papers it is drawn as it is painted. -/
theorem exists_agrees_walk (h : Agrees picture shown.toList)
    (hWalk : Canvas.walk addShape pen drawn trace = .ok drawn') :
    ∃ shown' picture',
      Canvas.walk addShape pen shown (trace.filter fun op => op.paper?.isNone) = .ok shown' ∧
        Canvas.walk Picture.addOp pen picture trace = .ok picture' ∧
        Agrees picture' shown'.toList := by
  induction trace generalizing pen drawn shown picture with
  | nil => exact ⟨shown, picture, rfl, rfl, h⟩
  | cons op rest ih =>
    obtain ⟨between, hStep, hRest⟩ := Canvas.walk_cons.mp hWalk
    obtain ⟨upper, hUpper⟩ := exists_addOp hStep picture
    cases hPaper : op.paper? with
    | some colour =>
      -- a paper is left out of the drawing, and the picture keeps it apart from its cells
      obtain rfl := DrawOp.eq_background_of_paper? hPaper
      obtain ⟨shown', picture', hShown, hPicture, hAgrees⟩ := ih (h.addPaper hUpper) hRest
      refine ⟨shown', picture', ?_, Canvas.walk_cons.mpr ⟨upper, hUpper, hPicture⟩, hAgrees⟩
      rwa [List.filter_cons_of_neg (by simp [hPaper])]
    | none =>
      -- the shapes added differ from those of the full drawing in what lies below them only
      rw [addShape_eq] at hStep
      obtain ⟨added, hAdded, -⟩ := Option.map_eq_some_iff.mp hStep
      obtain ⟨shown', picture', hShown, hPicture, hAgrees⟩ :=
        ih (h.add hPaper hAdded hUpper) hRest
      refine ⟨shown', picture', ?_, Canvas.walk_cons.mpr ⟨upper, hUpper, hPicture⟩, hAgrees⟩
      rw [List.filter_cons_of_pos (by simp [hPaper])]
      refine Canvas.walk_cons.mpr ⟨shown ++ added, ?_, hShown⟩
      rw [addShape_eq, hAdded, Option.map_some]

/-- The paper that is chosen last in a trace that is drawn has a grey. -/
theorem exists_rgb_of_lastPaper? (hWalk : Canvas.walk addShape pen drawn trace = .ok drawn')
    {colour : String} (hPaper : DrawOp.lastPaper? trace = some colour) :
    ∃ fill, rgb? colour = some fill := by
  obtain ⟨before, behind, rfl⟩ :=
    List.append_of_mem (DrawOp.background_mem_of_lastPaper? hPaper)
  obtain ⟨under, -, hRest⟩ := Canvas.walk_split hWalk
  obtain ⟨upper, hUpper, -⟩ := Canvas.walk_cons.mp hRest
  obtain ⟨fill, hFill, -⟩ := Option.bind_eq_some_iff.mp hUpper
  exact ⟨fill, hFill⟩

end Walk

/-- A trace that is drawn can be painted, and with its papers hoisted it is drawn as the picture
looks in the end. -/
theorem showsCell_hoistPaper {trace : List DrawOp} {drawn : Array Element}
    (h : Canvas.draw addShape #[] trace = .ok drawn) :
    ∃ shown picture, Canvas.draw addShape #[] (DrawOp.hoistPaper trace) = .ok shown ∧
      Picture.ofTrace trace = .ok picture ∧ ∀ row column,
        ShowsCell shown.toList row column
          ((picture.cellAt row column).or (DrawOp.lastPaper? trace)) := by
  obtain ⟨shown, picture, hShown, hPicture, hAgrees⟩ := exists_agrees_walk agrees_blank h
  cases hPaper : DrawOp.lastPaper? trace with
  | none =>
    refine ⟨shown, picture, ?_, hPicture, fun row column => ?_⟩
    · rw [DrawOp.hoistPaper, hPaper]
      exact hShown
    · rw [Option.or_none]
      exact hAgrees row column
  | some colour =>
    obtain ⟨fill, hFill⟩ := exists_rgb_of_lastPaper? h hPaper
    refine ⟨#[paper fill] ++ shown, picture, ?_, hPicture, fun row column => ?_⟩
    · -- the paper is laid first, and the rest is drawn on top of it
      rw [DrawOp.hoistPaper, hPaper]
      refine Canvas.walk_cons.mpr ⟨#[paper fill] ++ #[], ?_, walk_addShape #[paper fill] hShown⟩
      simp [addShape, hFill]
    · rw [Array.toList_append]
      exact (hAgrees row column).overPaper hFill

/-- A trace that has a vector graphic has a picture. In the graphic of the trace with its papers
hoisted, the last shape that covers a cell of the grid has the grey of the colour that the cell
shows in the picture, and a cell that no shape covers shows the paper of the start. -/
theorem vector_agrees_with_raster {size : Size} {trace : List DrawOp} {element : Element}
    (h : ofTrace size trace = .ok element) :
    ∃ picture drawing, Picture.ofTrace trace = .ok picture ∧
      ofTrace size (DrawOp.hoistPaper trace) = .ok drawing ∧
      ∀ row column : Fin Picture.side,
        (∀ before shape,
          IsLast (fun shape => shape.Covers column row) drawing.children before shape →
          ∃ fill, shape.colour? = some fill ∧
            rgb? (picture.colourAt row column) = some fill) ∧
        ((∀ shape ∈ drawing.children, ¬ shape.Covers column row) →
          picture.colourAt row column = "0") := by
  obtain ⟨drawn, hDrawn, -⟩ := Except.bind_eq_ok_iff.mp h
  obtain ⟨shown, picture, hShown, hPicture, hCells⟩ := showsCell_hoistPaper hDrawn
  refine ⟨picture, .node "svg" size.attributes shown.toList, hPicture, ?_, fun row column => ?_⟩
  · exact Except.bind_eq_ok_iff.mpr ⟨shown, hShown, rfl⟩
  · -- the paper chosen last is below every cell, and the one of the start below that
    have hColour : picture.colourAt row column =
        ((picture.cellAt row column).or (DrawOp.lastPaper? trace)).getD DrawOp.defaultPaper := by
      rw [Picture.colourAt_eq, Picture.background_ofTrace hPicture, DrawOp.paperBehind]
      cases picture.cellAt row column <;> rfl
    rw [hColour]
    refine ⟨fun before shape hLast => (hCells row column).exists_fill hLast _, fun hNone => ?_⟩
    rw [(hCells row column).eq_none hNone]
    rfl

/-- A dot that a paper follows, and a cell beside it. -/
theorem vector_agrees_with_raster_behindDot :
    let trace := [.point "3" "4" "60", .background "20"]
    ∃ element, ofTrace .default trace = .ok element ∧
      ∃ picture, Picture.ofTrace trace = .ok picture ∧
        rgb? (picture.colourAt 96 3) = some "rgb(40%,40%,40%)" ∧
        rgb? (picture.colourAt 0 0) = some "rgb(80%,80%,80%)" := by
  intro trace
  have hThree : Numeral.parse? "3" = some 3 := by decide +kernel
  have hFour : Numeral.parse? "4" = some 4 := by decide +kernel
  have hDark : rgb? "60" = some "rgb(40%,40%,40%)" := by decide +kernel
  have hLight : rgb? "20" = some "rgb(80%,80%,80%)" := by decide +kernel
  have hElement : ∃ element, ofTrace .default trace = .ok element := by
    simp only [trace, ofTrace, Canvas.draw, Canvas.walk, addShape, Canvas.column?, Canvas.row?,
      hThree, hFour, hDark, hLight]
    exact ⟨_, rfl⟩
  obtain ⟨element, hElement⟩ := hElement
  obtain ⟨picture, drawing, hPicture, hDrawing, hCells⟩ := vector_agrees_with_raster hElement
  -- the paper lies below the dot in the graphic to which the picture is compared
  have hHoisted : ofTrace .default (DrawOp.hoistPaper trace) = .ok (.node "svg"
      Size.default.attributes [paper "rgb(80%,80%,80%)", dot 3 96 "rgb(40%,40%,40%)"]) := by
    have hTrace : DrawOp.hoistPaper trace = [.background "20", .point "3" "4" "60"] := rfl
    simp only [hTrace, ofTrace, Canvas.draw, Canvas.walk, addShape, Canvas.column?, Canvas.row?,
      hThree, hFour, hDark, hLight]
    rfl
  obtain rfl : _ = drawing := Except.ok.inj (hHoisted.symm.trans hDrawing)
  refine ⟨element, hElement, picture, hPicture, ?_, ?_⟩
  · obtain ⟨fill, hFill, hColour⟩ := (hCells 96 3).1 [paper "rgb(80%,80%,80%)"]
      (dot 3 96 "rgb(40%,40%,40%)") ⟨[], rfl, covers_dot.mpr ⟨rfl, rfl⟩, by simp⟩
    rwa [← Option.some.inj (hFill.symm.trans (colour?_dot ..))]
  · have hBeside : ¬ (dot 3 96 "rgb(40%,40%,40%)").Covers (0 : Fin Picture.side)
        (0 : Fin Picture.side) := by
      rw [covers_dot]
      decide
    obtain ⟨fill, hFill, hColour⟩ := (hCells 0 0).1 [] (paper "rgb(80%,80%,80%)")
      ⟨[dot 3 96 "rgb(40%,40%,40%)"], rfl, covers_paper _, by simpa using hBeside⟩
    rwa [← Option.some.inj (hFill.symm.trans (colour?_paper _))]

end Markup

end DesignByNumbers
