import Mathlib.Algebra.GroupWithZero.Nat
import DesignByNumbers.Picture
import DesignByNumbers.Proofs.Trace

/-!
# Proofs.Picture — what an operation does to the cells of a picture

A cell is looked at by its row and its column. An operation that is added to a picture colours
the cells of the grid that it covers and leaves all others as they are.

* `cellAt_paint`, `cellAt_paintSegment` — painting, one cell at a time.
* `cellAt_addOp_of_covers`, `cellAt_addOp_of_not_covers` — what one operation does to a cell.
* `cellAt_walk` — a cell that no operation of a trace covers stays as it was.
* `ext_cellAt` — a picture is given by its cells and its paper.
-/

namespace DesignByNumbers

/-- The end points that the coordinates of a line denote. -/
def DrawOp.segment? (x0 y0 x1 y1 : String) : Option Segment := do
  let left ← Canvas.column? x0
  let top ← Canvas.row? y0
  let right ← Canvas.column? x1
  let bottom ← Canvas.row? y1
  return { x0 := left, y0 := top, x1 := right, y1 := bottom }

/-- A cell, which need not be on the grid, lies on an operation: it is the cell of a dot, or one
of the cells on the way between the ends of a line. -/
def DrawOp.Covers (op : DrawOp) (column row : Int) : Prop :=
  match op with
  | .line x0 y0 x1 y1 =>
    ∃ segment, DrawOp.segment? x0 y0 x1 y1 = some segment ∧ (column, row) ∈ segment.cells
  | .point x y _ => Canvas.column? x = some column ∧ Canvas.row? y = some row
  | _ => False

namespace Picture

variable {picture picture' : Picture} {row column : Fin side}

/-! ## Cells -/

instance : NeZero side := ⟨Nat.succ_ne_zero 100⟩

/-- The place of a cell among all cells. -/
def place (row column : Fin side) : Fin (side * side) :=
  ⟨index row column, index_lt row.isLt column.isLt⟩

/-- What is painted on a cell. -/
def cellAt (picture : Picture) (row column : Fin side) : Option String :=
  picture.cells[place row column]

/-- The colour that a cell shows in the end. -/
def colourAt (picture : Picture) (row column : Fin side) : String :=
  picture.resolved[place row column]

theorem place_injective {row' column' : Fin side} (h : place row column = place row' column') :
    row = row' ∧ column = column' := by
  have hIndex : side * row + column = side * row' + column' := congrArg Fin.val h
  have hColumn := column.isLt
  have hColumn' := column'.isLt
  -- a column is less than the factor of the row
  unfold side at hIndex hColumn hColumn'
  constructor
  · exact Fin.ext (by omega)
  · exact Fin.ext (by omega)

/-- Every place is that of a cell. -/
theorem exists_place (i : Fin (side * side)) : ∃ row column, place row column = i := by
  have hPositive : 0 < side := by decide
  have hRow : i.val / side < side := (Nat.div_lt_iff_lt_mul hPositive).mpr i.isLt
  refine ⟨⟨i.val / side, hRow⟩, ⟨i.val % side, Nat.mod_lt _ hPositive⟩, Fin.ext ?_⟩
  exact Nat.div_add_mod i.val side

theorem colourAt_eq :
    picture.colourAt row column = (picture.cellAt row column).getD picture.background := by
  simp [colourAt, cellAt, resolved, shown]

/-- A picture is given by its cells and its paper. -/
theorem ext_cellAt (hBackground : picture.background = picture'.background)
    (hCells : ∀ row column, picture.cellAt row column = picture'.cellAt row column) :
    picture = picture' := by
  obtain ⟨background, cells⟩ := picture
  obtain ⟨background', cells'⟩ := picture'
  have hPlaces : ∀ i : Fin (side * side), cells[i] = cells'[i] := by
    intro i
    obtain ⟨row, column, rfl⟩ := exists_place i
    exact hCells row column
  obtain rfl : background = background' := hBackground
  obtain rfl : cells = cells' := Vector.ext fun i hi => hPlaces ⟨i, hi⟩
  rfl

@[simp]
theorem cellAt_blank : blank.cellAt row column = none := by
  simp [cellAt, blank]

@[simp]
theorem cellAt_withBackground (colour : String) :
    (picture.withBackground colour).cellAt row column = picture.cellAt row column := rfl

/-! ## Painting -/

@[simp]
theorem background_paint (x y : Int) (colour : String) :
    (picture.paint x y colour).background = picture.background := by
  rw [paint]
  split <;> rfl

/-- Beyond the grid nothing is painted. -/
theorem paint_of_not_isOnGrid {x y : Int} (h : ¬ (isOnGrid x ∧ isOnGrid y)) (colour : String) :
    picture.paint x y colour = picture := by
  rw [paint, dif_neg h]

theorem isOnGrid_cast (coordinate : Fin side) : isOnGrid coordinate := by
  have hLess := coordinate.isLt
  unfold side at hLess
  unfold isOnGrid Canvas.extent
  omega

/-- Painting a cell is seen on that cell and on no other one. -/
theorem cellAt_paint (x y : Int) (colour : String) :
    (picture.paint x y colour).cellAt row column =
      if ((column : Int), (row : Int)) = (x, y) then some colour else picture.cellAt row column := by
  by_cases hGrid : isOnGrid x ∧ isOnGrid y
  · have hRow := toNat_lt_side hGrid.2
    have hColumn := toNat_lt_side hGrid.1
    have hPaint : (picture.paint x y colour).cellAt row column =
        if place ⟨y.toNat, hRow⟩ ⟨x.toNat, hColumn⟩ = place row column then some colour
        else picture.cellAt row column := by
      rw [paint, dif_pos hGrid]
      simp only [cellAt, place, Fin.getElem_fin, Vector.getElem_set, Fin.mk.injEq]
    have hPlace : place ⟨y.toNat, hRow⟩ ⟨x.toNat, hColumn⟩ = place row column ↔
        ((column : Int), (row : Int)) = (x, y) := by
      constructor
      · -- on the grid no coordinate is lost where it becomes a natural number
        intro hSame
        obtain ⟨rfl, rfl⟩ := place_injective hSame
        rw [Int.toNat_of_nonneg hGrid.1.1, Int.toNat_of_nonneg hGrid.2.1]
      · intro hSame
        cases hSame
        rfl
    simp only [hPaint, hPlace]
  · rw [paint_of_not_isOnGrid hGrid, if_neg]
    -- the cell that is looked at is on the grid
    intro hSame
    cases hSame
    exact hGrid ⟨isOnGrid_cast column, isOnGrid_cast row⟩

section Cells

variable {cells : List (Int × Int)} {colour : String}

theorem background_paintAll :
    (cells.foldl (fun picture (x, y) => picture.paint x y colour) picture).background =
      picture.background := by
  induction cells generalizing picture with
  | nil => rfl
  | cons cell rest ih => rw [List.foldl_cons, ih, background_paint]

theorem cellAt_paintAll :
    (cells.foldl (fun picture (x, y) => picture.paint x y colour) picture).cellAt row column =
      if ((column : Int), (row : Int)) ∈ cells then some colour else picture.cellAt row column := by
  induction cells generalizing picture with
  | nil => simp
  | cons cell rest ih =>
    rw [List.foldl_cons, ih, cellAt_paint]
    -- a cell that is painted again keeps the colour, which is the same all along
    by_cases hRest : ((column : Int), (row : Int)) ∈ rest
    · rw [if_pos hRest, if_pos (List.mem_cons_of_mem cell hRest)]
    · simp only [hRest, List.mem_cons, or_false, if_false]

/-- Of the cells of a line only those on the grid are painted. -/
theorem paintAll_filter :
    (cells.filter fun (x, y) => isOnGrid x ∧ isOnGrid y).foldl
        (fun picture (x, y) => picture.paint x y colour) picture =
      cells.foldl (fun picture (x, y) => picture.paint x y colour) picture := by
  induction cells generalizing picture with
  | nil => rfl
  | cons cell rest ih =>
    obtain ⟨x, y⟩ := cell
    by_cases hGrid : isOnGrid x ∧ isOnGrid y
    · rw [List.filter_cons_of_pos (by simpa using hGrid), List.foldl_cons, List.foldl_cons, ih]
    · -- the first cell is left out of one side, and painting it does nothing on the other
      rw [List.filter_cons_of_neg (by simpa using hGrid), List.foldl_cons, ih]
      simp only [paint_of_not_isOnGrid hGrid]

end Cells

section Segment

variable (segment : Segment) (colour : String)

theorem paintSegment_eq : picture.paintSegment segment colour =
    segment.cells.toList.foldl (fun picture (x, y) => picture.paint x y colour) picture := by
  rw [paintSegment, ← Array.foldl_toList]

@[simp]
theorem background_paintSegment :
    (picture.paintSegment segment colour).background = picture.background := by
  rw [paintSegment_eq, background_paintAll]

theorem cellAt_paintSegment :
    (picture.paintSegment segment colour).cellAt row column =
      if ((column : Int), (row : Int)) ∈ segment.cells then some colour
      else picture.cellAt row column := by
  simp only [paintSegment_eq, cellAt_paintAll, Array.mem_toList_iff]

end Segment

/-! ## Operations -/

section Step

variable {pen : String} {op : DrawOp}

theorem addOp_line {x0 y0 x1 y1 : String} :
    addOp pen (.line x0 y0 x1 y1) picture =
      (DrawOp.segment? x0 y0 x1 y1).map fun segment => picture.paintSegment segment pen := by
  simp only [addOp, DrawOp.segment?]
  cases Canvas.column? x0 <;> cases Canvas.row? y0 <;> cases Canvas.column? x1 <;>
    cases Canvas.row? y1 <;> rfl

/-- The paper keeps the colour that was chosen last. -/
theorem background_addOp (h : addOp pen op picture = some picture') :
    picture'.background = op.paper?.getD picture.background := by
  cases op with
  | foreground colour =>
    cases h
    rfl
  | background colour =>
    cases h
    rfl
  | line x0 y0 x1 y1 =>
    rw [addOp_line] at h
    obtain ⟨segment, -, rfl⟩ := Option.map_eq_some_iff.mp h
    exact background_paintSegment segment pen
  | point x y colour =>
    obtain ⟨left, -, h⟩ := Option.bind_eq_some_iff.mp h
    obtain ⟨top, -, h⟩ := Option.bind_eq_some_iff.mp h
    cases h
    exact background_paint left top colour

/-- The cells that an operation covers take its colour. -/
theorem cellAt_addOp_of_covers (h : addOp pen op picture = some picture')
    (hCovers : op.Covers column row) : picture'.cellAt row column = op.ink? pen := by
  cases op with
  | foreground colour => cases hCovers
  | background colour => cases hCovers
  | line x0 y0 x1 y1 =>
    obtain ⟨segment, hSegment, hMem⟩ := hCovers
    rw [addOp_line, hSegment] at h
    cases h
    rw [cellAt_paintSegment, if_pos hMem]
    rfl
  | point x y colour =>
    obtain ⟨hColumn, hRow⟩ := hCovers
    simp only [addOp, hColumn, hRow] at h
    cases h
    rw [cellAt_paint, if_pos rfl]
    rfl

/-- The cells that an operation does not cover stay as they are. -/
theorem cellAt_addOp_of_not_covers (h : addOp pen op picture = some picture')
    (hCovers : ¬ op.Covers column row) : picture'.cellAt row column = picture.cellAt row column := by
  cases op with
  | foreground colour =>
    cases h
    rfl
  | background colour =>
    cases h
    rfl
  | line x0 y0 x1 y1 =>
    rw [addOp_line] at h
    obtain ⟨segment, hSegment, rfl⟩ := Option.map_eq_some_iff.mp h
    rw [cellAt_paintSegment, if_neg fun hMem => hCovers ⟨segment, hSegment, hMem⟩]
  | point x y colour =>
    obtain ⟨left, hLeft, h⟩ := Option.bind_eq_some_iff.mp h
    obtain ⟨top, hTop, h⟩ := Option.bind_eq_some_iff.mp h
    cases h
    rw [cellAt_paint, if_neg]
    intro hSame
    cases hSame
    exact hCovers ⟨hLeft, hTop⟩

end Step

/-! ## Traces -/

section Walk

variable {pen : String} {trace : List DrawOp}

theorem background_walk (h : Canvas.walk addOp pen picture trace = .ok picture') :
    picture'.background = (DrawOp.lastPaper? trace).getD picture.background := by
  induction trace generalizing pen picture with
  | nil =>
    cases h
    rfl
  | cons op rest ih =>
    obtain ⟨between, hStep, hRest⟩ := Canvas.walk_cons.mp h
    rw [ih hRest, background_addOp hStep, DrawOp.lastPaper?, DrawOp.lastPaper?,
      DrawOp.getLast?_filterMap_cons]
    -- a paper of the rest counts, and else that of the first operation
    cases (rest.filterMap DrawOp.paper?).getLast? <;> rfl

/-- A cell that no operation of a trace covers stays as it was. -/
theorem cellAt_walk (h : Canvas.walk addOp pen picture trace = .ok picture')
    (hNone : ∀ op ∈ trace, ¬ op.Covers column row) :
    picture'.cellAt row column = picture.cellAt row column := by
  induction trace generalizing pen picture with
  | nil =>
    cases h
    rfl
  | cons op rest ih =>
    obtain ⟨between, hStep, hRest⟩ := Canvas.walk_cons.mp h
    obtain ⟨hOp, hNone⟩ := List.forall_mem_cons.mp hNone
    rw [ih hRest hNone, cellAt_addOp_of_not_covers hStep hOp]

end Walk

end Picture

end DesignByNumbers
