import Mathlib.Data.List.Chain
import Mathlib.Data.Rat.Floor
import Mathlib.Tactic.Linarith
import Mathlib.Tactic.Positivity
import DesignByNumbers.Picture.Segment

/-!
# Proofs.Picture.Segment — the way along a segment

A walk along a segment takes one unit of the longer axis with every step, and stays as near to the
ideal line as a cell can on the shorter one. It stands on the end after as many steps as the longer
axis has units, and not before, so that a walk that waits for the end and counts nothing passes the
same cells.

* `offset_bounds` — how near a cell is to the ideal line.
* `advance_walkerAfter` — one step, in every direction.
* `isTrail_walkerAfter` — the walk that counts nothing comes to the end.
* `cells_exact` — the cells of a segment.
-/

namespace DesignByNumbers.Segment

variable (segment : Segment)

/-! ## Cells in closed form -/

/-- How many units the longer axis has. -/
def major : Nat := max segment.width segment.height

/-- How many units the shorter axis has. -/
def minor : Nat := min segment.width segment.height

/-- How many units of the shorter axis lie behind a walk after so many steps: the same share of it
as of the longer one, rounded to the nearest integer, and towards the start where two are equally
near. A segment of a single cell has no such units. -/
def offset (k : Nat) : Int :=
  ⌈(2 * segment.minor * k - segment.major : ℚ) / (2 * segment.major)⌉

/-- How many units of either axis lie behind a walk after so many steps. -/
def units (k : Nat) : Int × Int :=
  if segment.height ≤ segment.width then (k, segment.offset k) else (segment.offset k, k)

/-- The cell that many units towards the end. -/
def cellAfter (k : Nat) : Int × Int :=
  (segment.x0 + (segment.x1 - segment.x0).sign * (segment.units k).1,
    segment.y0 + (segment.y1 - segment.y0).sign * (segment.units k).2)

/-- The cells that a walker passes until it stands on the end, without a bound on their number. There
are none where it never does. -/
inductive IsTrail : Walker → List (Int × Int) → Prop
  | atEnd {walker : Walker} (hEnd : segment.isAtEnd walker = true) :
    IsTrail walker [(walker.x, walker.y)]
  | onWay {walker : Walker} {rest : List (Int × Int)} (hEnd : ¬ segment.isAtEnd walker = true)
      (hRest : IsTrail (segment.advance walker) rest) : IsTrail walker ((walker.x, walker.y) :: rest)

/-- A king moves to one of the eight cells around its own. -/
def IsKingMove (cell next : Int × Int) : Prop :=
  next ≠ cell ∧ (next.1 - cell.1).natAbs ≤ 1 ∧ (next.2 - cell.2).natAbs ≤ 1

/-- A cell lies in the rectangle between the ends. -/
def Bounds (cell : Int × Int) : Prop :=
  (min segment.x0 segment.x1 ≤ cell.1 ∧ cell.1 ≤ max segment.x0 segment.x1) ∧
    min segment.y0 segment.y1 ≤ cell.2 ∧ cell.2 ≤ max segment.y0 segment.y1

/-! ## Offsets -/

variable {segment}

/-- Either the horizontal axis is the longer one or the vertical axis is. -/
theorem flat_or_steep (segment : Segment) :
    (segment.major = segment.width ∧ segment.minor = segment.height ∧
        ∀ k, segment.units k = ((k : Int), segment.offset k)) ∨
      (segment.major = segment.height ∧ segment.minor = segment.width ∧
        ∀ k, segment.units k = (segment.offset k, (k : Int))) := by
  rcases Nat.lt_or_ge segment.width segment.height with hSteep | hFlat
  · exact .inr ⟨max_eq_right hSteep.le, min_eq_left hSteep.le, fun k => if_neg (by omega)⟩
  · exact .inl ⟨max_eq_left hFlat, min_eq_right hFlat, fun k => if_pos hFlat⟩

theorem minor_le_major : segment.minor ≤ segment.major :=
  min_le_max

/-- A cell is at most half a unit off the ideal line. -/
theorem offset_bounds (hMajor : 0 < segment.major) (k : Nat) :
    2 * (segment.minor * k : Int) - segment.major ≤ 2 * segment.major * segment.offset k ∧
      2 * segment.major * segment.offset k < 2 * (segment.minor * k : Int) + segment.major := by
  have hPos : (0 : ℚ) < 2 * segment.major := by positivity
  have hLow := Int.le_ceil ((2 * segment.minor * k - segment.major : ℚ) / (2 * segment.major))
  have hHigh := Int.ceil_lt_add_one ((2 * segment.minor * k - segment.major : ℚ) / (2 * segment.major))
  rw [div_le_iff₀ hPos] at hLow
  rw [← sub_lt_iff_lt_add, lt_div_iff₀ hPos] at hHigh
  constructor
  · have hCast : ((2 * (segment.minor * k : Int) - segment.major : Int) : ℚ) ≤
        ((2 * segment.major * segment.offset k : Int) : ℚ) := by
      push_cast [offset]
      linarith
    exact_mod_cast hCast
  · have hCast : ((2 * segment.major * segment.offset k : Int) : ℚ) <
        ((2 * (segment.minor * k : Int) + segment.major : Int) : ℚ) := by
      push_cast [offset]
      linarith
    exact_mod_cast hCast

/-- There is only one offset that near to the ideal line. -/
theorem offset_eq {k : Nat} {units : Int} (hMajor : 0 < segment.major)
    (hLow : 2 * (segment.minor * k : Int) - segment.major ≤ 2 * segment.major * units)
    (hHigh : 2 * segment.major * units < 2 * (segment.minor * k : Int) + segment.major) :
    segment.offset k = units := by
  obtain ⟨hLow', hHigh'⟩ := offset_bounds hMajor k
  have hPos : (0 : Int) < 2 * segment.major := by positivity
  -- two offsets are less than a unit apart
  have hLess : 2 * (segment.major : Int) * segment.offset k < 2 * segment.major * (units + 1) := by
    rw [Int.mul_add]
    omega
  have hGreater : 2 * (segment.major : Int) * units < 2 * segment.major * (segment.offset k + 1) := by
    rw [Int.mul_add]
    omega
  have hAtMost := lt_of_mul_lt_mul_left hLess hPos.le
  have hAtLeast := lt_of_mul_lt_mul_left hGreater hPos.le
  omega

theorem offset_of_major_eq_zero (hMajor : segment.major = 0) (k : Nat) : segment.offset k = 0 := by
  simp [offset, hMajor]

theorem offset_zero : segment.offset 0 = 0 := by
  rcases Nat.eq_zero_or_pos segment.major with hMajor | hMajor
  · exact offset_of_major_eq_zero hMajor 0
  · exact offset_eq hMajor (by simp) (by simpa using hMajor)

theorem offset_major : segment.offset segment.major = segment.minor := by
  rcases Nat.eq_zero_or_pos segment.major with hMajor | hMajor
  · have hMinor := segment.minor_le_major
    rw [offset_of_major_eq_zero hMajor]
    omega
  · have hPos : (0 : Int) < segment.major := by exact_mod_cast hMajor
    exact offset_eq hMajor (by linarith) (by linarith)

/-- A step takes no more than one unit of the shorter axis. -/
theorem offset_succ (hMajor : 0 < segment.major) (k : Nat) :
    segment.offset k ≤ segment.offset (k + 1) ∧ segment.offset (k + 1) ≤ segment.offset k + 1 := by
  obtain ⟨hLow, hHigh⟩ := offset_bounds hMajor k
  obtain ⟨hLow', hHigh'⟩ := offset_bounds hMajor (k + 1)
  have hPos : (0 : Int) < 2 * segment.major := by positivity
  have hMinor : (segment.minor : Int) ≤ segment.major := by exact_mod_cast segment.minor_le_major
  push_cast at hLow' hHigh'
  have hLess : 2 * (segment.major : Int) * segment.offset k <
      2 * segment.major * (segment.offset (k + 1) + 1) := by linarith
  have hGreater : 2 * (segment.major : Int) * segment.offset (k + 1) <
      2 * segment.major * (segment.offset k + 2) := by linarith
  have hAtLeast := lt_of_mul_lt_mul_left hLess hPos.le
  have hAtMost := lt_of_mul_lt_mul_left hGreater hPos.le
  omega

/-- On the way, an offset lies between those of the ends. -/
theorem offset_mem {k : Nat} (hk : k ≤ segment.major) :
    0 ≤ segment.offset k ∧ segment.offset k ≤ segment.minor := by
  rcases Nat.eq_zero_or_pos segment.major with hMajor | hMajor
  · rw [offset_of_major_eq_zero hMajor]
    omega
  · -- offsets grow from one step to the next
    have hMono : Monotone segment.offset := monotone_nat_of_le_succ fun k => (offset_succ hMajor k).1
    rw [← segment.offset_zero, ← offset_major]
    exact ⟨hMono (Nat.zero_le k), hMono hk⟩

/-! ## Steps -/

/-- The walker with so many units of either axis behind it. -/
def walkerAt (segment : Segment) (units : Int × Int) : Walker :=
  { x := segment.x0 + segment.stepX * units.1
    y := segment.y0 + segment.stepY * units.2
    error := segment.width - segment.height - segment.height * units.1 + segment.width * units.2 }

/-- The walker behind so many steps. -/
def walkerAfter (segment : Segment) (k : Nat) : Walker :=
  segment.walkerAt (segment.units k)

/-- Along the diagonal the offset is the number of steps. -/
theorem offset_of_eq (hDiagonal : segment.minor = segment.major) (hMajor : 0 < segment.major)
    (k : Nat) : segment.offset k = k := by
  have hPos : (0 : Int) < segment.major := by exact_mod_cast hMajor
  exact offset_eq hMajor (by rw [hDiagonal]; linarith) (by rw [hDiagonal]; linarith)

/-- A step along a segment that is no higher than wide. -/
theorem advance_walkerAt_of_le (hFlat : segment.height ≤ segment.width) {k : Nat}
    (hk : k < segment.width) :
    segment.advance (segment.walkerAt (k, segment.offset k)) =
      segment.walkerAt (k + 1, segment.offset (k + 1)) := by
  have hMajor : segment.major = segment.width := max_eq_left hFlat
  have hMinor : segment.minor = segment.height := min_eq_right hFlat
  have hPositive : 0 < segment.major := by omega
  obtain ⟨hLow, hHigh⟩ := offset_bounds hPositive k
  rw [hMajor, hMinor] at hLow hHigh
  -- the longer axis takes a unit in any case
  have hMovesX : -(segment.height : Int) < 2 * (segment.width - segment.height -
      segment.height * k + segment.width * segment.offset k) := by
    rcases Nat.lt_or_eq_of_le hFlat with hLess | hEq
    · have hLessInt : (segment.height : Int) < segment.width := by exact_mod_cast hLess
      linarith
    · have hPos : (0 : Int) < segment.height := by omega
      rw [offset_of_eq (by omega) hPositive, hEq]
      linarith
  -- the shorter one takes a unit where the error says so, which keeps the cell near the ideal line
  have hOffset : segment.offset (k + 1) = segment.offset k +
      if 2 * (segment.width - segment.height - segment.height * k +
        segment.width * segment.offset k) < (segment.width : Int) then 1 else 0 := by
    split
    next hMovesY =>
      refine offset_eq hPositive ?_ ?_ <;> rw [hMajor, hMinor] <;> push_cast <;> linarith
    next hMovesY =>
      refine offset_eq hPositive ?_ ?_ <;> rw [hMajor, hMinor] <;> push_cast <;> linarith
  rw [hOffset, advance, walkerAt, walkerAt]
  simp only [decide_eq_true hMovesX, if_true, decide_eq_true_eq, Walker.mk.injEq]
  refine ⟨by ring, ?_, ?_⟩
  · split <;> ring
  · split <;> ring

/-! ## Directions -/

/-- The segment with the axes exchanged. -/
def transpose (segment : Segment) : Segment :=
  { x0 := segment.y0, y0 := segment.x0, x1 := segment.y1, y1 := segment.x1 }

/-- The walker with the axes exchanged. Its error is the opposite one. -/
def Walker.transpose (walker : Walker) : Walker :=
  { x := walker.y, y := walker.x, error := -walker.error }

theorem major_transpose : segment.transpose.major = segment.major :=
  max_comm segment.height segment.width

theorem minor_transpose : segment.transpose.minor = segment.minor :=
  min_comm segment.height segment.width

theorem offset_transpose (k : Nat) : segment.transpose.offset k = segment.offset k := by
  rw [offset, offset, major_transpose, minor_transpose]

theorem transpose_walkerAt (units : Int × Int) :
    (segment.walkerAt units).transpose = segment.transpose.walkerAt units.swap := by
  simp only [walkerAt, Walker.transpose, Walker.mk.injEq, Prod.fst_swap, Prod.snd_swap]
  refine ⟨rfl, rfl, ?_⟩
  show _ = (segment.height : Int) - segment.width - segment.width * units.2 +
    segment.height * units.1
  ring

/-- A step takes no notice of which axis is which. -/
theorem advance_transpose (walker : Walker) :
    segment.transpose.advance walker.transpose = (segment.advance walker).transpose := by
  have hWidth : segment.transpose.width = segment.height := rfl
  have hHeight : segment.transpose.height = segment.width := rfl
  have hX : -(segment.width : Int) < 2 * -walker.error ↔ 2 * walker.error < segment.width := by omega
  have hY : 2 * -walker.error < (segment.height : Int) ↔
      -(segment.height : Int) < 2 * walker.error := by omega
  simp only [advance, Walker.transpose, hWidth, hHeight, hX, hY, Walker.mk.injEq]
  refine ⟨rfl, rfl, ?_⟩
  ring

/-- A step along any segment, short of its end. -/
theorem advance_walkerAfter {k : Nat} (hk : k < segment.major) :
    segment.advance (segment.walkerAfter k) = segment.walkerAfter (k + 1) := by
  rw [walkerAfter, walkerAfter, units, units]
  split
  next hFlat =>
    have hMajor : segment.major = segment.width := max_eq_left hFlat
    exact_mod_cast advance_walkerAt_of_le hFlat (hMajor ▸ hk)
  next hSteep =>
    -- with the axes exchanged the segment is no higher than wide
    have hMajor : segment.major = segment.transpose.width := max_eq_right (by omega)
    have hFlat : segment.transpose.height ≤ segment.transpose.width := by
      show segment.width ≤ segment.height
      omega
    have hStep := advance_walkerAt_of_le hFlat (hMajor ▸ hk)
    rw [offset_transpose, offset_transpose] at hStep
    have hTransposed := congrArg Walker.transpose hStep
    rw [← advance_transpose, transpose_walkerAt, transpose_walkerAt] at hTransposed
    exact_mod_cast hTransposed

/-! ## Ends -/

theorem add_stepX_mul_eq_iff {units : Int} :
    segment.x0 + segment.stepX * units = segment.x1 ↔ units = segment.width := by
  unfold stepX width
  split <;> omega

theorem add_stepY_mul_eq_iff {units : Int} :
    segment.y0 + segment.stepY * units = segment.y1 ↔ units = segment.height := by
  unfold stepY height
  split <;> omega

theorem units_zero : segment.units 0 = (0, 0) := by
  rw [units, offset_zero]
  split <;> rfl

theorem units_major : segment.units segment.major = ((segment.width : Int), (segment.height : Int)) := by
  rcases segment.flat_or_steep with ⟨hMajor, hMinor, hUnits⟩ | ⟨hMajor, hMinor, hUnits⟩
  · rw [hUnits, offset_major, hMajor, hMinor]
  · rw [hUnits, offset_major, hMajor, hMinor]

/-- A walker stands on the end behind as many steps as the longer axis has units, and only then. -/
theorem isAtEnd_walkerAfter {k : Nat} :
    segment.isAtEnd (segment.walkerAfter k) = true ↔ k = segment.major := by
  have hEnd : segment.isAtEnd (segment.walkerAfter k) = true ↔
      segment.units k = ((segment.width : Int), (segment.height : Int)) := by
    rw [isAtEnd, walkerAfter, walkerAt, Bool.and_eq_true, decide_eq_true_eq, decide_eq_true_eq,
      add_stepX_mul_eq_iff, add_stepY_mul_eq_iff, Prod.ext_iff]
  rw [hEnd]
  constructor
  · intro h
    -- the longer axis counts the steps
    rcases segment.flat_or_steep with ⟨hMajor, -, hUnits⟩ | ⟨hMajor, -, hUnits⟩
    · rw [hUnits] at h
      have hWidth : (k : Int) = segment.width := congrArg Prod.fst h
      omega
    · rw [hUnits] at h
      have hHeight : (k : Int) = segment.height := congrArg Prod.snd h
      omega
  · rintro rfl
    exact units_major

/-- Where an axis has no units, it does not matter which way is taken along it. -/
theorem stepX_mul {units : Int} (h : 0 ≤ units) (h' : units ≤ segment.width) :
    segment.stepX * units = (segment.x1 - segment.x0).sign * units := by
  unfold width at h'
  unfold stepX
  rcases Int.lt_trichotomy segment.x0 segment.x1 with hLess | hEq | hGreater
  · rw [if_pos hLess, Int.sign_eq_one_of_pos (by omega)]
  · obtain rfl : units = 0 := by omega
    rw [Int.mul_zero, Int.mul_zero]
  · rw [if_neg (by omega), Int.sign_eq_neg_one_of_neg (by omega)]

theorem units_mem {k : Nat} (hk : k ≤ segment.major) :
    (0 ≤ (segment.units k).1 ∧ (segment.units k).1 ≤ segment.width) ∧
      0 ≤ (segment.units k).2 ∧ (segment.units k).2 ≤ segment.height := by
  obtain ⟨hLow, hHigh⟩ := offset_mem hk
  rcases segment.flat_or_steep with ⟨hMajor, hMinor, hUnits⟩ | ⟨hMajor, hMinor, hUnits⟩
  · rw [hUnits]
    dsimp only
    omega
  · rw [hUnits]
    dsimp only
    omega

theorem cell_walkerAfter {k : Nat} (hk : k ≤ segment.major) :
    ((segment.walkerAfter k).x, (segment.walkerAfter k).y) = segment.cellAfter k := by
  obtain ⟨⟨hX, hX'⟩, hY, hY'⟩ := units_mem hk
  have hStepY := segment.transpose.stepX_mul hY hY'
  rw [cellAfter, ← stepX_mul hX hX']
  exact congrArg _ (congrArg (segment.y0 + ·) hStepY)

/-! ## Walks -/

theorem IsTrail.unique {walker : Walker} {trail trail' : List (Int × Int)}
    (h : segment.IsTrail walker trail) (h' : segment.IsTrail walker trail') : trail = trail' := by
  induction h generalizing trail' with
  | atEnd hEnd =>
    cases h' with
    | atEnd => rfl
    | onWay hNotEnd => exact absurd hEnd hNotEnd
  | onWay hNotEnd _ ih =>
    cases h' with
    | atEnd hEnd => exact absurd hEnd hNotEnd
    | onWay _ hRest => rw [ih hRest]

/-- The walk that counts nothing comes to the end, by way of the cells behind each step. -/
theorem isTrail_walkerAfter {k left : Nat} (hLeft : k + left = segment.major) :
    segment.IsTrail (segment.walkerAfter k)
      ((List.range' k (left + 1)).map segment.cellAfter) := by
  have hCell : ((segment.walkerAfter k).x, (segment.walkerAfter k).y) = segment.cellAfter k :=
    cell_walkerAfter (by omega)
  induction left generalizing k with
  | zero =>
    rw [List.range'_one, List.map_singleton, ← hCell]
    exact .atEnd (isAtEnd_walkerAfter.mpr hLeft)
  | succ left ih =>
    have hNotEnd : ¬ segment.isAtEnd (segment.walkerAfter k) = true := by
      rw [isAtEnd_walkerAfter]
      omega
    rw [List.range'_succ, List.map_cons, ← hCell]
    refine .onWay hNotEnd ?_
    rw [advance_walkerAfter (by omega)]
    exact ih (by omega) (cell_walkerAfter (by omega))

/-- A walk that may take enough steps passes the cells of the one that counts nothing. -/
theorem cellsFrom_of_isTrail {walker : Walker} {trail : List (Int × Int)}
    (h : segment.IsTrail walker trail) {count : Nat} (hCount : trail.length ≤ count + 1)
    (cells : Array (Int × Int)) :
    (segment.cellsFrom count walker cells).toList = cells.toList ++ trail := by
  induction h generalizing count cells with
  | atEnd hEnd =>
    cases count with
    | zero => rw [cellsFrom, Array.toList_push]
    | succ count => rw [cellsFrom, if_pos hEnd, Array.toList_push]
  | onWay hNotEnd hRest ih =>
    cases count with
    | zero =>
      -- a trail that is not at the end has a second cell
      cases hRest <;> simp at hCount
    | succ count =>
      rw [cellsFrom, if_neg hNotEnd, ih (by simpa using hCount), Array.toList_push,
        List.append_assoc, List.singleton_append]

theorem isTrail_start :
    segment.IsTrail segment.start ((List.range (segment.major + 1)).map segment.cellAfter) := by
  have hStart : segment.start = segment.walkerAfter 0 := by
    simp [walkerAfter, units_zero, walkerAt, start]
  rw [hStart, List.range_eq_range']
  exact isTrail_walkerAfter (Nat.zero_add _)

theorem cells_eq :
    segment.cells.toList = (List.range (segment.major + 1)).map segment.cellAfter := by
  rw [cells, cellsFrom_of_isTrail isTrail_start (by simp [major]), Array.toList_empty,
    List.nil_append]

/-! ## Cells -/

theorem cellAfter_zero : segment.cellAfter 0 = (segment.x0, segment.y0) := by
  simp [cellAfter, units_zero]

theorem cellAfter_major : segment.cellAfter segment.major = (segment.x1, segment.y1) := by
  have hX : (segment.x1 - segment.x0).sign * segment.width = segment.x1 - segment.x0 :=
    Int.sign_mul_natAbs _
  have hY : (segment.y1 - segment.y0).sign * segment.height = segment.y1 - segment.y0 :=
    Int.sign_mul_natAbs _
  rw [cellAfter, units_major]
  simp only [hX, hY]
  simp

/-- A step takes one unit of the longer axis, and none or one of the other. -/
theorem units_succ (hMajor : 0 < segment.major) (k : Nat) :
    ((segment.units k).1 ≤ (segment.units (k + 1)).1 ∧
        (segment.units (k + 1)).1 ≤ (segment.units k).1 + 1) ∧
      (segment.units k).2 ≤ (segment.units (k + 1)).2 ∧
        (segment.units (k + 1)).2 ≤ (segment.units k).2 + 1 := by
  have hOffset := offset_succ hMajor k
  rcases segment.flat_or_steep with ⟨-, -, hUnits⟩ | ⟨-, -, hUnits⟩ <;>
    · rw [hUnits, hUnits]
      dsimp only
      omega

/-- No cell is passed twice, since every step takes a unit of the longer axis. -/
theorem cellAfter_injective (hMajor : 0 < segment.major) : Function.Injective segment.cellAfter := by
  intro k k' h
  have hX := congrArg Prod.fst h
  have hY := congrArg Prod.snd h
  simp only [cellAfter, add_right_inj] at hX hY
  rcases segment.flat_or_steep with ⟨hWidth, -, hUnits⟩ | ⟨hHeight, -, hUnits⟩
  · rw [hUnits, hUnits] at hX
    have hSign : (segment.x1 - segment.x0).sign ≠ 0 := by
      rw [Ne, Int.sign_eq_zero_iff_zero]
      unfold width at hWidth
      omega
    have hSteps : (k : Int) = k' := Int.eq_of_mul_eq_mul_left hSign hX
    exact_mod_cast hSteps
  · rw [hUnits, hUnits] at hY
    have hSign : (segment.y1 - segment.y0).sign ≠ 0 := by
      rw [Ne, Int.sign_eq_zero_iff_zero]
      unfold height at hHeight
      omega
    have hSteps : (k : Int) = k' := Int.eq_of_mul_eq_mul_left hSign hY
    exact_mod_cast hSteps

theorem isKingMove_cellAfter (hMajor : 0 < segment.major) (k : Nat) :
    IsKingMove (segment.cellAfter k) (segment.cellAfter (k + 1)) := by
  obtain ⟨⟨hX, hX'⟩, hY, hY'⟩ := units_succ hMajor k
  -- a direction times one unit at most is one unit at most
  have hNear : ∀ sign start units units' : Int, sign.natAbs ≤ 1 → units ≤ units' → units' ≤ units + 1 →
      (start + sign * units' - (start + sign * units)).natAbs ≤ 1 := by
    intro sign start units units' hSign hLow hHigh
    have hProduct : start + sign * units' - (start + sign * units) = sign * (units' - units) := by ring
    rw [hProduct, Int.natAbs_mul]
    have hUnits : (units' - units).natAbs ≤ 1 := by omega
    exact Nat.mul_le_mul hSign hUnits
  have hSign : ∀ z : Int, z.sign.natAbs ≤ 1 := by
    intro z
    rw [Int.natAbs_sign]
    split <;> omega
  refine ⟨?_, hNear _ _ _ _ (hSign _) hX hX', hNear _ _ _ _ (hSign _) hY hY'⟩
  exact fun h => absurd (cellAfter_injective hMajor h) (by omega)

theorem bounds_cellAfter {k : Nat} (hk : k ≤ segment.major) : segment.Bounds (segment.cellAfter k) := by
  obtain ⟨⟨hX, hX'⟩, hY, hY'⟩ := units_mem hk
  have hBetween : ∀ start finish units : Int, 0 ≤ units → units ≤ (finish - start).natAbs →
      min start finish ≤ start + (finish - start).sign * units ∧
        start + (finish - start).sign * units ≤ max start finish := by
    intro start finish units hLow hHigh
    rcases Int.lt_trichotomy start finish with hLess | rfl | hGreater
    · rw [Int.sign_eq_one_of_pos (by omega)]
      omega
    · simp
    · rw [Int.sign_eq_neg_one_of_neg (by omega)]
      omega
  exact ⟨hBetween _ _ _ hX hX', hBetween _ _ _ hY hY'⟩

/-- A walk that counts nothing comes to the end of every segment, and passes its cells, one more than
the longer axis has units; each of them is the one in closed form. They lead from end to end, by the
moves of a king, without coming to a cell twice or leaving the rectangle between the ends. -/
theorem cells_exact (segment : Segment) :
    (∀ trail, segment.IsTrail segment.start trail ↔ trail = segment.cells.toList) ∧
    segment.cells.size = segment.major + 1 ∧
    segment.cells.toList = (List.range (segment.major + 1)).map segment.cellAfter ∧
    segment.cells[0]? = some (segment.x0, segment.y0) ∧
    segment.cells[segment.major]? = some (segment.x1, segment.y1) ∧
    segment.cells.toList.IsChain IsKingMove ∧ segment.cells.toList.Nodup ∧
    ∀ cell ∈ segment.cells, segment.Bounds cell := by
  refine ⟨?_, ?_, cells_eq, ?_, ?_, ?_, ?_, ?_⟩
  · intro trail
    rw [cells_eq]
    constructor
    · exact fun hTrail => hTrail.unique isTrail_start
    · rintro rfl
      exact isTrail_start
  · rw [← Array.length_toList, cells_eq]
    simp
  · rw [← Array.getElem?_toList, cells_eq]
    simp [cellAfter_zero]
  · rw [← Array.getElem?_toList, cells_eq]
    simp [cellAfter_major]
  · rw [cells_eq, List.isChain_iff_getElem]
    intro i hi
    simp only [List.length_map, List.length_range] at hi
    simpa using isKingMove_cellAfter (by omega) i
  · rw [cells_eq]
    rcases Nat.eq_zero_or_pos segment.major with hMajor | hMajor
    · simp [hMajor]
    · exact List.nodup_range.map (cellAfter_injective hMajor)
  · intro cell hCell
    rw [← Array.mem_toList_iff, cells_eq] at hCell
    obtain ⟨k, hk, rfl⟩ := List.mem_map.mp hCell
    exact bounds_cellAfter (Nat.le_of_lt_succ (List.mem_range.mp hk))

/-- A segment that goes down and to the left, on which two cells are equally near to the line. -/
theorem cells_exact_of_tie :
    let segment : Segment := ⟨0, 0, -1, -2⟩
    segment.IsTrail segment.start [(0, 0), (0, -1), (-1, -2)] ∧
      (0, -1) ∈ segment.cells ∧ segment.Bounds (0, -1) := by
  intro segment
  obtain ⟨hTrail, -, -, -, -, -, -, hBounds⟩ := cells_exact segment
  have hCells : segment.cells.toList = [(0, 0), (0, -1), (-1, -2)] := by decide +kernel
  have hCell : (0, -1) ∈ segment.cells := by decide +kernel
  exact ⟨(hTrail _).mpr hCells.symm, hCell, hBounds _ hCell⟩

end DesignByNumbers.Segment
