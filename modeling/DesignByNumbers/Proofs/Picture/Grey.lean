import Mathlib.Algebra.Order.Field.Basic
import Mathlib.Data.Rat.Cast.Order
import Mathlib.Tactic.NormNum
import DesignByNumbers.Picture.Grey
import DesignByNumbers.Proofs.Picture

/-!
# Proofs.Picture.Grey — light and dark among the 64-bit integers

An intensity is made from the difference between the extent of the canvas and a colour. For almost
all colours that are 64-bit integers this difference is one again, and the intensity is what it
should be: it falls from white to black between colour nought and colour one hundred, and stays there
on both sides. The least of these integers make an exception. Of them the difference wraps around, so
that cells which should be white are black.

* `intensity_eq_lightness`, `intensity_of_le` — the two cases.
* `lightness_anti` — the larger the colour, the darker.
* `exists_greyImage` — pictures whose colours are 64-bit integers.
* `greyImage_lightness` — the intensities of all cells.
-/

namespace DesignByNumbers.Picture

/-- The intensity that a colour should have: its distance from the extent of the canvas as a share of
that extent, brought between nought and one. -/
def lightness (colour : Int) : Rat :=
  max 0 (min 1 (((Canvas.extent - colour : Int) : Rat) / (Canvas.extent : Rat)))

/-! ## Single colours -/

section Colour

variable {colour : Int}

theorem extent_pos : (0 : Rat) < (Canvas.extent : Rat) := by
  norm_num [Canvas.extent]

theorem clip_eq (x : Rat) : clip x = max 0 (min 1 x) := by
  unfold clip
  split
  next hLow => rw [max_eq_left (le_trans (min_le_right 1 x) (le_of_lt hLow))]
  next hLow =>
    have hNonneg : 0 ≤ x := not_lt.mp hLow
    split
    next hHigh => rw [min_eq_left (le_of_lt hHigh), max_eq_right zero_le_one]
    next hHigh => rw [min_eq_right (not_lt.mp hHigh), max_eq_right hNonneg]

theorem isWord_iff : isWord colour = true ↔ -wordBound ≤ colour ∧ colour < wordBound := by
  simp [isWord]

/-- A 64-bit integer stands for itself. -/
theorem wrapWord_of_isWord (h : isWord colour = true) : wrapWord colour = colour := by
  obtain ⟨hLow, hHigh⟩ := isWord_iff.mp h
  unfold wordBound at hLow hHigh
  exact Int.bmod_eq_of_le (by omega) (by omega)

/-- Where the difference is a 64-bit integer, the intensity is what it should be. -/
theorem intensity_eq_lightness (h : isWord colour = true) (hAbove : Canvas.extent - wordBound < colour) :
    intensity colour = lightness colour := by
  obtain ⟨-, hHigh⟩ := isWord_iff.mp h
  have hWord : isWord (Canvas.extent - colour) = true := by
    refine isWord_iff.mpr ⟨?_, by omega⟩
    unfold Canvas.extent
    omega
  rw [intensity, wrapWord_of_isWord hWord, clip_eq, lightness]

/-- Where the difference exceeds the 64-bit integers, it comes out negative. -/
theorem intensity_of_le (h : isWord colour = true) (hBelow : colour ≤ Canvas.extent - wordBound) :
    intensity colour = 0 := by
  obtain ⟨hLow, -⟩ := isWord_iff.mp h
  unfold wordBound at hLow hBelow
  unfold Canvas.extent at hBelow
  have hNegative : wrapWord (Canvas.extent - colour) < 0 := by
    -- the difference is less than twice the bound, so that it wraps around once
    have hWrap : wrapWord (Canvas.extent - colour) = Canvas.extent - colour - 18446744073709551616 := by
      refine (Int.bmod_eq_iff (by decide)).mpr ⟨?_, ?_, ⟨-1, ?_⟩⟩ <;> unfold Canvas.extent <;> omega
    rw [hWrap]
    unfold Canvas.extent
    omega
  have hQuotient : (wrapWord (Canvas.extent - colour) : Rat) / (Canvas.extent : Rat) < 0 :=
    div_neg_of_neg_of_pos (by exact_mod_cast hNegative) extent_pos
  rw [intensity, clip, if_pos hQuotient]

/-- The larger the colour, the darker. -/
theorem lightness_anti {colour' : Int} (h : colour ≤ colour') : lightness colour' ≤ lightness colour := by
  have hDistance : ((Canvas.extent - colour' : Int) : Rat) ≤ ((Canvas.extent - colour : Int) : Rat) := by
    exact_mod_cast Int.sub_le_sub_left h Canvas.extent
  exact max_le_max_left 0 (min_le_min_left 1 (div_le_div_of_nonneg_right hDistance (le_of_lt extent_pos)))

theorem lightness_of_nonpos (h : colour ≤ 0) : lightness colour = 1 := by
  have hDistance : Canvas.extent ≤ Canvas.extent - colour := by omega
  have hShare : 1 ≤ ((Canvas.extent - colour : Int) : Rat) / (Canvas.extent : Rat) := by
    rw [le_div_iff₀ extent_pos, one_mul]
    exact_mod_cast hDistance
  rw [lightness, min_eq_left hShare, max_eq_right zero_le_one]

theorem lightness_of_extent_le (h : Canvas.extent ≤ colour) : lightness colour = 0 := by
  have hDistance : Canvas.extent - colour ≤ 0 := by omega
  have hShare : ((Canvas.extent - colour : Int) : Rat) / (Canvas.extent : Rat) ≤ 0 :=
    div_nonpos_of_nonpos_of_nonneg (by exact_mod_cast hDistance) (le_of_lt extent_pos)
  rw [lightness, max_eq_left (le_trans (min_le_right 1 _) hShare)]

/-- The intensity of a 64-bit integer is what it should be, unless it is one of the least ones. -/
theorem intensity_eq_lightness_iff (h : isWord colour = true) :
    intensity colour = lightness colour ↔ Canvas.extent - wordBound < colour := by
  refine ⟨fun hSame => ?_, intensity_eq_lightness h⟩
  by_contra hBelow
  -- down there a colour should be white, and it comes out black
  have hLight : lightness colour = 1 := by
    refine lightness_of_nonpos ?_
    unfold Canvas.extent wordBound at hBelow
    omega
  rw [intensity_of_le h (not_lt.mp hBelow), hLight] at hSame
  exact zero_ne_one hSame

end Colour

/-! ## Images -/

variable {picture : Picture}

/-- A picture whose colours are all 64-bit integers has them in its cells. -/
theorem exists_colours (h : ∀ row column, ∃ value,
      Numeral.parse? (picture.colourAt row column) = some value ∧ isWord value = true) :
    ∃ values, picture.colours = .ok values ∧
      ∀ row column, Numeral.parse? (picture.colourAt row column) = some (values.get (place row column)) := by
  let values := picture.resolved.map fun text => (Numeral.parse? text).getD 0
  have hValues : ∀ i : Fin (side * side), Numeral.parse? picture.resolved[i] = some values[i] ∧
      isWord values[i] = true := by
    intro i
    obtain ⟨row, column, rfl⟩ := exists_place i
    obtain ⟨value, hValue, hWord⟩ := h row column
    rw [colourAt] at hValue
    simp only [values, Fin.getElem_fin, Vector.getElem_map] at hValue ⊢
    rw [hValue]
    exact ⟨rfl, hWord⟩
  have hParsed : picture.mapResolved Numeral.parse? = values.map some := by
    rw [mapResolved_eq]
    refine Vector.ext fun i hi => ?_
    rw [Vector.getElem_map, Vector.getElem_map]
    exact (hValues ⟨i, hi⟩).1
  have hAll : (picture.mapResolved Numeral.parse?).mapM id = some values := by
    rw [hParsed, Vector.mapM_map]
    exact (Vector.mapM_pure id).trans (congrArg some (Vector.map_id values))
  have hWords : values.all isWord = true := by
    rw [Vector.all_eq_true]
    exact fun i hi => (hValues ⟨i, hi⟩).2
  refine ⟨values, ?_, fun row column => (hValues (place row column)).1⟩
  rw [colours, hAll]
  exact if_pos hWords

/-- Such a picture has an image, cell by cell. -/
theorem exists_greyImage (h : ∀ row column, ∃ value,
      Numeral.parse? (picture.colourAt row column) = some value ∧ isWord value = true) :
    ∃ image, picture.greyImage = .ok image ∧
      ∀ row column value, Numeral.parse? (picture.colourAt row column) = some value →
        image.get (place row column) = Precision.round Precision.single (intensity value) := by
  obtain ⟨values, hColours, hValues⟩ := exists_colours h
  refine ⟨values.map fun value => Precision.round Precision.single (intensity value), ?_,
    fun row column value hValue => ?_⟩
  · rw [greyImage, hColours]
    rfl
  have hPlace : values.get (place row column) = value :=
    Option.some.inj ((hValues row column).symm.trans hValue)
  rw [← hPlace]
  exact Vector.getElem_map ..

/-- An image whose colours are 64-bit integers has the intensities in single precision that its
colours should have, except for the least of these integers, which come out black instead of white.
Above these, colours from nought down are white, those from the extent of the canvas on are black,
and a larger colour is never lighter. -/
theorem greyImage_lightness (h : ∀ row column, ∃ value,
      Numeral.parse? (picture.colourAt row column) = some value ∧ isWord value = true) :
    ∃ image, picture.greyImage = .ok image ∧
      ∀ row column value, Numeral.parse? (picture.colourAt row column) = some value →
        image.get (place row column) = Precision.round Precision.single (intensity value) ∧
        (intensity value = lightness value ↔ Canvas.extent - wordBound < value) ∧
        (value ≤ Canvas.extent - wordBound → intensity value = 0) ∧
        (Canvas.extent - wordBound < value → value ≤ 0 → intensity value = 1) ∧
        (Canvas.extent ≤ value → intensity value = 0) ∧
        ∀ row' column' value', Numeral.parse? (picture.colourAt row' column') = some value' →
          Canvas.extent - wordBound < value → value ≤ value' → intensity value' ≤ intensity value := by
  obtain ⟨image, hImage, hCells⟩ := exists_greyImage h
  -- the hypothesis gives each cell some number, which is the one that its text denotes
  have hWord : ∀ {row column value}, Numeral.parse? (picture.colourAt row column) = some value →
      isWord value = true := by
    intro row column value hValue
    obtain ⟨value', hValue', hWord⟩ := h row column
    obtain rfl := Option.some.inj (hValue.symm.trans hValue')
    exact hWord
  refine ⟨image, hImage, fun row column value hValue => ?_⟩
  have hSelf := hWord hValue
  refine ⟨hCells row column value hValue, intensity_eq_lightness_iff hSelf,
    intensity_of_le hSelf, fun hAbove hLow => ?_, fun hHigh => ?_,
    fun row' column' value' hValue' hAbove hLe => ?_⟩
  · rw [intensity_eq_lightness hSelf hAbove, lightness_of_nonpos hLow]
  · have hAbove : Canvas.extent - wordBound < value := by
      unfold Canvas.extent wordBound at *
      omega
    rw [intensity_eq_lightness hSelf hAbove, lightness_of_extent_le hHigh]
  · rw [intensity_eq_lightness hSelf hAbove,
      intensity_eq_lightness (hWord hValue') (lt_of_lt_of_le hAbove hLe)]
    exact lightness_anti hLe

/-- A paper of the least 64-bit integer is black, and a dot on it is lighter. -/
theorem greyImage_lightness_dot :
    let picture := (blank.withBackground "-9223372036854775808").paint 3 4 "30"
    (∀ row column, ∃ value,
      Numeral.parse? (picture.colourAt row column) = some value ∧ isWord value = true) ∧
    ∃ image, picture.greyImage = .ok image ∧
      image.get (place 4 3) = Precision.round Precision.single (7 / 10) ∧
      image.get (place 0 0) = Precision.round Precision.single 0 := by
  intro picture
  have hColour : ∀ row column, picture.colourAt row column =
      if ((column : Int), (row : Int)) = (3, 4) then "30" else "-9223372036854775808" := by
    intro row column
    rw [colourAt_eq, cellAt_paint, cellAt_withBackground, cellAt_blank]
    split <;> rfl
  have hPaper : Numeral.parse? "-9223372036854775808" = some (-wordBound) := by decide +kernel
  have hDot : Numeral.parse? "30" = some 30 := by decide +kernel
  have hWords : ∀ row column, ∃ value,
      Numeral.parse? (picture.colourAt row column) = some value ∧ isWord value = true := by
    intro row column
    rw [hColour]
    split
    · exact ⟨30, hDot, by decide⟩
    · exact ⟨-wordBound, hPaper, by decide⟩
  obtain ⟨image, hImage, hCells⟩ := greyImage_lightness hWords
  obtain ⟨hDark, hLight, -⟩ := hCells 4 3 30 (by rw [hColour]; exact hDot)
  obtain ⟨hBlack, -, hLeast, -⟩ := hCells 0 0 (-wordBound) (by rw [hColour]; exact hPaper)
  have hShare : lightness 30 = 7 / 10 := by norm_num [lightness, Canvas.extent]
  refine ⟨hWords, image, hImage, ?_, ?_⟩
  · rw [hDark, hLight.mpr (by decide), hShare]
  · rw [hBlack, hLeast (by decide)]

/-- The picture of a paper of the least 64-bit integer has no other colour, which should be white and
is black, and so it is darker than a larger one. -/
theorem not_lightness_of_leastWord :
    ∃ picture image, ofTrace [.background "-9223372036854775808"] = .ok picture ∧
      (∀ row column, Numeral.parse? (picture.colourAt row column) = some (-wordBound)) ∧
      isWord (-wordBound) = true ∧ picture.greyImage = .ok image ∧
      (∀ row column, image.get (place row column) = Precision.round Precision.single 0) ∧
      lightness (-wordBound) = 1 ∧ intensity (-wordBound) < intensity 0 := by
  have hPaper : Numeral.parse? "-9223372036854775808" = some (-wordBound) := by decide +kernel
  have hWord : isWord (-wordBound) = true := by decide
  have hColour : ∀ row column, Numeral.parse?
      ((blank.withBackground "-9223372036854775808").colourAt row column) = some (-wordBound) := by
    intro row column
    rw [colourAt_eq, cellAt_withBackground, cellAt_blank]
    exact hPaper
  have hZero : intensity (-wordBound) = 0 := intensity_of_le hWord (by decide)
  obtain ⟨image, hImage, hCells⟩ :=
    exists_greyImage fun row column => ⟨-wordBound, hColour row column, hWord⟩
  refine ⟨_, image, rfl, hColour, hWord, hImage, fun row column => ?_,
    lightness_of_nonpos (by decide), ?_⟩
  · rw [hCells row column (-wordBound) (hColour row column), hZero]
  · rw [hZero, intensity_eq_lightness (by decide) (by decide), lightness_of_nonpos (le_refl 0)]
    exact zero_lt_one

end DesignByNumbers.Picture
