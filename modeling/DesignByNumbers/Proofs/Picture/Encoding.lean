import Mathlib.Tactic.Choose
import DesignByNumbers.Picture.Encoding
import DesignByNumbers.Proofs.Picture

/-!
# Proofs.Picture.Encoding — when a picture has a text

A picture is written row by row, and every cell on its own. It has a text when the colours of
all cells have one.

* `rows_eq` — the cells of a grid, row by row.
* `encode?_eq_some`, `exists_encode?` — a picture whose cells have texts.
-/

namespace DesignByNumbers.Picture

variable {picture : Picture}

/-- The cells of a grid in rows, each under its row and its column. -/
theorem rows_eq {α : Type} (cells : Vector α (side * side)) :
    rows cells = List.ofFn fun row => List.ofFn fun column => cells.get (place row column) := by
  refine List.ext_getElem (by simp [rows]) fun i hi _ => ?_
  have hRow : i < side := by simpa [rows] using hi
  -- no row is cut short at the end of the grid
  have hEnd : side * (i + 1) ≤ side * side := Nat.mul_le_mul_left side hRow
  have hWidth : side * (i + 1) = side * i + side := Nat.mul_succ side i
  simp only [rows, List.getElem_map, List.getElem_range, List.getElem_ofFn]
  refine List.ext_getElem ?_ fun j hj _ => ?_
  · rw [Array.length_toList, Array.size_extract, Vector.size_toArray, List.length_ofFn]
    omega
  · simp [place, index, Vector.get]

/-- What has an image for each of its items has an image as a whole. -/
theorem mapM_ofFn {α β : Type} {n : Nat} {items : Fin n → α} {f : α → Option β} {images : Fin n → β}
    (h : ∀ i, f (items i) = some (images i)) : (List.ofFn items).mapM f = some (List.ofFn images) := by
  induction n with
  | zero => rfl
  | succ n ih =>
    rw [List.ofFn_succ, List.ofFn_succ, List.mapM_cons, h 0, ih fun i => h i.succ]
    rfl

/-- The text of a picture is made of the texts of its cells. -/
theorem encode?_eq_some {encoding : Encoding} {texts : Fin side → Fin side → String}
    (h : ∀ row column, encoding.cell? (picture.colourAt row column) = some (texts row column)) :
    picture.encode? encoding =
      some (String.join (List.ofFn fun row => String.join (List.ofFn (texts row)) ++ "\n")) := by
  have hRow : ∀ row, (do
      let texts ← (List.ofFn fun column =>
        (picture.mapResolved encoding.cell?).get (place row column)).mapM id
      return String.join texts ++ "\n") = some (String.join (List.ofFn (texts row)) ++ "\n") := by
    intro row
    have hTexts : (List.ofFn fun column =>
        (picture.mapResolved encoding.cell?).get (place row column)).mapM id =
          some (List.ofFn (texts row)) := by
      refine mapM_ofFn fun column => ?_
      rw [mapResolved_eq]
      exact (Vector.getElem_map ..).trans (h row column)
    rw [hTexts]
    rfl
  rw [encode?, rows_eq, mapM_ofFn hRow]
  rfl

/-- A picture has a text when the colours of all cells have one. -/
theorem exists_encode? {encoding : Encoding}
    (h : ∀ row column, ∃ text, encoding.cell? (picture.colourAt row column) = some text) :
    ∃ text, picture.encode? encoding = some text := by
  choose texts hTexts using h
  exact ⟨_, encode?_eq_some hTexts⟩

end DesignByNumbers.Picture
