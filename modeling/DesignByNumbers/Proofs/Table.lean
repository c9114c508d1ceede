import Mathlib.Data.List.Forall2
import Mathlib.Data.List.Nodup
import DesignByNumbers.Proofs.NameMap
import DesignByNumbers.Proofs.Numeral
import DesignByNumbers.Proofs.Reader
import DesignByNumbers.Table.Separated

/-!
# Proofs.Table — rows and columns of tables

A column has a cell for each of its fields, whatever the fields are taken for, so that a table that
is read from a text has one row for each record. Its rows are numbered unless a record has more
fields than there are names.

* `length_cells_ofFields` — a column has as many cells as fields.
* `isRectangular_of_parse`, `isNumbered_of_parse` — the rows of a table that is read from a text.
* `cells_withColumn`, `filter_withColumn` — a column that is put into a table leaves the others alone.
-/

namespace DesignByNumbers

/-- What is done to the items of a list succeeds if it does for each of them. -/
theorem Except.forall₂_of_mapM {ε α β : Type} {f : α → Except ε β} {items : List α}
    {images : List β} (h : items.mapM f = .ok images) :
    List.Forall₂ (fun item image => f item = .ok image) items images := by
  induction items generalizing images with
  | nil =>
    cases h
    exact .nil
  | cons item rest ih =>
    rw [List.mapM_cons, Except.bind_eq_ok_iff] at h
    obtain ⟨image, hItem, h⟩ := h
    obtain ⟨others, hRest, h⟩ := Except.bind_eq_ok_iff.mp h
    cases h
    exact .cons hItem (ih hRest)

theorem Except.exists_of_mapM_error {ε α β : Type} {f : α → Except ε β} {items : List α} {error : ε}
    (h : items.mapM f = .error error) : ∃ item ∈ items, f item = .error error := by
  induction items with
  | nil => cases h
  | cons item rest ih =>
    rw [List.mapM_cons] at h
    cases hItem : f item with
    | error other =>
      rw [hItem] at h
      cases h
      exact ⟨item, List.mem_cons_self .., hItem⟩
    | ok image =>
      cases hRest : rest.mapM f with
      | error other =>
        rw [hItem, hRest] at h
        cases h
        obtain ⟨other, hOther, hError⟩ := ih hRest
        exact ⟨other, List.mem_cons_of_mem _ hOther, hError⟩
      | ok others =>
        rw [hItem, hRest] at h
        cases h

theorem Except.map_eq_ok_iff {ε α β : Type} {f : α → β} {result : Except ε α} {image : β} :
    f <$> result = .ok image ↔ ∃ value, result = .ok value ∧ f value = image := by
  cases result <;> simp [Functor.map, Except.map]

theorem Except.map_eq_error_iff {ε α β : Type} {f : α → β} {result : Except ε α} {error : ε} :
    f <$> result = .error error ↔ result = .error error := by
  cases result <;> simp [Functor.map, Except.map]

/-- What stands in a place of a list is related to what stands in the same place of the other. -/
theorem exists_getElem?_of_forall₂ {α β : Type} {R : α → β → Prop} {items : List α} {images : List β}
    (h : List.Forall₂ R items images) {i : Nat} {item : α} (hItem : items[i]? = some item) :
    ∃ image, images[i]? = some image ∧ R item image := by
  induction h generalizing i with
  | nil => cases hItem
  | @cons first image rest others hFirst _ ih =>
    cases i with
    | zero =>
      cases hItem
      exact ⟨image, rfl, hFirst⟩
    | succ i => exact ih hItem

namespace Column

/-! ## The cells of a column -/

theorem length_cells_ofTexts (texts : List String) : (ofTexts texts).cells.length = texts.length :=
  List.length_map _

theorem length_cells_ofPresent (fields : List (Option String)) :
    (ofPresent fields).cells.length = fields.length :=
  List.length_map _

theorem length_cellsOf? {read : String → Option Cell} {fields : List (Option String)}
    {cells : List Cell} (h : cellsOf? read fields = some cells) : cells.length = fields.length := by
  rw [cellsOf?] at h
  induction fields generalizing cells with
  | nil =>
    cases h
    rfl
  | cons field rest ih =>
    simp only [List.mapM_cons, Option.bind_eq_bind, Option.bind_eq_some_iff] at h
    obtain ⟨cell, -, others, hRest, hCells⟩ := h
    cases hCells
    rw [List.length_cons, List.length_cons, ih hRest]

/-- Integers fill a column if none of them is missing. -/
theorem length_integers {values : List (Option Int)} (h : ∀ value ∈ values, value.isSome = true) :
    (values.filterMap (·.map Cell.integer)).length = values.length := by
  rw [List.filterMap_length_eq_length]
  intro value hValue
  rw [Option.isSome_map]
  exact h value hValue

theorem length_cells_ofIntegers (values : List (Option Int)) :
    (ofIntegers values).cells.length = values.length := by
  rw [ofIntegers]
  split
  next hAll => exact length_integers (List.all_eq_true.mp hAll)
  next => exact List.length_map _

theorem length_cells_ofOthers (fields : List (Option String)) :
    (ofOthers fields).cells.length = fields.length := by
  rw [ofOthers]
  split
  next hReals => exact length_cellsOf? hReals
  next hBooleans => exact length_cellsOf? hBooleans
  next => exact length_cells_ofPresent fields

/-- What lies beyond the integers with a sign and has no minus sign lies above them. -/
theorem greatestInteger_lt_of_integer {field : String} {value : Int} (hMinus : hasMinus field = false)
    (hSigned : integer leastInteger greatestInteger field = .error .beyond)
    (hUnsigned : integer 0 greatestUnsigned field = .ok value) : greatestInteger < value := by
  have hSign : (Text.splitSign (field.toList.dropWhile Text.isAsciiBlank)).1 = false := by
    rw [hasMinus] at hMinus
    generalize field.toList.dropWhile Text.isAsciiBlank = text at hMinus
    rw [Text.splitSign.eq_def]
    split
    next => simp at hMinus
    next => rfl
    next => rfl
  simp only [integer, hSign, Bool.false_eq_true, if_false] at hSigned hUnsigned
  generalize (Numeral.ofAsciiDigits _ : Nat) = size at hSigned hUnsigned
  -- without a minus sign only the upper bound can be passed
  have hLeast : ¬ (size : Int) < leastInteger := by
    rw [leastInteger]
    omega
  split at hSigned
  next => cases hSigned
  next hDigits =>
    rw [if_neg hDigits] at hUnsigned
    split at hSigned
    next hBeyond =>
      split at hUnsigned
      next => cases hUnsigned
      next =>
        split at hUnsigned
        next =>
          cases hUnsigned
          exact hBeyond.resolve_left hLeast
        next => cases hUnsigned
    next => split at hSigned <;> cases hSigned

theorem eq_of_present? {field content : String} (h : present? field = some content) :
    content = field := by
  rw [present?] at h
  split at h
  next => cases h
  next => exact (Option.some.inj h).symm

/-- Of fields without minus signs that are not all integers with a sign, but all integers without
one, some need the place of the sign. -/
theorem any_greatestInteger_lt {fields : List String} {values : List (Option Int)}
    (hMinus : fields.any hasMinus = false)
    (hSigned : (fields.map present?).mapM
      (fun field => field.mapM (integer leastInteger greatestInteger)) = .error .beyond)
    (hUnsigned : (fields.map present?).mapM (fun field => field.mapM unsigned) = .ok values) :
    values.any (fun value => value.any (greatestInteger < ·)) = true := by
  obtain ⟨present, hPresent, hBeyond⟩ := Except.exists_of_mapM_error hSigned
  obtain ⟨i, hPlace⟩ := List.mem_iff_getElem?.mp hPresent
  obtain ⟨value, hRead, hValue⟩ :=
    exists_getElem?_of_forall₂ (Except.forall₂_of_mapM hUnsigned) hPlace
  obtain ⟨field, hField, rfl⟩ := List.mem_map.mp hPresent
  have hNoMinus : hasMinus field = false :=
    Bool.eq_false_iff.mpr (List.any_eq_false.mp hMinus field hField)
  -- the field that lies beyond is not missing, and its value is one of those that were read
  cases hContent : present? field with
  | none =>
    rw [hContent] at hBeyond
    cases hBeyond
  | some content =>
    obtain rfl := eq_of_present? hContent
    rw [hContent, Option.mapM_some, Except.map_eq_error_iff] at hBeyond
    rw [hContent, Option.mapM_some, Except.map_eq_ok_iff] at hValue
    obtain ⟨size, hSize, rfl⟩ := hValue
    rw [unsigned, hNoMinus, if_neg Bool.false_ne_true] at hSize
    have hAbove := greatestInteger_lt_of_integer hNoMinus hBeyond hSize
    exact List.any_eq_true.mpr ⟨some size, List.mem_of_getElem? hRead, decide_eq_true hAbove⟩

theorem length_cells_ofLargeIntegers {fields : List String} {values : List (Option Int)}
    (hLength : values.length = fields.length)
    (hPlace : fields.any hasMinus = false →
      values.any (fun value => value.any (greatestInteger < ·)) = true) :
    (ofLargeIntegers fields values).cells.length = fields.length := by
  simp only [ofLargeIntegers]
  split
  next => exact length_cells_ofTexts fields
  next hMissing =>
    split
    next =>
      rw [length_cells_ofPresent, List.length_map]
    next hMinus =>
      -- some value needs the place of the sign, so that none of them may be missing here
      rw [Bool.not_eq_true] at hMinus
      rw [hPlace hMinus, hMinus] at hMissing
      have hNone : none ∉ values := by simpa using hMissing
      rw [← hLength]
      exact length_integers fun value hValue => Option.isSome_iff_ne_none.mpr (hNone <| · ▸ hValue)

/-- A column has as many cells as fields. -/
theorem length_cells_ofFields (fields : List String) :
    (ofFields fields).cells.length = fields.length := by
  have hPresent : (fields.map present?).length = fields.length := List.length_map _
  simp only [ofFields]
  split
  next values hValues =>
    rw [length_cells_ofIntegers, ← (Except.forall₂_of_mapM hValues).length_eq, hPresent]
  next => rw [length_cells_ofOthers, hPresent]
  next hSigned =>
    split
    next values hValues =>
      refine length_cells_ofLargeIntegers ?_ fun hMinus => ?_
      · rw [← (Except.forall₂_of_mapM hValues).length_eq, hPresent]
      · exact any_greatestInteger_lt hMinus hSigned hValues
    next => rw [length_cells_ofOthers, hPresent]
    next => rw [length_cells_ofPresent, hPresent]

theorem length_toRows {count : Nat} {columns : List Column}
    (h : ∀ column ∈ columns, column.cells.length = count) :
    (toRows count columns).length = count := by
  induction columns with
  | nil => exact List.length_replicate
  | cons column rest ih =>
    obtain ⟨hColumn, hRest⟩ := List.forall_mem_cons.mp h
    have hRows : (toRows count rest).length = count := ih hRest
    show (column.cells.zipWith (· :: ·) (toRows count rest)).length = count
    rw [List.length_zipWith, hColumn, hRows, Nat.min_self]

end Column

namespace Table

/-! ## Tables that are read -/

/-- Every column has a cell for every row. -/
def IsRectangular (table : Table) : Prop :=
  ∀ entry ∈ table.columns.toList, entry.2.cells.length = table.labels.length

/-- The rows are numbered from zero. -/
def IsNumbered (table : Table) : Prop :=
  table.labels = (List.range table.labels.length).map Nat.repr

theorem IsNumbered.getElem?_labels {table : Table} (h : table.IsNumbered) {i : Nat}
    (hi : i < table.labels.length) : table.labels[i]? = some i.repr := by
  rw [h, List.getElem?_map, List.getElem?_range hi]
  rfl

theorem IsNumbered.nodup_labels {table : Table} (h : table.IsNumbered) : table.labels.Nodup := by
  rw [h]
  exact List.Nodup.map Numeral.repr_injective List.nodup_range

theorem IsNumbered.exists_of_mem {table : Table} (h : table.IsNumbered) {label : String}
    (hLabel : label ∈ table.labels) : ∃ i < table.labels.length, label = i.repr := by
  rw [h, List.mem_map] at hLabel
  obtain ⟨i, hi, rfl⟩ := hLabel
  exact ⟨i, List.mem_range.mp hi, rfl⟩

theorem length_labelsOf {count : Nat} {columns : List Column}
    (h : ∀ column ∈ columns, column.cells.length = count) :
    (labelsOf count columns).length = count := by
  rw [labelsOf.eq_def]
  split
  next => rw [List.length_map, List.length_range]
  next column => rw [List.length_map, h column (List.mem_singleton_self column)]
  next => rw [List.length_map, Column.length_toRows h]

theorem length_cells_of_mem_columnsOf {width : Nat} {records : List (List String)} {column : Column}
    (h : column ∈ columnsOf width records) : column.cells.length = records.length := by
  obtain ⟨place, -, rfl⟩ := List.mem_map.mp h
  rw [Column.length_cells_ofFields, List.length_map]

/-- The columns in front of the named ones label the rows of a table that is read from a text. -/
theorem exists_records_of_parse {text : String} {table : Table} (h : parse text = .ok table) :
    ∃ header records, Table.records text = some (header :: records) ∧
      let width := fieldCount header records
      let columns := columnsOf width records
      table.labels = labelsOf records.length (columns.take (width - header.length)) ∧
        table.columns = .ofList ((columnNames header).zip (columns.drop (width - header.length))) := by
  rw [parse] at h
  split at h
  next => cases h
  next => cases h
  next header records hText =>
    refine ⟨header, records, hText, ?_⟩
    simp only [ofRecords, List.splitAt_eq] at h
    split at h
    next => cases h
    next =>
      cases h
      exact ⟨rfl, rfl⟩

/-- A table that is read from a text has a row for each record, and a cell for it in every column. -/
theorem isRectangular_of_parse {text : String} {table : Table} (h : parse text = .ok table) :
    table.IsRectangular := by
  obtain ⟨header, records, -, hLabels, hColumns⟩ := exists_records_of_parse h
  intro entry hEntry
  rw [hColumns] at hEntry
  have hColumn := (List.of_mem_zip (NameMap.mem_toList_ofList hEntry)).2
  rw [hLabels, length_labelsOf fun _ hLabel => length_cells_of_mem_columnsOf (List.mem_of_mem_take hLabel)]
  exact length_cells_of_mem_columnsOf (List.mem_of_mem_drop hColumn)

/-- The rows of a table are numbered if no record has more fields than there are names. -/
theorem isNumbered_of_parse {text : String} {table : Table} {header : List String}
    {records : List (List String)} (hText : Table.records text = some (header :: records))
    (hFields : ∀ fields ∈ records, fields.length ≤ header.length) (h : parse text = .ok table) :
    table.IsNumbered := by
  obtain ⟨_, _, hText', hLabels, -⟩ := exists_records_of_parse h
  rw [hText] at hText'
  cases hText'
  -- then no column stands in front of the named ones
  have hWidth : fieldCount header records = header.length := by
    cases records with
    | nil => rfl
    | cons first rest =>
      exact if_neg (Nat.not_lt.mpr (hFields first (List.mem_cons_self ..)))
  rw [hWidth, Nat.sub_self, List.take_zero, labelsOf] at hLabels
  rw [IsNumbered, hLabels, List.length_map, List.length_range]

theorem IsRectangular.length_cellsInRows {table : Table} (h : table.IsRectangular) {name : String}
    {column : Column} (hColumn : table.columns.get? name = some column) :
    (table.cellsInRows column).length = table.labels.length := by
  have hLength : column.cells.length = table.labels.length :=
    h (name, column) (NameMap.mem_toList_of_get? hColumn)
  rw [cellsInRows]
  split
  next => rw [List.length_map, hLength]
  next => exact hLength

/-! ## Columns that are put into a table -/

theorem cells_withColumn (table : Table) (name key : String) (column : Column) :
    (table.withColumn name column).cells key = if key = name then column.cells else table.cells key := by
  rw [cells, withColumn, NameMap.get?_insert]
  by_cases hKey : key = name
  · rw [if_pos hKey, if_pos hKey]
  · rw [if_neg hKey, if_neg hKey, cells]

theorem IsRectangular.withColumn {table : Table} (h : table.IsRectangular) (name : String)
    {column : Column} (hColumn : column.cells.length = table.labels.length) :
    (table.withColumn name column).IsRectangular := by
  intro entry hEntry
  rcases NameMap.mem_toList_insert hEntry with rfl | hOld
  · exact hColumn
  · exact h entry hOld

/-- All other columns stay as they are, and in their order. -/
theorem filter_withColumn (table : Table) {name : String} (column : Column)
    {keeps : String × Column → Bool} (hName : ∀ column, keeps (name, column) = false) :
    (table.withColumn name column).columns.toList.filter keeps = table.columns.toList.filter keeps :=
  NameMap.filter_toList_insert hName

end Table

end DesignByNumbers
