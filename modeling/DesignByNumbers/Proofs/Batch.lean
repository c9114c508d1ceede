import Mathlib.Data.List.TakeWhile
import DesignByNumbers.Batch
import DesignByNumbers.Proofs.Drawable
import DesignByNumbers.Proofs.Lexer
import DesignByNumbers.Proofs.Table

/-!
# Proofs.Batch — what a batch leaves of its rows

The programs of a table are compiled one after the other. What becomes of a row is told by its own
program, and neither the rows before it nor those behind it have a part in it. The files that a
batch leaves are those of the rows with a text, each under the number of its row, and the table with
the results.

* `exists_compileRow`, `exists_rows` — one row, and all rows in turn.
* `get?_resultFiles` — the files of rows with different labels.
* `run_isRowwise` — a batch gives every row what its program alone gives.
-/

namespace DesignByNumbers.Batch

variable {backend : Backend} {context : NameMap Binding} {directory : String}

/-! ## The names of files -/

theorem fileName_injective : Function.Injective (fileName backend) := by
  intro label label' h
  apply String.toList_injective
  have hChars := congrArg String.toList h
  simp only [fileName, String.toList_append, List.append_assoc] at hChars
  exact List.append_cancel_right hChars

/-- No row takes the name of the table with the results, for no extension ends like it. -/
theorem fileName_ne_tableName (label : String) : fileName backend label ≠ tableName := by
  intro h
  have hLast := congrArg (fun name => name.toList.getLast?) h
  simp only [fileName, String.toList_append, List.append_assoc, List.getLast?_append] at hLast
  cases backend with
  | vector => simp [Backend.extension, tableName] at hLast
  | raster encoding =>
    cases encoding <;> simp [Backend.extension, Picture.Encoding.name, tableName] at hLast

theorem utf8ByteSize_ofList {text : List Char} (h : ∀ c ∈ text, c.utf8Size = 1) :
    (String.ofList text).utf8ByteSize = text.length := by
  induction text with
  | nil => rfl
  | cons c rest ih =>
    obtain ⟨hHead, hRest⟩ := List.forall_mem_cons.mp h
    rw [String.ofList_cons, String.utf8ByteSize_append, String.utf8ByteSize_singleton, hHead, ih hRest,
      List.length_cons, Nat.add_comm]

/-- An extension is a short word. -/
theorem extension_isWord (backend : Backend) : backend.extension.toList.length ≤ 6 ∧
    ∀ c ∈ backend.extension.toList, Token.isWordCharacter c = true := by
  rw [← List.all_eq_true]
  cases backend with
  | vector =>
    show "svg".toList.length ≤ 6 ∧ "svg".toList.all Token.isWordCharacter = true
    decide
  | raster encoding => cases encoding <;> decide

theorem toList_fileName (i : Nat) :
    (fileName backend i.repr).toList = Nat.toDigits 10 i ++ '.' :: backend.extension.toList := by
  simp only [fileName, String.toList_append, Nat.repr, String.toList_ofList, List.append_assoc]
  rfl

/-- A name that is made of word characters and points leads to no other directory, and has as many
bytes as characters. -/
theorem unwritable?_of_forall {name : String} (hLength : name.length ≤ nameLimit)
    (hChars : ∀ c ∈ name.toList, Token.isWordCharacter c = true ∨ c = '.') :
    unwritable? directory name = none := by
  -- a point and the word characters lie on either side of the slash
  have hCode : ∀ c ∈ name.toList, 46 ≤ c.toNat ∧ c.toNat ≤ 122 ∧ c.toNat ≠ 47 := by
    intro c hc
    rcases hChars c hc with hWord | rfl
    · have := Token.toNat_of_isWordCharacter hWord
      omega
    · decide
  have hSlash : '/' ∉ name.toList := fun hc => (hCode '/' hc).2.2 rfl
  have hNul : '\x00' ∉ name.toList := fun hc => absurd (hCode '\x00' hc).1 (by decide)
  have hFirst : name.toList.takeWhile (· ≠ '/') = name.toList := by
    refine List.takeWhile_eq_self_iff.mpr fun c hc => decide_eq_true ?_
    rintro rfl
    exact hSlash hc
  have hSize : (String.ofList name.toList).utf8ByteSize = name.length := by
    rw [utf8ByteSize_ofList, String.length_toList]
    intro c hc
    rw [Char.utf8Size_eq_one_iff]
    exact Nat.le_trans (hCode c hc).2.1 (by decide)
  simp only [unwritable?, hFirst, hSize]
  simp [hNul, hSlash, hLength]

/-- A file under the number of a row can be written, for the number has few enough digits. -/
theorem unwritable?_number {i : Nat} (h : i < 10 ^ 248) :
    unwritable? directory (fileName backend i.repr) = none := by
  obtain ⟨hExtension, hWord⟩ := extension_isWord backend
  have hDigits : (Nat.toDigits 10 i).length ≤ 248 :=
    (Nat.length_toDigits_le_iff (by decide) (by decide)).mpr h
  refine unwritable?_of_forall ?_ fun c hc => ?_
  · rw [← String.length_toList, toList_fileName, List.length_append, List.length_cons, nameLimit]
    omega
  · rw [toList_fileName] at hc
    rcases List.mem_append.mp hc with hDigit | hRest
    · have hNumeral := Numeral.digit_of_isDigits (Numeral.isDigits_toDigits i) hDigit
      exact .inl (by simp [Token.isWordCharacter, Char.isAlphanum, hNumeral])
    · rcases List.mem_cons.mp hRest with rfl | hLetter
      · exact .inr rfl
      · exact .inl (hWord c hLetter)

/-! ## Rows -/

/-- A compilation ends with a text or a diagnostic. -/
def IsReported (result : Except Failure String) : Prop :=
  (∃ text, result = .ok text) ∨ ∃ diagnostic, result = .error (.diagnosed diagnostic)

/-- What becomes of a program whose compilation ends with a text or a diagnostic. -/
inductive Becomes : Except Failure String → Outcome → Prop
  | written (text : String) : Becomes (.ok text) (.written text)
  | refused (diagnostic : Diagnostic) :
      Becomes (.error (.diagnosed diagnostic)) (.refused diagnostic)

/-- A row has its own label, and holds what became of its own program. -/
structure IsRowOf (backend : Backend) (context : NameMap Binding) (labelled : String × String)
    (row : Row) : Prop where
  label : row.label = labelled.1
  outcome : Becomes (backend.compile labelled.2 context) row.outcome

section IsRowOf

variable {label program : String} {row : Row}

theorem IsRowOf.outcome_of_ok (h : IsRowOf backend context (label, program) row) {text : String}
    (hText : backend.compile program context = .ok text) : row.outcome = .written text := by
  have hOutcome := h.outcome
  rw [hText] at hOutcome
  generalize row.outcome = outcome at hOutcome
  cases hOutcome
  rfl

theorem IsRowOf.outcome_of_error (h : IsRowOf backend context (label, program) row)
    {diagnostic : Diagnostic}
    (hDiagnostic : backend.compile program context = .error (.diagnosed diagnostic)) :
    row.outcome = .refused diagnostic := by
  have hOutcome := h.outcome
  rw [hDiagnostic] at hOutcome
  generalize row.outcome = outcome at hOutcome
  cases hOutcome
  rfl

/-- A row has a file if its program has a text, under its own label. -/
theorem IsRowOf.file?_eq_some_iff (h : IsRowOf backend context (label, program) row)
    {name text : String} : row.file? backend = some (name, text) ↔
      backend.compile program context = .ok text ∧ name = fileName backend label := by
  obtain ⟨hLabel, hOutcome⟩ := h
  rw [Row.file?, hLabel]
  generalize backend.compile program context = result at hOutcome
  generalize row.outcome = outcome at hOutcome
  cases hOutcome with
  | written text' =>
    rw [Option.some.injEq, Prod.mk.injEq, Except.ok.injEq, and_comm]
    exact and_congr_right fun _ => eq_comm
  | refused => simp

end IsRowOf

/-- One row: what came before has no part in it. -/
theorem exists_compileRow {label program : String}
    (hName : unwritable? directory (fileName backend label) = none)
    (hReported : IsReported (backend.compile program context)) :
    ∃ row, compileRow backend context directory label program = .ok row ∧
      IsRowOf backend context (label, program) row := by
  rcases hReported with ⟨text, hText⟩ | ⟨diagnostic, hDiagnostic⟩
  · refine ⟨⟨label, program, .written text⟩, ?_, rfl, ?_⟩
    · simp only [compileRow, hText, hName]
    · rw [hText]
      exact .written text
  · refine ⟨⟨label, program, .refused diagnostic⟩, ?_, rfl, ?_⟩
    · simp only [compileRow, hDiagnostic]
    · rw [hDiagnostic]
      exact .refused diagnostic

/-- All rows in turn. -/
theorem exists_rows {labelled : List (String × String)}
    (hNames : ∀ entry ∈ labelled, unwritable? directory (fileName backend entry.1) = none)
    (hReported : ∀ entry ∈ labelled, IsReported (backend.compile entry.2 context)) :
    ∃ rows, (labelled.mapM fun (label, program) =>
        compileRow backend context directory label program) = .ok rows ∧
      List.Forall₂ (IsRowOf backend context) labelled rows := by
  -- by induction on the rows: nothing is handed on from one row to the next
  induction labelled with
  | nil => exact ⟨[], rfl, .nil⟩
  | cons entry rest ih =>
    obtain ⟨label, program⟩ := entry
    obtain ⟨hName, hNames⟩ := List.forall_mem_cons.mp hNames
    obtain ⟨hHere, hReported⟩ := List.forall_mem_cons.mp hReported
    obtain ⟨row, hRow, hIsRow⟩ := exists_compileRow hName hHere
    obtain ⟨rows, hRows, hAreRows⟩ := ih hNames hReported
    refine ⟨row :: rows, ?_, .cons hIsRow hAreRows⟩
    simp only [List.mapM_cons, hRow, hRows]
    rfl

/-- The rows have the labels of the programs, in their order. -/
theorem map_label_of_forall₂ {labelled : List (String × String)} {rows : List Row}
    (h : List.Forall₂ (IsRowOf backend context) labelled rows) :
    rows.map Row.label = labelled.map Prod.fst := by
  induction h with
  | nil => rfl
  | cons hRow _ ih => rw [List.map_cons, List.map_cons, hRow.label, ih]

/-! ## Files -/

section Files

variable {rows : List Row} {table : Table}

/-- Rows with different labels have files with different names. -/
theorem nodup_fileNames (hLabels : (rows.map Row.label).Nodup) :
    ((rows.filterMap (·.file? backend)).map Prod.fst).Nodup := by
  have hSublist : ((rows.filterMap (·.file? backend)).map Prod.fst).Sublist
      ((rows.map Row.label).map (fileName backend)) := by
    clear hLabels
    -- a row with a text keeps its place among the names, and any other row drops out
    induction rows with
    | nil => exact .slnil
    | cons row rest ih =>
      cases hOutcome : row.outcome with
      | written text =>
        have hFile : row.file? backend = some (fileName backend row.label, text) := by
          rw [Row.file?, hOutcome]
        rw [List.filterMap_cons_some hFile]
        exact ih.cons_cons _
      | refused diagnostic =>
        have hFile : row.file? backend = none := by rw [Row.file?, hOutcome]
        rw [List.filterMap_cons_none hFile]
        exact ih.cons _
  exact (List.Nodup.map fileName_injective hLabels).sublist hSublist

/-- The files of rows with different labels, and the table with the results. -/
theorem get?_resultFiles (hLabels : (rows.map Row.label).Nodup) {name text : String} :
    (resultFiles backend table rows).get? name = some text ↔
      name = tableName ∧ text = table.print ∨ ∃ row ∈ rows, row.file? backend = some (name, text) := by
  rw [resultFiles, NameMap.get?_insert]
  by_cases hName : name = tableName
  · -- no file of a row has this name
    subst hName
    have hNone : ∀ row ∈ rows, row.file? backend ≠ some (tableName, text) := by
      intro row _ hFile
      rw [Row.file?] at hFile
      split at hFile
      next =>
        have hSame := congrArg Prod.fst (Option.some.inj hFile)
        exact fileName_ne_tableName row.label hSame
      next => cases hFile
    rw [if_pos rfl, Option.some.injEq]
    constructor
    · exact fun h => .inl ⟨rfl, h.symm⟩
    · rintro (⟨-, h⟩ | ⟨row, hRow, hFile⟩)
      · exact h.symm
      · exact absurd hFile (hNone row hRow)
  · rw [if_neg hName, NameMap.get?_ofList (nodup_fileNames hLabels), List.mem_filterMap]
    simp [hName]

end Files

/-! ## Results -/

theorem cells_path_resultTable (table : Table) (rows : List Row) :
    (resultTable backend directory table rows).cells pathColumn =
      rows.map fun row => .text (row.path backend directory) := by
  rw [resultTable, Table.cells_withColumn, if_neg (by decide), Table.cells_withColumn, if_pos rfl,
    Column.ofTexts, List.map_map]
  rfl

theorem cells_error_resultTable (table : Table) (rows : List Row) :
    (resultTable backend directory table rows).cells errorColumn =
      rows.map fun row => .text row.error := by
  rw [resultTable, Table.cells_withColumn, if_pos rfl, Column.ofTexts, List.map_map]
  rfl

/-- A row of a result, by its number: its path, its error, and the file that is named by it. -/
structure Result.HasRow (backend : Backend) (result : Result) (i : Nat) (path error : String)
    (file : Option String) : Prop where
  path : (result.table.cells pathColumn)[i]? = some (.text path)
  error : (result.table.cells errorColumn)[i]? = some (.text error)
  file : result.files.get? (i.repr ++ "." ++ backend.extension) = file

/-- Whether a column is none of those that hold results. -/
def isInput (entry : String × Column) : Bool :=
  entry.1 ≠ pathColumn && entry.1 ≠ errorColumn

/-- A result gives every row of a table what the program of the row gives on its own. -/
structure Result.IsRowwise (backend : Backend) (context : NameMap Binding) (directory : String)
    (table : Table) (programs : List String) (result : Result) : Prop where
  /-- There is a program for every row. -/
  complete : programs.length = table.labels.length
  /-- The rows are those of the table, in their order. -/
  labels : result.table.labels = table.labels
  /-- Every column has a cell for every row. -/
  rectangular : result.table.IsRectangular
  /-- A program with a text gives its row a path and its file the text. -/
  written : ∀ i program text, programs[i]? = some program →
    backend.compile program context = .ok text →
    result.HasRow backend i (join directory (i.repr ++ "." ++ backend.extension)) "" (some text)
  /-- A program with a diagnostic gives its row a message and has no file. -/
  refused : ∀ i program diagnostic, programs[i]? = some program →
    backend.compile program context = .error (.diagnosed diagnostic) →
    result.HasRow backend i "" diagnostic.message none
  /-- All other columns stay as they are, and in their order. -/
  inputs : result.table.columns.toList.filter isInput = table.columns.toList.filter isInput
  /-- There are no files but those of the programs with a text, and the table itself. -/
  files : ∀ name text, result.files.get? name = some text ↔
    name = tableName ∧ text = result.table.print ∨ ∃ (i : Nat) (program : String),
      programs[i]? = some program ∧ backend.compile program context = .ok text ∧
      name = i.repr ++ "." ++ backend.extension

section Collect

variable {table : Table} {programs : List String} {rows : List Row}

/-- The rows of a result are those of its programs, each in the place that its label tells. -/
structure AreRowsOf (backend : Backend) (context : NameMap Binding) (programs : List String)
    (rows : List Row) : Prop where
  length : rows.length = programs.length
  exists_row : ∀ (i : Nat) (program : String), programs[i]? = some program → ∃ row,
    rows[i]? = some row ∧ IsRowOf backend context (i.repr, program) row
  exists_program : ∀ row ∈ rows, ∃ (i : Nat) (program : String), programs[i]? = some program ∧
    IsRowOf backend context (i.repr, program) row

theorem areRowsOf_zip (hNumbered : table.IsNumbered)
    (hPrograms : programs.length = table.labels.length)
    (h : List.Forall₂ (IsRowOf backend context) (table.labels.zip programs) rows) :
    AreRowsOf backend context programs rows := by
  have hPlace : ∀ (i : Nat) (program : String), programs[i]? = some program →
      (table.labels.zip programs)[i]? = some (i.repr, program) := by
    intro i program hProgram
    have hLength := (List.getElem?_eq_some_iff.mp hProgram).1
    rw [List.getElem?_zip_eq_some]
    exact ⟨hNumbered.getElem?_labels (hPrograms ▸ hLength), hProgram⟩
  refine ⟨?_, fun i program hProgram => ?_, fun row hRow => ?_⟩
  · rw [← h.length_eq, List.length_zip, hPrograms, Nat.min_self]
  · exact exists_getElem?_of_forall₂ h (hPlace i program hProgram)
  -- read the other way round, the place of a row is that of its label and its program
  · obtain ⟨i, hRowPlace⟩ := List.mem_iff_getElem?.mp hRow
    obtain ⟨entry, hEntry, hIsRow⟩ := exists_getElem?_of_forall₂ h.flip hRowPlace
    have hProgram := (List.getElem?_zip_eq_some.mp hEntry).2
    rw [hPlace i entry.2 hProgram, Option.some.injEq] at hEntry
    rw [← hEntry] at hIsRow
    exact ⟨i, entry.2, hProgram, hIsRow⟩

theorem get?_files_collect (directory : String) (table : Table)
    (hRows : AreRowsOf backend context programs rows) (hLabels : (rows.map Row.label).Nodup)
    (name text : String) :
    let result := collect backend directory table rows
    result.files.get? name = some text ↔
      name = tableName ∧ text = result.table.print ∨ ∃ (i : Nat) (program : String),
        programs[i]? = some program ∧ backend.compile program context = .ok text ∧
        name = i.repr ++ "." ++ backend.extension := by
  intro result
  refine (get?_resultFiles hLabels).trans ?_
  refine or_congr_right ⟨?_, ?_⟩
  · rintro ⟨row, hRow, hFile⟩
    obtain ⟨i, program, hProgram, hIsRow⟩ := hRows.exists_program row hRow
    obtain ⟨hText, hName⟩ := hIsRow.file?_eq_some_iff.mp hFile
    exact ⟨i, program, hProgram, hText, hName⟩
  · rintro ⟨i, program, hProgram, hText, hName⟩
    obtain ⟨row, hRow, hIsRow⟩ := hRows.exists_row i program hProgram
    exact ⟨row, List.mem_of_getElem? hRow, hIsRow.file?_eq_some_iff.mpr ⟨hText, hName⟩⟩

theorem hasRow_collect (backend : Backend) (directory : String) (table : Table) {i : Nat} {row : Row}
    (hRow : rows[i]? = some row) :
    let result := collect backend directory table rows
    result.HasRow backend i (row.path backend directory) row.error
      (result.files.get? (i.repr ++ "." ++ backend.extension)) := by
  intro result
  refine ⟨?_, ?_, rfl⟩
  · show ((resultTable backend directory table rows).cells pathColumn)[i]? = _
    rw [cells_path_resultTable, List.getElem?_map, hRow]
    rfl
  · show ((resultTable backend directory table rows).cells errorColumn)[i]? = _
    rw [cells_error_resultTable, List.getElem?_map, hRow]
    rfl

theorem isRowwise_collect (hTable : table.IsRectangular) (hNumbered : table.IsNumbered)
    (hPrograms : programs.length = table.labels.length)
    (hRows : List.Forall₂ (IsRowOf backend context) (table.labels.zip programs) rows) :
    (collect backend directory table rows).IsRowwise backend context directory table programs := by
  have hAre := areRowsOf_zip hNumbered hPrograms hRows
  have hLength : rows.length = table.labels.length := hAre.length.trans hPrograms
  have hLabels : rows.map Row.label = table.labels := by
    rw [map_label_of_forall₂ hRows, List.map_fst_zip hPrograms.ge]
  have hNodup : (rows.map Row.label).Nodup := hLabels ▸ hNumbered.nodup_labels
  have hFiles := get?_files_collect directory table hAre hNodup
  refine ⟨hPrograms, rfl, ?rectangular, ?written, ?refused, ?inputs, hFiles⟩
  case rectangular =>
    -- both columns are made of the rows, of which there is one for every label
    refine (hTable.withColumn pathColumn ?_).withColumn errorColumn ?_
    · rw [Column.length_cells_ofTexts, List.length_map, hLength]
    · rw [Column.length_cells_ofTexts, List.length_map, hLength]
      rfl
  case written =>
    intro i program text hProgram hText
    obtain ⟨row, hRow, hIsRow⟩ := hAre.exists_row i program hProgram
    have hHas := hasRow_collect backend directory table hRow
    have hFile := (hFiles _ _).mpr (.inr ⟨i, program, hProgram, hText, rfl⟩)
    rw [Row.path, Row.error, hIsRow.outcome_of_ok hText, hIsRow.label] at hHas
    exact ⟨hHas.path, hHas.error, hFile⟩
  case refused =>
    intro i program diagnostic hProgram hDiagnostic
    obtain ⟨row, hRow, hIsRow⟩ := hAre.exists_row i program hProgram
    have hHas := hasRow_collect backend directory table hRow
    rw [Row.path, Row.error, hIsRow.outcome_of_error hDiagnostic] at hHas
    refine ⟨hHas.path, hHas.error, Option.eq_none_iff_forall_ne_some.mpr fun text hFile => ?_⟩
    -- a file of this name is not the table, and it is that of no other row
    rcases (hFiles _ _).mp hFile with ⟨hName, -⟩ | ⟨j, program', hProgram', hText, hName⟩
    · exact fileName_ne_tableName i.repr hName
    · have hSame : fileName backend i.repr = fileName backend j.repr := hName
      rw [Numeral.repr_injective (fileName_injective hSame), hProgram', Option.some.injEq] at hProgram
      rw [← hProgram, hText] at hDiagnostic
      cases hDiagnostic
  case inputs =>
    have hError : ∀ column, isInput (errorColumn, column) = false := fun _ => rfl
    have hPath : ∀ column, isInput (pathColumn, column) = false := fun _ => rfl
    exact (Table.filter_withColumn _ _ hError).trans (Table.filter_withColumn table _ hPath)

end Collect

/-- A batch gives every row of a table what the program of the row gives on its own, whatever the
other rows hold. A missing cell holds the empty program. The rows are numbered, as they are unless a
record has more fields than there are names, and the numbers have at most 248 digits, which is what
the name of a file has room for. -/
theorem run_isRowwise {path name text : String} {table : Table} {column : Column}
    (hTable : Table.parse text = .ok table) (hNumbered : table.IsNumbered)
    (hCount : table.labels.length ≤ 10 ^ 248) (hColumn : table.columns.get? name = some column)
    (hReported : ∀ cell ∈ table.cellsInRows column, IsReported (backend.compile cell.print context)) :
    ∃ result, run backend context path directory name (some text) = .ok result ∧
      result.IsRowwise backend context directory table
        ((table.cellsInRows column).map Cell.print) := by
  have hRect := Table.isRectangular_of_parse hTable
  let programs := (table.cellsInRows column).map Cell.print
  have hPrograms : programs.length = table.labels.length := by
    rw [List.length_map, hRect.length_cellsInRows hColumn]
  -- a label is the number of a row, and short enough for a name
  have hNames : ∀ entry ∈ table.labels.zip programs,
      unwritable? directory (fileName backend entry.1) = none := by
    intro entry hEntry
    obtain ⟨i, hi, hLabel⟩ := hNumbered.exists_of_mem (List.of_mem_zip hEntry).1
    rw [hLabel]
    exact unwritable?_number (Nat.lt_of_lt_of_le hi hCount)
  -- every program is that of a cell
  have hEnds : ∀ entry ∈ table.labels.zip programs,
      IsReported (backend.compile entry.2 context) := by
    intro entry hEntry
    obtain ⟨cell, hCell, hPrint⟩ := List.mem_map.mp (List.of_mem_zip hEntry).2
    rw [← hPrint]
    exact hReported cell hCell
  obtain ⟨rows, hRows, hAre⟩ := exists_rows hNames hEnds
  refine ⟨collect backend directory table rows, ?_, isRowwise_collect hRect hNumbered hPrograms hAre⟩
  simp only [run, hTable, hColumn, compileTable]
  rw [hRows]
  rfl

/-- A paper, a text that is no program, and a missing cell. -/
theorem run_isRowwise_paper :
    let text := "id,program\na,Paper 50\nb,Paper é\nc,NA\n"
    let column : Column := ⟨.mixed, [.text "Paper 50", .text "Paper é", .missing]⟩
    let table : Table :=
      ⟨["0", "1", "2"], .ofList [("id", .ofTexts ["a", "b", "c"]), ("program", column)]⟩
    let backend : Backend := .raster .binary
    Table.parse text = .ok table ∧ table.IsNumbered ∧ table.labels.length ≤ 10 ^ 248 ∧
      table.columns.get? "program" = some column ∧
      (∀ cell ∈ table.cellsInRows column, IsReported (backend.compile cell.print .empty)) ∧
      ∃ result dark light,
        run backend .empty "programs.csv" "out" "program" (some text) = .ok result ∧
        result.HasRow backend 0 "out/0.binary" "" (some dark) ∧
        result.HasRow backend 1 "" "Token \"é\" doesn't match its type: \"symbol\"." none ∧
        result.HasRow backend 2 "out/2.binary" "" (some light) ∧
        result.files.get? "3.binary" = none := by
  intro text column table backend
  have hTable : Table.parse text = .ok table := by decide +kernel
  have hNumbered : table.IsNumbered := by
    have hText : Table.records text =
        some (["id", "program"] :: [["a", "Paper 50"], ["b", "Paper é"], ["c", "NA"]]) := by
      decide +kernel
    exact Table.isNumbered_of_parse hText (by decide) hTable
  have hCount : table.labels.length ≤ 10 ^ 248 := by decide +kernel
  have hColumn : table.columns.get? "program" = some column := by decide +kernel
  have hNumerals : HasNumerals .empty := fun _ _ hEntry => absurd hEntry List.not_mem_nil
  have hScope : Scope.ofBindings .empty = .ok ⟨.empty⟩ := by decide +kernel
  obtain ⟨dark, hDark⟩ : ∃ dark, backend.compile "Paper 50" .empty = .ok dark := by
    obtain ⟨head, rest, hTokens, hRead⟩ : ∃ head rest, Token.ofSource "Paper 50" = head :: rest ∧
        Instruction.ofStatement (State.initial ⟨.empty⟩).scope head (head :: rest).getLast? rest =
          .ok (.draw (.background "50"), []) :=
      ⟨(Token.ofSource "Paper 50").head!, (Token.ofSource "Paper 50").tail, by decide +kernel⟩
    have hVerify : Token.verify (Token.ofSource "Paper 50") = .ok () := by decide +kernel
    have hTrace : Program.interpret (Token.ofSource "Paper 50") .empty = .ok #[.background "50"] := by
      have hRun := Program.run_single hRead
      rw [Program.interpret, hVerify, hScope]
      simp only [hTokens, hRun]
      rfl
    exact Backend.exists_compile_raster hNumerals hTrace .binary
  have hRefused : backend.compile "Paper é" .empty =
      .error (.diagnosed ⟨.malformedToken "é" "symbol", some ⟨1, 6, "Paper é"⟩⟩) := by
    have hVerify : Token.verify (Token.ofSource "Paper é") =
        .error ⟨.malformedToken "é" "symbol", some ⟨1, 6, "Paper é"⟩⟩ := by decide +kernel
    rw [Backend.compile, Program.interpret, hVerify]
    rfl
  obtain ⟨light, hLight⟩ : ∃ light, backend.compile "" .empty = .ok light := by
    have hTokens : Token.ofSource "" = [] := by decide +kernel
    have hTrace : Program.interpret (Token.ofSource "") .empty = .ok #[] := by
      have hVerify : Token.verify [] = .ok () := rfl
      rw [hTokens, Program.interpret, hVerify, hScope]
      simp only [Program.run_eq, Program.statements_nil]
      rfl
    exact Backend.exists_compile_raster hNumerals hTrace .binary
  have hCells : table.cellsInRows column = [.text "Paper 50", .text "Paper é", .missing] := by
    decide +kernel
  have hReported : ∀ cell ∈ table.cellsInRows column,
      IsReported (backend.compile cell.print .empty) := by
    rw [hCells]
    exact List.forall_mem_cons.mpr ⟨.inl ⟨dark, hDark⟩, List.forall_mem_cons.mpr
      ⟨.inr ⟨_, hRefused⟩, List.forall_mem_singleton.mpr (.inl ⟨light, hLight⟩)⟩⟩
  obtain ⟨result, hRun, hResult⟩ :
      ∃ result, run backend .empty "programs.csv" "out" "program" (some text) = .ok result ∧
        result.IsRowwise backend .empty "out" table ((table.cellsInRows column).map Cell.print) :=
    run_isRowwise hTable hNumbered hCount hColumn hReported
  rw [hCells] at hResult
  have hFirst : result.HasRow backend 0 "out/0.binary" "" (some dark) :=
    hResult.written 0 "Paper 50" dark rfl hDark
  have hSecond : result.HasRow backend 1 "" "Token \"é\" doesn't match its type: \"symbol\"." none :=
    hResult.refused 1 "Paper é" _ rfl hRefused
  have hThird : result.HasRow backend 2 "out/2.binary" "" (some light) :=
    hResult.written 2 "" light rfl hLight
  have hNoFile : result.files.get? "3.binary" = none := by
    refine Option.eq_none_iff_forall_ne_some.mpr fun text hFile => ?_
    rcases (hResult.files _ _).mp hFile with ⟨hName, -⟩ | ⟨i, program, hProgram, -, hName⟩
    · exact absurd hName (by decide)
    · have hSame : fileName backend (3).repr = fileName backend i.repr := hName
      rw [← Numeral.repr_injective (fileName_injective hSame)] at hProgram
      cases hProgram
  exact ⟨hTable, hNumbered, hCount, hColumn, hReported, result, dark, light, hRun, hFirst, hSecond,
    hThird, hNoFile⟩

end DesignByNumbers.Batch
