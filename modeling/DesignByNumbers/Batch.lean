import DesignByNumbers.Backend
import DesignByNumbers.Table.Separated

/-!
# Batch — compiling a table of programs

Every row of a table holds a program. Each is compiled on its own: a row gets the path of
its text and no error, or no path and the message of its diagnostic. The text goes to a file
that is named by the label of the row. What has no diagnostic ends the whole batch.
-/

namespace DesignByNumbers.Batch

/-- Why a table of programs is not read. -/
inductive Refusal
  | noFile (path : String)
  | unreadable (fault : Table.Fault)
  | noColumn (column path : String)
deriving Repr, DecidableEq

def Refusal.message : Refusal → String
  | .noFile path => "Input CSV not found: " ++ path
  | .unreadable .noColumns => "No columns to parse from file"
  | .unreadable .malformed => "Error tokenizing data"
  | .noColumn column path => "Column '" ++ column ++ "' not found in " ++ path

/-- Why a text cannot be written to a file. -/
inductive Unwritable
  | nulInName
  | nameTooLong
  | noDirectory (path : String)
deriving Repr, DecidableEq

def Unwritable.message : Unwritable → String
  | .nulInName => "embedded null byte"
  | .nameTooLong => "File name too long"
  | .noDirectory path => "[Errno 2] No such file or directory: " ++ Text.quoted path

/-- Why a batch has no result. -/
inductive Abort
  | refused (refusal : Refusal)
  | failed (failure : Failure)
  | unwritable (reason : Unwritable)
deriving Repr, DecidableEq

/-! ## Files -/

/-- A place under a directory. A slash stands between the two, unless the directory ends with
one. -/
def join (directory name : String) : String :=
  match directory.toList.getLast? with
  | none | some '/' => directory ++ name
  | some _ => directory ++ "/" ++ name

def fileName (backend : Backend) (label : String) : String :=
  label ++ "." ++ backend.extension

def filePath (backend : Backend) (directory label : String) : String :=
  join directory (fileName backend label)

def tableName : String := "rendered.csv"

/-- The most bytes that the name of a file or a directory has. -/
def nameLimit : Nat := 255

/-- What keeps a text from being written under a name. A slash in it leads to a directory
that is not there. -/
def unwritable? (directory name : String) : Option Unwritable :=
  let first := String.ofList (name.toList.takeWhile (· ≠ '/'))
  if name.toList.contains '\x00' then some .nulInName
  else if nameLimit < first.utf8ByteSize then some .nameTooLong
  else if name.toList.contains '/' then some (.noDirectory (join directory name))
  else none

/-! ## Rows -/

/-- What became of a program. -/
inductive Outcome
  | written (text : String)
  | refused (diagnostic : Diagnostic)
deriving Repr, DecidableEq

/-- A row with what became of its program. -/
structure Row where
  label : String
  program : String
  outcome : Outcome
deriving Repr, DecidableEq

def compileRow (backend : Backend) (context : NameMap Binding) (directory label program : String) :
    Except Abort Row :=
  match backend.compile program context with
  | .ok text =>
    match unwritable? directory (fileName backend label) with
    | none => .ok { label, program, outcome := .written text }
    | some reason => .error (.unwritable reason)
  | .error (.diagnosed diagnostic) => .ok { label, program, outcome := .refused diagnostic }
  | .error failure => .error (.failed failure)

/-- How much of a program is shown when it is refused. -/
def shownCharacters : Nat := 50

namespace Row

def path (backend : Backend) (directory : String) (row : Row) : String :=
  match row.outcome with
  | .written _ => filePath backend directory row.label
  | .refused _ => ""

def error (row : Row) : String :=
  match row.outcome with
  | .written _ => ""
  | .refused diagnostic => diagnostic.message

/-- The file of a row, by name and text. -/
def file? (backend : Backend) (row : Row) : Option (String × String) :=
  match row.outcome with
  | .written text => some (fileName backend row.label, text)
  | .refused _ => none

/-- What is reported of a row. -/
def report (row : Row) : String :=
  match row.outcome with
  | .written _ => ""
  | .refused diagnostic =>
    "❌ Error compiling row " ++ row.label ++ " ('" ++
      String.ofList (row.program.toList.take shownCharacters) ++ "...'):\n" ++
      diagnostic.render ++ "\n"

end Row

/-! ## Tables -/

def pathColumn : String := "render_filepath"

def errorColumn : String := "error"

/-- What a batch leaves behind: the table with its results, the texts of the files in the
directory by name, and what was reported. -/
structure Result where
  table : Table
  files : NameMap String
  report : String
deriving Repr, DecidableEq

def resultTable (backend : Backend) (directory : String) (table : Table) (rows : List Row) :
    Table :=
  (table.withColumn pathColumn (.ofTexts (rows.map (·.path backend directory)))).withColumn
    errorColumn (.ofTexts (rows.map Row.error))

/-- The files of a batch. Of rows with the same label the last one keeps its file. -/
def resultFiles (backend : Backend) (table : Table) (rows : List Row) : NameMap String :=
  (NameMap.ofList (rows.filterMap (·.file? backend))).insert tableName table.print

def resultReport (directory : String) (rows : List Row) : String :=
  String.join (rows.map Row.report) ++
    "\n✅ Wrote updated CSV with filepaths to: " ++ join directory tableName ++ "\n"

/-- The result of a batch from the results of its rows. -/
def collect (backend : Backend) (directory : String) (table : Table) (rows : List Row) : Result :=
  let table := resultTable backend directory table rows
  { table
    files := resultFiles backend table rows
    report := resultReport directory rows }

/-- Compiles the programs of a table, of which there is one for every row. -/
def compileTable (backend : Backend) (context : NameMap Binding) (directory : String)
    (table : Table) (programs : List String) : Except Abort Result := do
  let rows ← (table.labels.zip programs).mapM fun (label, program) =>
    compileRow backend context directory label program
  return collect backend directory table rows

/-- Compiles the programs in a column of the table in a file, which may not exist. A missing
cell holds the empty program. -/
def run (backend : Backend) (context : NameMap Binding) (path directory name : String)
    (file : Option String) : Except Abort Result :=
  match file with
  | none => .error (.refused (.noFile path))
  | some text =>
    match Table.parse text with
    | .error fault => .error (.refused (.unreadable fault))
    | .ok table =>
      match table.columns.get? name with
      | none => .error (.refused (.noColumn name path))
      | some column =>
        compileTable backend context directory table ((table.cellsInRows column).map Cell.print)

end DesignByNumbers.Batch
