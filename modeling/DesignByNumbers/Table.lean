import DesignByNumbers.Double.Decimal
import DesignByNumbers.NameMap

/-!
# Table — labelled rows under named columns

A table has a label for every row and a name for every column, and every column has a cell
for every row. A cell holds a text, a number or a truth value, or is missing. The kind of a
column tells what all its cells are.
-/

namespace DesignByNumbers

inductive Cell
  | missing
  | text (content : String)
  | integer (value : Int)
  | real (value : Double)
  | boolean (value : Bool)
deriving Repr, DecidableEq, Inhabited

namespace Cell

def print : Cell → String
  | .missing => ""
  | .text content => content
  | .integer value => Numeral.decimal value
  | .real value => value.print
  | .boolean true => "True"
  | .boolean false => "False"

/-- The cell with an integer taken as a real number. -/
def widened : Cell → Cell
  | .integer value => .real (.ofInt value)
  | cell => cell

end Cell

/-- What the cells of a column are. -/
inductive Column.Kind
  /-- Integers of either sign. -/
  | integer
  /-- Integers that need the place of the sign for their magnitude. -/
  | unsigned
  /-- Real numbers, or missing. -/
  | real
  | boolean
  /-- Anything. -/
  | mixed
deriving Repr, DecidableEq

/-- The cells under one name, from top to bottom. -/
structure Column where
  kind : Column.Kind
  cells : List Cell
deriving Repr, DecidableEq

namespace Column

def Kind.isNumeric : Kind → Bool
  | .integer | .unsigned | .real => true
  | .boolean | .mixed => false

def ofTexts (texts : List String) : Column :=
  { kind := .mixed, cells := texts.map Cell.text }

/-- The cells of several columns in rows, of which there is a given count. -/
def toRows (count : Nat) (columns : List Column) : List (List Cell) :=
  columns.foldr (fun column rows => column.cells.zipWith (· :: ·) rows) (List.replicate count [])

end Column

/-- Labelled rows under named columns. -/
structure Table where
  labels : List String
  columns : NameMap Column
deriving Repr, DecidableEq

namespace Table

def names (table : Table) : List String := table.columns.toList.map Prod.fst

def rows (table : Table) : List (List Cell) :=
  Column.toRows table.labels.length (table.columns.toList.map Prod.snd)

/-- The cells of a column. There are none of a column that is not in the table. -/
def cells (table : Table) (name : String) : List Cell :=
  match table.columns.get? name with
  | some column => column.cells
  | none => []

/-- The table with a column, in place of the one of that name or behind all others. -/
def withColumn (table : Table) (name : String) (column : Column) : Table :=
  { table with columns := table.columns.insert name column }

/-- Whether the rows hold nothing but numbers, though not all of one kind. -/
def mixesNumbers (table : Table) : Bool :=
  match table.columns.toList.map fun (_, column) => column.kind with
  | [] => false
  | kind :: kinds => (kind :: kinds).all Column.Kind.isNumeric && kinds.any (· != kind)

/-- The cells of a column as parts of their rows. A row of numbers of several kinds is one
of real numbers. -/
def cellsInRows (table : Table) (column : Column) : List Cell :=
  if table.mixesNumbers then column.cells.map Cell.widened else column.cells

end Table

end DesignByNumbers
