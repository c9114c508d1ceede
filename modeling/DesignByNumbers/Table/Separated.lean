import DesignByNumbers.Table.Header
import DesignByNumbers.Table.Inference
import DesignByNumbers.Text.Quoted

/-!
# Table.Separated — tables as comma-separated text

Every record stands on a line of its own, and its fields are separated by commas. A field
between double quotes may hold anything, a double quote being written twice. The first
record names the columns. Lines of spaces and tabs are no records, and fields that a record
lacks at its end are empty. Fields in front of the named columns label the rows.
-/

namespace DesignByNumbers.Table

inductive Fault
  | noColumns
  /-- A quote is not closed, or a record has too many fields. -/
  | malformed
deriving Repr, DecidableEq

/-! ## Records -/

/-- Where in a record the next character stands. -/
inductive Position
  /-- At the start of a field. -/
  | start
  /-- Inside a field without quotes, or behind its closing quote and some text. -/
  | plain
  /-- Between quotes. -/
  | quoted
  /-- Right behind a quote that closes a field, unless another one follows. -/
  | closing
  /-- Right behind a carriage return that ended a record. -/
  | afterReturn
deriving Repr, DecidableEq

/-- A record that is being read, its characters and fields in reverse order. -/
structure Pending where
  position : Position
  characters : List Char
  fields : List String
  hasQuotes : Bool
deriving Repr

namespace Pending

def fresh (position : Position) : Pending :=
  { position, characters := [], fields := [], hasQuotes := false }

def push (pending : Pending) (position : Position) (c : Char) : Pending :=
  { pending with position, characters := c :: pending.characters }

def field (pending : Pending) : String :=
  String.ofList pending.characters.reverse

/-- The record with its last field ended by a comma. -/
def endField (pending : Pending) : Pending :=
  { pending with position := .start, characters := [], fields := pending.field :: pending.fields }

def isBlank (pending : Pending) : Bool :=
  pending.fields.isEmpty && !pending.hasQuotes &&
    pending.characters.all fun c => c = ' ' || c = '\t'

/-- The record in front of others, unless it is blank. -/
def endRecord (pending : Pending) (following : List (List String)) : List (List String) :=
  if pending.isBlank then following
  else (pending.field :: pending.fields).reverse :: following

end Pending

/-- The records of a text, the first of which is being read. There are none if the text ends
between quotes. -/
def recordsFrom : Pending → List Char → Option (List (List String))
  | pending, [] => if pending.position = .quoted then none else some (pending.endRecord [])
  | pending, c :: rest =>
    match pending.position with
    | .quoted =>
      if c = '"' then recordsFrom { pending with position := .closing } rest
      else recordsFrom (pending.push .quoted c) rest
    | position =>
      if c = '\n' then
        if position = .afterReturn then recordsFrom (.fresh .start) rest
        else (recordsFrom (.fresh .start) rest).map pending.endRecord
      else if c = '\r' then (recordsFrom (.fresh .afterReturn) rest).map pending.endRecord
      else if c = ',' then recordsFrom pending.endField rest
      else if c = '"' ∧ position = .closing then recordsFrom (pending.push .quoted c) rest
      else if c = '"' ∧ position ≠ .plain then
        recordsFrom { pending with position := .quoted, hasQuotes := true } rest
      else recordsFrom (pending.push .plain c) rest

/-- The mark that may stand at the start of an encoded text. -/
def byteOrderMark : Char := '\uFEFF'

def records (text : String) : Option (List (List String)) :=
  match text.toList with
  | [] => some []
  | c :: rest => recordsFrom (.fresh .start) (if c = byteOrderMark then rest else c :: rest)

/-! ## Labels -/

def labelText : Cell → String
  | .missing => "nan"
  | cell => cell.print

/-- The text of a cell that labels a row together with others. -/
def labelPart : Cell → String
  | .text content => Text.quoted content
  | cell => labelText cell

/-- The labels of rows from the columns in front, or else the numbers of the rows. -/
def labelsOf (count : Nat) : List Column → List String
  | [] => (List.range count).map Nat.repr
  | [column] => column.cells.map labelText
  | columns => (Column.toRows count columns).map fun cells =>
    "(" ++ String.intercalate ", " (cells.map labelPart) ++ ")"

/-! ## Reading -/

/-- The number of fields that records have: that of the header or, if it has more, of the
first record behind it. -/
def fieldCount (header : List String) (records : List (List String)) : Nat :=
  match records with
  | [] => header.length
  | first :: _ => if header.length < first.length then first.length else header.length

/-- The columns of fields, of which records that are too short have empty ones at the
end. -/
def columnsOf (width : Nat) (records : List (List String)) : List Column :=
  (List.range width).map fun place => .ofFields (records.map fun fields => fields.getD place "")

/-- The table with a header and further records. -/
def ofRecords (header : List String) (records : List (List String)) : Except Fault Table :=
  let width := fieldCount header records
  if records.any (width < ·.length) then .error .malformed
  else
    let (labels, columns) := (columnsOf width records).splitAt (width - header.length)
    .ok { labels := labelsOf records.length labels
          columns := .ofList ((columnNames header).zip columns) }

/-- The table that a text holds. -/
def parse (text : String) : Except Fault Table :=
  match records text with
  | none => .error .malformed
  | some [] => .error .noColumns
  | some (header :: records) => ofRecords header records

/-! ## Writing -/

def needsQuotes (field : List Char) : Bool :=
  field.any fun c => c = ',' || c = '"' || c = '\n'

/-- A text between double quotes, its own double quotes written twice. -/
def inQuotes (field : List Char) : List Char :=
  '"' :: (field.flatMap (fun c => if c = '"' then ['"', '"'] else [c]) ++ ['"'])

/-- A field as it is written. -/
def printField (field : String) : String :=
  if needsQuotes field.toList then String.ofList (inQuotes field.toList) else field

/-- A record as it is written. One of a single empty field takes quotes, for without them
its line would be blank. -/
def printRecord (fields : List String) : String :=
  if fields = [""] then "\"\"\n"
  else String.intercalate "," (fields.map printField) ++ "\n"

def print (table : Table) : String :=
  String.join ((table.names :: table.rows.map (·.map Cell.print)).map printRecord)

end DesignByNumbers.Table
