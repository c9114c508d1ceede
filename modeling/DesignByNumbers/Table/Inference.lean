import DesignByNumbers.Double.Stepwise
import DesignByNumbers.Table

/-!
# Table.Inference — columns from the fields of a text

A field is missing if it is empty or a word for nothing. The other fields of a column are
integers of 64 bits if all of them can be, else real numbers, else truth values, and texts
if nothing else fits. Integers beside missing fields are real numbers.
-/

namespace DesignByNumbers.Column

/-- The fields that stand for a missing cell. -/
def missingWords : List String :=
  ["", "#N/A", "#N/A N/A", "#NA", "-1.#IND", "-1.#QNAN", "-NaN", "-nan", "1.#IND", "1.#QNAN",
    "<NA>", "N/A", "NA", "NULL", "NaN", "None", "n/a", "nan", "null"]

/-- A field, unless it stands for a missing cell. -/
def present? (field : String) : Option String :=
  if missingWords.contains field then none else some field

/-! ## Integers -/

/-- Why a field is no integer of a column. -/
inductive Misfit
  | malformed
  | beyond
deriving Repr, DecidableEq

def leastInteger : Int := -9223372036854775808

def greatestInteger : Int := 9223372036854775807

def greatestUnsigned : Int := 18446744073709551615

def hasMinus (field : String) : Bool :=
  (field.toList.dropWhile Text.isAsciiBlank).head? == some '-'

/-- The integer in a field: a sign and digits with blanks around them. That it lies within
bounds is checked before what follows its digits. -/
def integer (least greatest : Int) (field : String) : Except Misfit Int :=
  let (negative, magnitude) := Text.splitSign (field.toList.dropWhile Text.isAsciiBlank)
  let digits := magnitude.takeWhile Char.isDigit
  let size : Int := Numeral.ofAsciiDigits digits
  let value := if negative then -size else size
  if digits.isEmpty then .error .malformed
  else if value < least ∨ greatest < value then .error .beyond
  else if (magnitude.dropWhile Char.isDigit).all Text.isAsciiBlank then .ok value
  else .error .malformed

/-- The integer in a field of a column without signs. One with a minus sign is not read
any further. -/
def unsigned (field : String) : Except Misfit Int :=
  if hasMinus field then .ok 0 else integer 0 greatestUnsigned field

/-- The cell of an integer in a column of real numbers. The least integer marks a missing
cell there. -/
def realOfInteger (value : Int) : Cell :=
  if value = leastInteger then .missing else .real (.ofInt value)

/-- The column of integers, some of which may be missing. -/
def ofIntegers (values : List (Option Int)) : Column :=
  if values.all Option.isSome then { kind := .integer, cells := values.filterMap (·.map Cell.integer) }
  else
    { kind := .real
      cells := values.map fun value => match value with
        | some value => realOfInteger value
        | none => .missing }

/-! ## The other kinds -/

/-- The column of texts, some of which may be missing. -/
def ofPresent (fields : List (Option String)) : Column :=
  { kind := .mixed
    cells := fields.map fun field => match field with
      | some content => .text content
      | none => .missing }

/-- The cells that fields stand for, if each of them that is not missing has one. -/
def cellsOf? (read : String → Option Cell) (fields : List (Option String)) :
    Option (List Cell) :=
  fields.mapM fun field => match field with
    | some content => read content
    | none => some .missing

def real? (field : String) : Option Cell :=
  (Double.parseStepwise? field.toList).map Cell.real

def boolean? (field : String) : Option Cell :=
  let word := String.ofList (field.toList.map Char.toLower)
  if word = "true" then some (.boolean true)
  else if word = "false" then some (.boolean false)
  else none

/-- The column of fields that are not all integers. -/
def ofOthers (fields : List (Option String)) : Column :=
  match cellsOf? real? fields, cellsOf? boolean? fields with
  | some cells, _ => { kind := .real, cells }
  | none, some cells => { kind := if cells.contains .missing then .mixed else .boolean, cells }
  | none, none => ofPresent fields

/-- The column of fields that hold integers beyond those with a sign. If some of them need
the place of the sign while others have one or are missing, all fields are kept as they
stand. -/
def ofLargeIntegers (fields : List String) (values : List (Option Int)) : Column :=
  let needsPlace := values.any fun value => value.any (greatestInteger < ·)
  let hasSigns := fields.any hasMinus
  if needsPlace && (hasSigns || values.any Option.isNone) then ofTexts fields
  else if hasSigns then ofPresent (fields.map present?)
  else { kind := .unsigned, cells := values.filterMap (·.map Cell.integer) }

def ofFields (fields : List String) : Column :=
  let present := fields.map present?
  match present.mapM fun field => field.mapM (integer leastInteger greatestInteger) with
  | .ok values => ofIntegers values
  | .error .malformed => ofOthers present
  | .error .beyond =>
    match present.mapM fun field => field.mapM unsigned with
    | .ok values => ofLargeIntegers fields values
    | .error .malformed => ofOthers present
    | .error .beyond => ofPresent present

end DesignByNumbers.Column
