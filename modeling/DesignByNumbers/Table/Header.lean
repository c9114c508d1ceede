import DesignByNumbers.NameMap

/-!
# Table.Header — the names of columns

The fields of a header name the columns. An empty field gives a name that tells its place,
and a name that was given before gets a number, so that all names differ. Fields that are
not empty keep their names before those that are.
-/

namespace DesignByNumbers.Table

/-- The name of a column whose field in the header is empty. -/
def unnamed (place : Nat) : String := "Unnamed: " ++ place.repr

def numbered (name : String) (number : Nat) : String := name ++ "." ++ number.repr

/-- The least number, from a given one on, with which a name is not among others. One try
more than there are others is enough to find it. -/
def freeNumber (others : List String) (name : String) : Nat → Nat → Nat
  | 0, number => number
  | tries + 1, number =>
    if others.contains (numbered name number) then freeNumber others name tries (number + 1)
    else number

/-- Names on the way to be different: all of them in their places, and for each that was
given the number that it is next given with. -/
structure Naming where
  names : List String
  next : NameMap Nat
deriving Repr, DecidableEq

/-- The naming after a name was given to the column in a place. -/
def Naming.give (naming : Naming) (place : Nat) : Naming :=
  let name := naming.names.getD place ""
  match naming.next.get? name with
  | none => { naming with next := naming.next.insert name 1 }
  | some number =>
    let number := freeNumber naming.names name (naming.names.length + 1) number
    let fresh := numbered name number
    { names := naming.names.set place fresh
      next := (naming.next.insert name (number + 1)).insert fresh 1 }

def columnNames (fields : List String) : List String :=
  let indexed := fields.zipIdx
  let names := indexed.map fun (field, place) => if field.isEmpty then unnamed place else field
  let (empty, named) := indexed.partition fun (field, _) => field.isEmpty
  let start : Naming := { names, next := .empty }
  ((named ++ empty).foldl (fun naming (_, place) => Naming.give naming place) start).names

end DesignByNumbers.Table
