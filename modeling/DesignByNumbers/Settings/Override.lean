import DesignByNumbers.Settings.Reference
import DesignByNumbers.Settings.Value

/-!
# Settings.Override — changes to settings

An override is a key with a value, and a sign in front of the key tells what it does: it
changes what is there, adds what is not, does either, or deletes what is there. A key is a
path of names. It may name a package, as the choice of a section does.
-/

namespace DesignByNumbers.Settings

/-- What an override does under its key. -/
inductive Change
  | assign
  | add
  | addOrAssign
  /-- Deletes what is there, if it has the value of the override or that is null. -/
  | delete
deriving Repr, DecidableEq

/-- A change to settings. -/
structure Override where
  change : Change
  key : String
  package : Option String
  value : Value

namespace Override

/-! ## Keys -/

/-- Whether a text is a name in which dollar signs count as letters. -/
def isKeyName (characters : List Char) : Bool :=
  isName (characters.map fun c => if c = '$' then '_' else c)

/-- Whether a text is a path of names and whole numbers, or the empty path. -/
def isPath (characters : List Char) : Bool :=
  match characters.splitOn '.' with
  | [name] => name.isEmpty || isKeyName name
  | names => names.all fun name => isKeyName name || isWholeNumber name

/-- Whether a text is a path of several names with slashes between them. -/
def isSlashPath (characters : List Char) : Bool :=
  let names := characters.splitOn '/'
  1 < names.length && names.all isName

/-- The key and the package in a text. -/
def splitPackage? (characters : List Char) : Option (String × Option String) :=
  let (key, package) := Text.cut (· = '@') characters
  if (isPath key || isSlashPath key) && package.all isPath then
    some (String.ofList key, package.map String.ofList)
  else none

/-- The names along the key, from the outermost section inwards. -/
def path (entry : Override) : List String :=
  (entry.key.toList.splitOn '.').map String.ofList

/-! ## Reading -/

/-- The change that a sign in front of a key stands for, and what is behind the sign. -/
def splitChange : List Char → Change × List Char
  | '~' :: rest => (.delete, rest)
  | '+' :: '+' :: rest => (.addOrAssign, rest)
  | '+' :: rest => (.add, rest)
  | rest => (.assign, rest)

/-- Reads an override. Only a deletion does without a value. -/
def parse (written : String) : Except Refusal Override := do
  let (change, rest) := splitChange written.toList
  let (keyText, valueText) := Text.cut (· = '=') rest
  match splitPackage? keyText, valueText with
  | some (key, package), some written =>
    return { change, key, package, value := ← Value.parse written }
  | some (key, package), none =>
    if change = .delete then
      return { change, key, package, value := .single (.scalar .null) }
    else .error .unparsable
  | none, _ => .error .unparsable

/-! ## Carrying out -/

/-- What is at the end of the path, with its references replaced. A path must not lead
through a scalar. -/
def find? (root : Settings) (path : List String) : Except Refusal (Option Settings) :=
  let outer := (List.range path.length).tail.map fun n => root.select? (path.take n)
  let blocked := outer.any fun settings => match settings with
    | some (.scalar _) => true
    | _ => false
  let misplaced := (outer.zip path.tail).any fun (settings, name) => match settings with
    | some (.list _) => (place? name).isNone
    | _ => false
  if blocked || misplaced then .error .incompatible
  else
    match root.select? path with
    | none => .ok none
    | some settings =>
      match resolve root path settings with
      | .ok settings => .ok (if settings.isVacant then none else some settings)
      | .error _ => .error .incompatible

def isContainer : Settings → Bool
  | .group _ | .list _ => true
  | .scalar _ | .nullGroup => false

/-- The settings after a value was added. A section or a list may be merged into what is
there. -/
def add (path : List String) (value root : Settings) : Except Refusal Settings := do
  match ← find? root path with
  | none => put true value path root
  | some _ => if isContainer value then put true value path root else .error .incompatible

def remove (path : List String) (value root : Settings) : Except Refusal Settings := do
  match ← find? root path with
  | none => .error .incompatible
  | some settings =>
    if value.equals (.scalar .null) || value.equals settings then root.erase path
    else .error .incompatible

/-- The settings after an override. Only the choice of a section has a package. -/
def apply (entry : Override) (root : Settings) : Except Refusal Settings :=
  match entry.package, entry.value with
  | none, .single value =>
    match entry.change with
    | .delete => remove entry.path value root
    | .add => if value.isWellFormed then add entry.path value root else .error .incompatible
    | .assign | .addOrAssign =>
      if value.isWellFormed then put (entry.change = .addOrAssign) value entry.path root
      else .error .incompatible
  | _, _ => .error .incompatible

end Override

end DesignByNumbers.Settings
