import DesignByNumbers.Double.Decimal
import DesignByNumbers.NameMap
import DesignByNumbers.Text.Quoted

/-!
# Settings — what a run of the compiler is set to

Settings form a tree with scalars at its leaves. Its sections hold settings under keys, its
lists hold them in places. Settings are put at the end of a path, where sections are merged
and everything else is replaced.
-/

namespace DesignByNumbers

/-- Why settings cannot be used. -/
inductive Settings.Refusal
  /-- An override does not follow the grammar. -/
  | unparsable
  /-- A named collection of settings does not exist. -/
  | unknownChoice
  /-- An override changes what is not there or adds what is. -/
  | incompatible
  /-- An override leads into a section that was set to null. -/
  | nullSection
  /-- A setting has a type that it must not have. -/
  | wrongType
  /-- A flag is no truth value, or a place in a list is no number. -/
  | wrongFlag
  /-- What is needed is not among the settings. -/
  | absent
  /-- What is needed is there but not of use. -/
  | unusable
  /-- A backend cannot be built from its section. -/
  | notBuildable
  /-- A setting that has to be given was not. -/
  | notGiven
  /-- A reference leads to nothing. -/
  | brokenReference
  /-- A reference leads to a setting that was not given. -/
  | referenceToNotGiven
  /-- A reference leads back to itself. -/
  | circularReference
  /-- A reference asks for something else than a setting. -/
  | unknownReference
deriving Repr, DecidableEq

namespace Settings

/-- A setting at a leaf. -/
inductive Scalar
  | null
  | boolean (value : Bool)
  | integer (value : Int)
  | real (value : Double)
  | text (content : String)
deriving Repr, DecidableEq

namespace Scalar

/-- The text that stands for a setting that has to be given. -/
def notGiven : Scalar := .text "???"

/-- The text of a scalar. -/
def print : Scalar → String
  | .null => "None"
  | .boolean true => "True"
  | .boolean false => "False"
  | .integer value => Numeral.decimal value
  | .real value => value.print
  | .text content => content

/-- The scalar as part of a section or a list. -/
def describe : Scalar → String
  | .text content => Text.quoted content
  | scalar => scalar.print

/-- The rational number that a scalar stands for; truth values are one and nought. -/
def toRat? : Scalar → Option Rat
  | .boolean value => some (if value then 1 else 0)
  | .integer value => some value
  | .real value => value.toRat?
  | .null | .text _ => none

/-- Whether two scalars are equal, as numbers if they are some. What is no number differs
even from itself. -/
def equals (a b : Scalar) : Bool :=
  match a.toRat?, b.toRat? with
  | some x, some y => x == y
  | none, none => a == b && a != .real .nan
  | _, _ => false

end Scalar

end Settings

/-- A tree of settings. -/
inductive Settings where
  | scalar (value : Settings.Scalar)
  | list (items : List Settings)
  | group (entries : List (Settings.Scalar × Settings))
  /-- A section that was set to null. -/
  | nullGroup

namespace Settings

/-- A text as settings. -/
def text (content : String) : Settings := .scalar (.text content)

/-- An integer as settings. -/
def integer (value : Int) : Settings := .scalar (.integer value)

/-- A section whose keys are texts. -/
def ofNamed (entries : List (String × Settings)) : Settings :=
  .group (entries.map fun (name, settings) => (.text name, settings))

/-! ## Texts -/

/-- Items between a pair of brackets. -/
def enclose (opening closing : String) (items : List String) : String :=
  opening ++ String.intercalate ", " items ++ closing

mutual

/-- The settings as part of a section or a list. -/
def describe : Settings → String
  | .scalar value => value.describe
  | .list items => enclose "[" "]" (describeItems items)
  | .group entries => enclose "\x7b" "\x7d" (describeEntries entries)
  | .nullGroup => Scalar.null.describe

/-- The items of a list. -/
def describeItems : List Settings → List String
  | [] => []
  | settings :: rest => settings.describe :: describeItems rest

/-- The entries of a section. -/
def describeEntries : List (Scalar × Settings) → List String
  | [] => []
  | (key, settings) :: rest =>
    (key.describe ++ ": " ++ settings.describe) :: describeEntries rest

end

/-- The text of settings. -/
def print : Settings → String
  | .scalar value => value.print
  | settings => settings.describe

/-! ## Comparison -/

mutual

/-- Whether settings are equal. The order of a section does not matter. -/
def equals : Settings → Settings → Bool
  | .scalar a, .scalar b => a.equals b
  | .list a, .list b => equalItems a b
  | .group a, .group b => a.length == b.length && agreeWith b a
  | .nullGroup, .nullGroup => true
  | _, _ => false

/-- Whether lists have equal items. -/
def equalItems : List Settings → List Settings → Bool
  | [], [] => true
  | a :: rest, b :: others => a.equals b && equalItems rest others
  | _, _ => false

/-- Whether every entry of a section has an equal one among others. -/
def agreeWith (others : List (Scalar × Settings)) : List (Scalar × Settings) → Bool
  | [] => true
  | (key, settings) :: rest =>
    (match others.lookup key with
      | some other => settings.equals other
      | none => false) && agreeWith others rest

end

/-- Whether settings are null or have to be given yet. -/
def isVacant : Settings → Bool
  | .scalar value => value == .null || value == .notGiven
  | .nullGroup => true
  | .list _ | .group _ => false

/-! ## Paths -/

/-- The place in a list that a name tells. -/
def place? (name : String) : Option Nat :=
  (Numeral.parse? name).map Int.toNat

/-- The settings under a name, which in a list tells a place. -/
def child? (name : String) : Settings → Option Settings
  | .group entries => entries.lookup (.text name)
  | .list items => (place? name).bind (items[·]?)
  | .scalar _ | .nullGroup => none

/-- The settings at the end of a path. -/
def select? : List String → Settings → Option Settings
  | [], settings => some settings
  | name :: path, settings => (settings.child? name).bind (select? path)

/-- The settings with others under a name. -/
def withChild (settings : Settings) (name : String) (child : Settings) : Settings :=
  match settings with
  | .group entries => .group (NameMap.insertEntry (.text name) child entries)
  | .list items =>
    match place? name with
    | some place => .list (items.set place child)
    | none => settings
  | .scalar _ | .nullGroup => settings

/-! ## Changes -/

/-- The settings in place of others. A section that is set to null remembers that it was
one. -/
def replace (old new : Settings) : Settings :=
  match old, new with
  | .group _, .scalar .null | .nullGroup, .scalar .null => .nullGroup
  | _, new => new

mutual

/-- The settings merged into those that are there, where new keys may be added or not. -/
def merge (mayAdd : Bool) (old : Settings) : Settings → Except Refusal Settings
  | .group entries =>
    match old with
    | .group present => mergeEntries mayAdd present entries
    | .nullGroup => mergeEntries mayAdd [] entries
    | .list _ => .error .incompatible
    | .scalar _ => .ok (.group entries)
  | .list items =>
    match old with
    | .group _ | .nullGroup => .error .incompatible
    | .list _ | .scalar _ => .ok (.list items)
  | new => .ok (old.replace new)

/-- A section with entries merged into those that are there. -/
def mergeEntries (mayAdd : Bool) (present : List (Scalar × Settings)) :
    List (Scalar × Settings) → Except Refusal Settings
  | [] => .ok (.group present)
  | (key, settings) :: rest =>
    match present.lookup key with
    | some old =>
      match merge mayAdd old settings with
      | .ok merged => mergeEntries mayAdd (NameMap.insertEntry key merged present) rest
      | .error refusal => .error refusal
    | none =>
      if mayAdd then mergeEntries mayAdd (NameMap.insertEntry key settings present) rest
      else .error .incompatible

end

/-- The settings with others put at the end of a path. If keys may be added, a scalar on the
way gives place to a section. -/
def put (mayAdd : Bool) (new : Settings) : List String → Settings → Except Refusal Settings
  | [], old => merge mayAdd old new
  | name :: path, .group entries =>
    match entries.lookup (.text name), mayAdd with
    | some child, _ =>
      (put mayAdd new path child).map fun child => (Settings.group entries).withChild name child
    | none, true =>
      (put mayAdd new path (.scalar .null)).map fun child =>
        (Settings.group entries).withChild name child
    | none, false => .error .incompatible
  | name :: path, .list items =>
    match place? name with
    | some place =>
      match items[place]? with
      | some child =>
        (put mayAdd new path child).map fun child => (Settings.list items).withChild name child
      | none => .error .incompatible
    | none => .error (if path.isEmpty then .wrongType else .wrongFlag)
  | name :: path, .scalar old =>
    if mayAdd && old != .notGiven then
      (put mayAdd new path (.scalar .null)).map fun child => ofNamed [(name, child)]
    else .error .incompatible
  | _ :: _, .nullGroup => .error .nullSection

/-- The settings without those at the end of a path. Items of lists are not erased. -/
def erase : List String → Settings → Except Refusal Settings
  | [name], .group entries => .ok (.group (entries.filter fun (key, _) => key != .text name))
  | [_], _ => .error .wrongFlag
  | [], settings => .ok settings
  | name :: path, settings =>
    match settings.child? name with
    | some child => (erase path child).map fun child => settings.withChild name child
    | none => .ok settings

end Settings

end DesignByNumbers
