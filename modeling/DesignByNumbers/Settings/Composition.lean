import DesignByNumbers.Settings.Override

/-!
# Settings.Composition — settings from stored sections and overrides

Settings are composed in two stages. First sections that are stored by name are selected
for their packages; overrides of a group choose other sections, add some or drop some. Then
the remaining overrides are carried out from left to right.
-/

namespace DesignByNumbers.Settings

/-! ## Stored settings -/

/-- The section of the backend, and the group of the sections that are stored for it. -/
def backendKey : String := "backend"

/-- The section of the names that every program starts with. -/
def contextKey : String := "context"

/-- The entry that tells what builds a backend. -/
def builderKey : String := "_target_"

/-- What builds a vector backend. -/
def vectorBuilder : String := "dbn.backends.vector.VectorBackend"

/-- What builds a raster backend. -/
def rasterBuilder : String := "dbn.backends.raster.RasterBackend"

/-- The section that is stored for a backend under a name. -/
def storedBackend? (name : String) : Option Settings :=
  if name = "vector" then
    some (ofNamed [(builderKey, text vectorBuilder), ("width", integer 100),
      ("height", integer 100)])
  else if name = "raster_test" then
    some (ofNamed [(builderKey, text rasterBuilder), ("encoding", text "test")])
  else if name = "raster_binary" then
    some (ofNamed [(builderKey, text rasterBuilder), ("encoding", text "binary")])
  else none

/-- The section of the backend that is selected when no other is chosen. -/
def defaultBackend : String := "vector"

/-- The name of the settings of the compiler. -/
def compilerName : String := "compile"

/-- What is stored under a name. -/
inductive Stored
  | compiler
  | backend (settings : Settings)

/-- The ending that a name may have. -/
def nameEnding : String := ".yaml"

/-- A name without its ending. -/
def withoutEnding (name : List Char) : List Char :=
  if nameEnding.toList.isSuffixOf name then name.take (name.length - nameEnding.length) else name

/-- What is stored under a name, that of a group in front of it. -/
def stored? (name : String) : Option Stored :=
  let name := withoutEnding name.toList
  match Text.cut (· = '/') name with
  | (name, none) => if String.ofList name = compilerName then some .compiler else none
  | (front, some name) =>
    if String.ofList front = backendKey then
      (storedBackend? (String.ofList name)).map Stored.backend
    else none

/-! ## Groups -/

/-- The sections that are chosen from a group. -/
inductive Choice
  | one (name : String)
  | several (names : List String)
deriving Repr, DecidableEq

/-- The names that are chosen. -/
def Choice.names : Choice → List String
  | .one name => [name]
  | .several names => names

/-- The name that settings are. -/
def name? : Settings → Option String
  | .scalar (.text name) => some name
  | _ => none

/-- The choice that settings stand for. -/
def Choice.ofSettings (settings : Settings) : Except Refusal Choice :=
  match settings with
  | .scalar (.text name) => .ok (.one name)
  | .list items =>
    match items.mapM name? with
    | some names => .ok (.several names)
    | none => .error .wrongFlag
  | .scalar _ | .group _ | .nullGroup => .error .wrongType

/-- A choice from a group for a package, the path of a section. -/
structure Selection where
  group : String
  package : List String
  choice : Choice
deriving Repr, DecidableEq

namespace Selection

/-- The package for a group unless another is given. -/
def defaultPackage (group : String) : List String :=
  if group.isEmpty then [] else [group]

/-- The package with a name. -/
def packageOf (group name : String) : List String :=
  if name.isEmpty || name = "_global_" then []
  else if name = "_group_" then defaultPackage group
  else (name.toList.splitOn '.').map String.ofList

/-- The key under which overrides know a selection. -/
def key (selection : Selection) : String :=
  if selection.package = defaultPackage selection.group then selection.group
  else if selection.package.isEmpty then selection.group ++ "@_global_"
  else selection.group ++ "@" ++ String.intercalate "." selection.package

/-- What is stored for a selection. -/
def load (selection : Selection) : Except Refusal (List Stored) :=
  selection.choice.names.mapM fun name =>
    match stored? (if selection.group.isEmpty then name else selection.group ++ "/" ++ name) with
    | some stored => .ok stored
    | none => .error .unknownChoice

end Selection

/-- What overrides say about groups, and the other overrides. -/
structure Choices where
  chosen : NameMap Choice
  added : List Selection
  dropped : NameMap (Option String)
  others : List Override

namespace Choices

/-- What no overrides say. -/
def empty : Choices := { chosen := .empty, added := [], dropped := .empty, others := [] }

/-- Whether a key is that of a group. The stored settings as a whole are one, without a
name. -/
def isGroup (key : String) : Bool := key = backendKey || key.isEmpty

/-- The key of an override together with its package. -/
def keyOf (entry : Override) : String :=
  match entry.package with
  | none => entry.key
  | some package => entry.key ++ "@" ++ package

/-- The name of the section that an override drops, or none for any. -/
def droppedName (value : Settings) : Except Refusal (Option String) :=
  match value with
  | .scalar .null => .ok none
  | .scalar (.text name) => .ok (some name)
  | _ => .error .wrongType

/-- What overrides say with one more about a group. -/
def note (choices : Choices) (entry : Override) (value : Settings) : Except Refusal Choices := do
  match entry.change with
  | .addOrAssign => .error .incompatible
  | .delete =>
    return { choices with dropped := choices.dropped.insert (keyOf entry) (← droppedName value) }
  | .add =>
    let package := match entry.package with
      | none => Selection.defaultPackage entry.key
      | some name => Selection.packageOf entry.key name
    let selection := { group := entry.key, package, choice := ← Choice.ofSettings value }
    return { choices with added := choices.added ++ [selection] }
  | .assign =>
    return { choices with chosen := choices.chosen.insert (keyOf entry) (← Choice.ofSettings value) }

/-- What overrides say with one more. A section as a value is merged like any other
setting. -/
def insert (choices : Choices) (entry : Override) : Except Refusal Choices :=
  let others := { choices with others := choices.others ++ [entry] }
  match entry.value with
  | .single (.group _) => .ok others
  | .single value => if isGroup entry.key then choices.note entry value else .ok others
  | .alternatives => .error .incompatible

/-- What overrides say from left to right. -/
def ofOverrides (overrides : List Override) : Except Refusal Choices :=
  overrides.foldlM insert empty

/-- A selection with the choice of overrides. -/
def choose (choices : Choices) (selection : Selection) : Selection :=
  { selection with choice := (choices.chosen.get? selection.key).getD selection.choice }

/-- Whether a selection is dropped. -/
def drops (choices : Choices) (selection : Selection) : Bool :=
  match selection.choice, choices.dropped.get? selection.key with
  | .one name, some expected => expected.all (· = name)
  | _, _ => false

/-- Whether all that is said about groups is about one of the selections. -/
def areUsed (choices : Choices) (selections : List Selection) : Bool :=
  (choices.chosen.toList.all fun (key, _) => selections.any (·.key = key)) &&
    choices.dropped.toList.all fun (key, _) =>
      selections.any fun selection => selection.key = key && choices.drops selection

end Choices

/-! ## Composition -/

/-- Whether two of the selections of one section have the same key. -/
def haveRepeatedKey (selections : List Selection) : Bool :=
  let keys := selections.filterMap fun selection => match selection.choice with
    | .one _ => some selection.key
    | .several _ => none
  keys.eraseDups.length < keys.length

/-- Settings with what is stored put into a package. The settings of the compiler are there
already. -/
def install (root : Settings) (package : List String) : Stored → Except Refusal Settings
  | .compiler => .error .incompatible
  | .backend settings => put true settings package root

/-- The settings with selections from groups. -/
def installAll (choices : Choices) (selections : List Selection) (root : Settings) :
    Except Refusal Settings := do
  let selections := selections.map choices.choose
  let kept := selections.filter fun selection => !choices.drops selection
  let loaded ← kept.mapM fun selection => do return (selection.package, ← selection.load)
  if haveRepeatedKey kept || !choices.areUsed selections then .error .incompatible
  else
    loaded.foldlM (fun root (package, stored) =>
      stored.foldlM (fun root stored => install root package stored) root) root

/-- The settings with a name after the choices of overrides. Only those of the compiler
select from groups by themselves. -/
def base (name : String) (choices : Choices) : Except Refusal Settings :=
  match stored? name with
  | none => .error .unknownChoice
  | some .compiler =>
    let selection :=
      { group := backendKey, package := [backendKey], choice := .one defaultBackend }
    installAll choices (selection :: choices.added) (ofNamed [(contextKey, .group [])])
  | some (.backend settings) =>
    if choices.added.isEmpty then installAll choices [] (ofNamed [(backendKey, settings)])
    else .error .unknownChoice

/-- The settings with a name after overrides. All overrides are read first. -/
def compose (name : String) (overrides : List String) : Except Refusal Settings := do
  let overrides ← overrides.mapM Override.parse
  if overrides.any fun entry => entry.value.settings?.isNone then .error .incompatible
  else
    let choices ← Choices.ofOverrides overrides
    choices.others.foldlM (fun settings entry => entry.apply settings) (← base name choices)

end DesignByNumbers.Settings
