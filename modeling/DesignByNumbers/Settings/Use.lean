import DesignByNumbers.Backend
import DesignByNumbers.Settings.Composition

/-!
# Settings.Use — what settings describe

The section of the backend names what builds it and gives its arguments. The section of the
context gives the names that every program starts with. References are followed before
either is used.
-/

namespace DesignByNumbers.Settings

/-! ## Arguments -/

/-- The entry that tells whether arguments are built before they are used. -/
def recursionKey : String := "_recursive_"

/-- The entry that tells whether a backend is left to be built later. -/
def partialKey : String := "_partial_"

/-- The entry that holds arguments without names. -/
def positionalKey : String := "_args_"

/-- The entries of a backend's section that are no arguments with names. -/
def reservedKeys : List String :=
  [builderKey, recursionKey, partialKey, positionalKey, "_convert_"]

def setting? (entries : List (Scalar × Settings)) (name : String) : Option Settings :=
  entries.lookup (.text name)

/-- A truth value in a section, or the one it has without an entry. -/
def flag (entries : List (Scalar × Settings)) (name : String) (default : Bool) :
    Except Refusal Bool :=
  match setting? entries name with
  | none => .ok default
  | some (.scalar (.boolean value)) => .ok value
  | some _ => .error .wrongFlag

/-- The arguments of a section that have names. -/
def namedArguments (entries : List (Scalar × Settings)) : List (Scalar × Settings) :=
  entries.filter fun (key, _) => !reservedKeys.any fun name => key = .text name

/-- The arguments of a section that have none. -/
def positionalArguments? (entries : List (Scalar × Settings)) : Option (List Settings) :=
  match setting? entries positionalKey with
  | none => some []
  | some (.list items) => some items
  | some _ => none

def isNotGiven : Settings → Bool
  | .scalar value => value = .notGiven
  | _ => false

def hasBuilder : Settings → Bool
  | .group entries => (setting? entries builderKey).isSome
  | _ => false

/-- The arguments of a section by parameter. Every argument belongs to a parameter of its
own. -/
def assignArguments? (parameters : List String) (entries : List (Scalar × Settings)) :
    Option (NameMap Settings) := do
  let positional ← positionalArguments? entries
  let named ← (namedArguments entries).mapM fun (key, settings) => match key with
    | .text name => some (name, settings)
    | _ => none
  let remaining := parameters.drop positional.length
  if positional.length ≤ parameters.length && named.all (fun (name, _) => remaining.contains name) &&
      !(positional.any hasBuilder || named.any fun (_, settings) => hasBuilder settings) then
    some (.ofList (parameters.zip positional ++ named))
  else none

/-! ## Backends -/

/-- What a section builds. -/
inductive Product
  | backend (backend : Backend)
  /-- Something that is no backend, and why it is of no use as one. -/
  | other (refusal : Refusal)

def argument (name : String) (default : Markup.Value) (arguments : NameMap Settings) :
    Markup.Value :=
  match arguments.get? name with
  | some settings => .text settings.print
  | none => default

def buildVector (entries : List (Scalar × Settings)) : Except Refusal Backend :=
  match assignArguments? ["width", "height"] entries with
  | some arguments =>
    .ok (.vector { width := argument "width" Markup.Size.default.width arguments
                   height := argument "height" Markup.Size.default.height arguments })
  | none => .error .notBuildable

def buildRaster (entries : List (Scalar × Settings)) : Except Refusal Backend :=
  match assignArguments? ["encoding"] entries with
  | some arguments =>
    let name := ((arguments.get? "encoding").map name?).getD (some Picture.Encoding.test.name)
    match name.map Picture.Encoding.ofName with
    | some (.ok encoding) => .ok (.raster encoding)
    | _ => .error .notBuildable
  | none => .error .notBuildable

def builder? (name : String) : Option (List (Scalar × Settings) → Except Refusal Backend) :=
  if name = vectorBuilder then some buildVector
  else if name = rasterBuilder then some buildRaster
  else none

/-- What a section builds with the builder that it names. -/
def buildWith (target : Settings) (isPartial : Bool) (entries : List (Scalar × Settings)) :
    Except Refusal Product :=
  match (name? target).bind builder? with
  | none => .error .notBuildable
  | some build =>
    if isPartial then .ok (.other .unusable)
    else if (namedArguments entries).any fun (_, settings) => isNotGiven settings then
      .error .notGiven
    else (build entries).map Product.backend

/-- What a section builds. One without a builder stays a section. -/
def buildGroup (entries : List (Scalar × Settings)) : Except Refusal Product := do
  let _ ← flag entries recursionKey true
  let isPartial ← flag entries partialKey false
  match setting? entries builderKey with
  | none => return .other .absent
  | some target =>
    if isNotGiven target then return .other .absent
    else buildWith target isPartial entries

def build (settings : Settings) : Except Refusal Product :=
  match settings.child? backendKey with
  | none => .error .absent
  | some backend => do
    match ← settings.resolve [backendKey] backend with
    | .group entries => buildGroup entries
    | .scalar _ => .error .notBuildable
    | .list _ | .nullGroup => return .other .unusable

/-! ## Contexts -/

/-- The names of a section, each with the text of its settings. -/
def namesOf (entries : List (Scalar × Settings)) : NameMap String :=
  .ofList (entries.map fun (key, settings) => (key.print, settings.print))

/-- The names that settings let every program start with, each with a text. -/
def context (settings : Settings) : Except Refusal (NameMap String) :=
  match settings.child? contextKey with
  | none => .ok .empty
  | some names => do
    match ← settings.resolve [contextKey] names with
    | .group entries => return namesOf entries
    | .list _ => .error .unusable
    | others => if others.isVacant then return .empty else .error .wrongType

/-- The backend and the context that settings describe. The context is looked at before it
matters whether a backend was built. -/
def use (settings : Settings) : Except Refusal (Backend × NameMap String) := do
  let product ← settings.build
  let context ← settings.context
  match product with
  | .backend backend => return (backend, context)
  | .other refusal => .error refusal

end DesignByNumbers.Settings
