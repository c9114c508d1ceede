import DesignByNumbers.Diagnostic
import DesignByNumbers.NameMap

/-!
# Scope — the names visible at a point of a run

A name means a number, kept as text, or a command. A statement changes the scope it runs
in, or runs a command body in a child scope that starts as a copy. Numbers that enter a
scope from outside are checked to be plain numerals.
-/

namespace DesignByNumbers

/-- A command: its name, its parameters and the tokens of its body. -/
structure Command where
  name : String
  parameters : List String
  body : List Token
deriving Repr, DecidableEq, Inhabited

/-- What a name means. -/
inductive Binding
  | number (text : String)
  | command (command : Command)
deriving Repr, DecidableEq, Inhabited

/-- The names visible at a point of a run. -/
structure Scope where
  bindings : NameMap Binding
deriving Repr, DecidableEq, Inhabited

namespace Scope

/-- The scope without names. -/
def empty : Scope := ⟨.empty⟩

/-- What a name means. -/
def get? (scope : Scope) (name : String) : Option Binding :=
  scope.bindings.get? name

/-- Whether a name has a meaning. -/
def contains (scope : Scope) (name : String) : Bool :=
  scope.bindings.contains name

/-- The scope in which a name has a new meaning. -/
def bind (scope : Scope) (name : String) (binding : Binding) : Scope :=
  ⟨scope.bindings.insert name binding⟩

/-- Why a scope may not start with these meanings: the first number among them that is not
a plain numeral. -/
def defect? : List (String × Binding) → Option Problem
  | [] => none
  | (name, .number text) :: rest =>
    if Numeral.isPlain text then defect? rest else some (.notAnInteger name text)
  | (_, .command _) :: rest => defect? rest

/-- The scope that starts with the given meanings. -/
def ofBindings (bindings : NameMap Binding) : Except Diagnostic Scope :=
  match defect? bindings.toList with
  | none => .ok ⟨bindings⟩
  | some problem => .error (.unlocated problem)

/-- A copy of the scope with further meanings, all of them checked anew. -/
def deriveChild (scope : Scope) (bindings : NameMap Binding) : Except Diagnostic Scope :=
  ofBindings (scope.bindings.insertAll bindings.toList)

/-- The number that a token names. -/
def number (scope : Scope) (token : Token) : Except Diagnostic String :=
  match scope.get? token.text with
  | none => .error (.blame token (.undeclared token.text))
  | some (.command _) => .error (.blame token (.commandAsNumber token.text))
  | some (.number text) => .ok text

end Scope

/-! ## Descriptions -/

/-- Items between parentheses. A single item is followed by a comma. -/
def describeTuple : List String → String
  | [item] => "(" ++ item ++ ",)"
  | items => "(" ++ String.intercalate ", " items ++ ")"

/-- The command as shown to a developer. -/
def Command.describe (command : Command) : String :=
  "CommandDefinition(name=" ++ Text.quoted command.name ++
    ", parameters=" ++ describeTuple (command.parameters.map Text.quoted) ++
    ", body=" ++ describeTuple (command.body.map Token.describe) ++ ")"

/-- The meaning of a name as shown to a developer. -/
def Binding.describe : Binding → String
  | .number text => Text.quoted text
  | .command definition => definition.describe

/-- Names and descriptions between braces. -/
def describeEntries (entries : List (String × String)) : String :=
  "\x7b" ++
    String.intercalate ", " (entries.map fun (name, value) => Text.quoted name ++ ": " ++ value) ++
    "\x7d"

/-- The scope as shown to a developer. -/
def Scope.describe (scope : Scope) : String :=
  "Scope(" ++
    describeEntries (scope.bindings.toList.map fun (name, binding) => (name, binding.describe)) ++
    ")"

end DesignByNumbers
