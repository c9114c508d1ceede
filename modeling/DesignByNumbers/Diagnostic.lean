import DesignByNumbers.Problem
import DesignByNumbers.Token

/-!
# Diagnostic — problems with their places

A diagnostic is a problem and, when a token caused it, the place of that token. Its
layout names the place and draws a caret under the first character of the token.
-/

namespace DesignByNumbers

/-- A problem and the place of the token that caused it. -/
structure Diagnostic where
  problem : Problem
  location : Option Location
deriving Repr, DecidableEq

namespace Diagnostic

/-! ## Layout -/

def labelWidth : Nat := 8

def spaces (n : Nat) : String :=
  String.ofList (List.replicate n ' ')

/-- A headline with a severity label, and the place below it. The shorter of the two
labels is padded to the width of the other. -/
def layout (level message : String) (location : Option Location) : String :=
  let headline := level ++ ": " ++ spaces (labelWidth - level.length) ++ message
  let label := headline ++ "\nLocation: " ++ spaces (level.length - labelWidth)
  match location with
  | none => label ++ "unknown"
  | some { line, column, context } =>
    label ++ Numeral.decimal line ++ ":" ++ Numeral.decimal column ++
      "\n  " ++ context ++ "\n  " ++ spaces column.toNat ++ "^"

/-- The severity label of every diagnostic. -/
def severity : String := "Error"

def message (diagnostic : Diagnostic) : String := diagnostic.problem.message

def category (diagnostic : Diagnostic) : Category := diagnostic.problem.category

/-- The diagnostic as shown to a reader. -/
def render (diagnostic : Diagnostic) : String :=
  layout severity diagnostic.message diagnostic.location

/-- A problem at the place of a token. -/
def blame (token : Token) (problem : Problem) : Diagnostic :=
  { problem, location := some token.location }

/-- A problem at the place of a token that may be missing. -/
def near (token : Option Token) (problem : Problem) : Diagnostic :=
  { problem, location := token.map Token.location }

def unlocated (problem : Problem) : Diagnostic :=
  { problem, location := none }

end Diagnostic

/-- Why something that was asked for was not done. -/
inductive Failure
  /-- A diagnostic was reported. -/
  | diagnosed (diagnostic : Diagnostic)
  /-- A number could not be converted where no diagnostic covers it. -/
  | unconvertible
  /-- An integer left the range of a machine word. -/
  | outOfRange
  /-- A run went on for ever. -/
  | endless
deriving Repr, DecidableEq

namespace Token

/-- What is wrong with a token whose text does not have the shape of its kind. -/
def defect (token : Token) : Problem :=
  match token.kind with
  | .unknown name => .unknownKind name
  | kind => .malformedToken token.text kind.name

/-- Accepts a sequence of well-formed tokens, and reports the first other one. -/
def verify (tokens : List Token) : Except Diagnostic Unit :=
  match tokens.find? fun token => !token.isWellFormed with
  | none => .ok ()
  | some token => .error (.blame token token.defect)

end Token

end DesignByNumbers
