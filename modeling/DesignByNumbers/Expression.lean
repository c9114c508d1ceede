import DesignByNumbers.Cursor
import DesignByNumbers.Scope

/-!
# Expression — reading values

A value is a number, a name, a negated value, or a calculation between parentheses with
two operands. Reading one evaluates it: the result is a number token, at the place of the
number or name from which it was made, and for a calculation at that of its left operand.

Negation edits the text of a number, while a calculation converts its operands to integers
and prints the canonical text of the result.
-/

namespace DesignByNumbers

inductive Operation
  | add
  | subtract
  | multiply
  | divide
deriving Repr, DecidableEq

namespace Operation

/-- The operation that a token names. -/
def ofToken? (token : Token) : Option Operation :=
  if token.isSymbol "+" then some .add
  else if token.isSymbol "-" then some .subtract
  else if token.isSymbol "*" then some .multiply
  else if token.isSymbol "/" then some .divide
  else none

/-- The result of an operation. Division rounds down, and there is none by zero. -/
def result? (operation : Operation) (left right : Int) : Option Int :=
  match operation with
  | .add => some (left + right)
  | .subtract => some (left - right)
  | .multiply => some (left * right)
  | .divide => if right = 0 then none else some (Int.fdiv left right)

end Operation

namespace Token

def integer (token : Token) : Except Diagnostic Int :=
  match Numeral.parse? token.text with
  | some value => .ok value
  | none => .error (.blame token (.numberTooLarge token.text))

/-- The text of a number token, checked to denote an integer. -/
def drawable (token : Token) : Except Diagnostic String := do
  let _ ← token.integer
  return token.text

end Token

/-- Asks that enough tokens follow the head of a construct. -/
def Construct.require (construct : Construct) (head : Token) : Token.Reader Unit := fun _ rest =>
  if Token.fewerThan construct.minimumLength rest then
    .error (.blame head (.tooFewTokens construct))
  else .ok ((), rest)

namespace Expression

open Token (Reader next Takes IsLocal)

def evaluate (left operator right : Token) : Except Diagnostic Token := do
  let some operation := Operation.ofToken? operator
    | .error (.blame operator (.unknownOperation operator.text))
  let leftValue ← left.integer
  let rightValue ← right.integer
  let some value := operation.result? leftValue rightValue
    | .error (.blame operator .divisionByZero)
  let some text := Numeral.print? value
    | .error (.blame left .resultTooLarge)
  return left.withNumber text

/-- Whether a token is a symbol with which no operand starts. -/
def isMisplacedSymbol (token : Token) : Bool :=
  token.kind = .symbol && token.text != "(" && token.text != "-"

/-- Reads an operand of a calculation with a reader of values. -/
def operandWith (value : Token → Reader Token) : Reader Token := do
  let head ← next
  if isMisplacedSymbol head then
    .fail (.blame head (.unexpectedToken head.text))
  else value head

/-- Reads a calculation behind its opening parenthesis with a reader of values. -/
def calculationWith (value : Token → Reader Token) (opening : Token) : Reader Token := do
  Construct.calculation.require opening
  let left ← operandWith value
  let operator ← next
  let right ← operandWith value
  let closing ← next
  if closing.isSymbol ")" then .ofExcept (evaluate left operator right)
  else .fail (.blame closing (.calculationNotClosed closing.text))

/-- Reads a negated value or a calculation with a reader of the values in it. -/
def compoundWith (value : Token → Reader Token) (head : Token) : Reader Token :=
  if head.isSymbol "-" then do
    let operand ← next
    let number ← value operand
    return { number with text := Numeral.negate number.text }
  else if head.isSymbol "(" then calculationWith value head
  else .fail (.blame head (.notAValue head.text))

/-- Reads the value that starts with a token, with a reader of the values in it. -/
def valueWith (scope : Scope) (value : Token → Reader Token) (head : Token) : Reader Token :=
  match head.kind with
  | .number => pure head
  | .word => do
    let text ← .ofExcept (scope.number head)
    return head.withNumber text
  | _ => compoundWith value head

/-- Reads the value that starts with a token. The first argument bounds the nesting by its
length, so that nothing has to be counted: each level uses up one token of it, and a value
is never nested deeper than it has tokens. -/
def valueWithin (scope : Scope) : List Token → Token → Reader Token
  | [], head => .fail (.blame head (.notAValue head.text))
  | _ :: bound, head => valueWith scope (valueWithin scope bound) head

/-- Reads the value that starts with a token. -/
def value (scope : Scope) (head : Token) : Reader Token := fun last rest =>
  valueWithin scope (head :: rest) head last rest

/-- Reads a calculation behind its opening parenthesis. -/
def calculation (scope : Scope) (opening : Token) : Reader Token :=
  calculationWith (value scope) opening

/-- Reads the value that comes next. -/
def nextValue (scope : Scope) : Reader Token := do
  let head ← next
  value scope head

/-- Reads the value that comes next, which a drawing will use. -/
def nextDrawable (scope : Scope) : Reader String := do
  let number ← nextValue scope
  .ofExcept number.drawable

end Expression

end DesignByNumbers
