import DesignByNumbers.DrawOp
import DesignByNumbers.Keyword

/-!
# Problem — what a diagnostic is about

Every reason for which a program or a drawing is refused, with its wording. A problem
blames the program, or, in the category of internal problems, whoever assembled what a run
or a backend was given.
-/

namespace DesignByNumbers

/-- A construct that asks for a number of tokens before it is read. -/
inductive Construct
  | paper
  | pen
  | line
  | assignment
  | dot
  | loop
  | check (comparison : Comparison)
  | definition
  | calculation
deriving Repr, DecidableEq

namespace Construct

/-- How many tokens have to follow. -/
def minimumLength : Construct → Nat
  | .paper | .pen => 1
  | .assignment => 2
  | .definition => 3
  | .line | .dot | .calculation => 4
  | .loop | .check _ => 5

/-- What is said when fewer follow. -/
def complaint : Construct → String
  | .paper => "Paper requires 1 argument."
  | .pen => "Pen requires 1 argument."
  | .line => "Line requires 4 arguments."
  | .assignment => "Set requires 2 arguments."
  | .dot => "Dot requires 4 arguments."
  | .loop => "Repeat does not end."
  | .check comparison => comparison.text ++ "? does not end."
  | .definition => "Command does not end."
  | .calculation => "Calculation does not end."

end Construct

/-- Whom a problem blames. -/
inductive Category
  | input
  | internal
deriving Repr, DecidableEq

/-- The name of a category. -/
def Category.name : Category → String
  | .input => "InputError"
  | .internal => "InternalError"

/-- A reason to refuse a program or a drawing. Texts are those of the tokens at fault. -/
inductive Problem
  -- Tokens
  | unknownKind (kind : String)
  | malformedToken (text kind : String)
  | unexpectedEnd
  | tooFewTokens (construct : Construct)
  | unexpectedToken (text : String)
  -- Names
  | notAnInteger (name value : String)
  | undeclared (name : String)
  | commandAsNumber (name : String)
  | unknownKeyword (name : String)
  | variableAsStatement (name : String)
  -- Expressions
  | notAValue (text : String)
  | numberTooLarge (text : String)
  | resultTooLarge
  | calculationNotClosed (text : String)
  | unknownOperation (text : String)
  | divisionByZero
  -- Statements
  | blockNotOpened (text : String)
  | blockNotClosed
  | notAVariable (text : String)
  | dotNotClosed (text : String)
  | notALoopVariable (text : String)
  | missingQuestionMark (comparison : Comparison) (text : String)
  -- Commands
  | notACommandName (text : String)
  | keywordRedefined (name : String)
  | nameTaken (name : String)
  | parametersNotEnded
  | parameterTaken (name : String)
  | tooFewArguments (name : String) (expected found : Nat)
  -- Drawings
  | unreadableNumber (op : DrawOp)
  | unknownEncoding (name : String)
deriving Repr, DecidableEq

namespace Problem

/-- A text between double quotes, which are not escaped. -/
def named (text : String) : String := "\"" ++ text ++ "\""

/-- How much of an overlong number is shown. -/
def shownDigits : Nat := 20

/-- The wording of a problem. -/
def message : Problem → String
  | .unknownKind kind => "Unknown token type: " ++ named kind ++ "."
  | .malformedToken text kind =>
    "Token " ++ named text ++ " doesn't match its type: " ++ named kind ++ "."
  | .unexpectedEnd => "Unexpected program end."
  | .tooFewTokens construct => "Unexpected program end. " ++ construct.complaint
  | .unexpectedToken text => "Unexpected token " ++ named text ++ "."
  | .notAnInteger name value =>
    "Initial value of " ++ named name ++ " is not an integer: " ++ named value ++ "."
  | .undeclared name => "Use of undeclared identifier " ++ named name ++ "."
  | .commandAsNumber name => named name ++ " is a command, not a number."
  | .unknownKeyword name => named name ++ " is not a valid keyword."
  | .variableAsStatement name =>
    "Unexpected variable " ++ named name ++ " used as a statement."
  | .notAValue text => "Cannot resolve " ++ named text ++ " to a number."
  | .numberTooLarge text =>
    "Number " ++ named (String.ofList (text.toList.take shownDigits) ++ "...") ++ " is too large."
  | .resultTooLarge => "Result of calculation is too large."
  | .calculationNotClosed text => "Unexpected token " ++ named text ++ ", expected \")\"."
  | .unknownOperation text => named text ++ " is not a valid operation."
  | .divisionByZero => "Division by zero."
  | .blockNotOpened text => "Block expects to start with \"\x7b\", not " ++ named text ++ "."
  | .blockNotClosed => "Unexpected end of file. Block did not terminate with a \"\x7d\"."
  | .notAVariable text => named text ++ " is not a valid variable name."
  | .dotNotClosed text =>
    "Unexpected token " ++ named text ++ ", a dot should be closed with \"]\"."
  | .notALoopVariable text => "Unexpected value " ++ named text ++ ". Expected a variable."
  | .missingQuestionMark comparison text =>
    "Expected " ++ comparison.text ++ "?, not " ++ named (comparison.text ++ text) ++ "."
  | .notACommandName text => "Unexpected command name " ++ named text ++ "."
  | .keywordRedefined name => "Cannot redefine keyword " ++ named name ++ "."
  | .nameTaken name => "Existing command or variable named " ++ named name ++ "."
  | .parametersNotEnded => "Unexpected end of program."
  | .parameterTaken name => named name ++ " is an existing variable."
  | .tooFewArguments name expected found =>
    "Expected " ++ expected.repr ++ " arguments to " ++ named name ++ ", got " ++ found.repr ++ "."
  | .unreadableNumber op => "Invalid number in " ++ op.describe ++ "."
  | .unknownEncoding name => "Unknown raster encoding " ++ named name ++ "."

/-- Malformed tokens, tokens that cannot start a value, and unknown encodings are not the
program's fault. -/
def category : Problem → Category
  | .unknownKind _ | .malformedToken _ _ | .notAValue _ | .unknownEncoding _ => .internal
  | _ => .input

end Problem

end DesignByNumbers
