import DesignByNumbers.Block
import DesignByNumbers.Expression

/-!
# Instruction — statements whose arguments are read

Reading a statement evaluates everything that stands before its block, and changes
nothing. What is left to do is an instruction: one operation to draw, one name to bind, or
a block to run.
-/

namespace DesignByNumbers

namespace Comparison

/-- Whether a comparison holds of two number tokens. -/
def holds (comparison : Comparison) (left right : Token) : Except Diagnostic Bool :=
  match comparison with
  | .same => .ok (left.text = right.text)
  | .notSame => .ok (left.text ≠ right.text)
  | .smaller => do
    let leftValue ← left.integer
    let rightValue ← right.integer
    return decide (leftValue < rightValue)
  | .notSmaller => do
    let leftValue ← left.integer
    let rightValue ← right.integer
    return !decide (leftValue < rightValue)

end Comparison

/-- What a statement does once its arguments are read. -/
inductive Instruction
  /-- Add an operation to the trace. -/
  | draw (op : DrawOp)
  /-- Give a name a meaning. -/
  | bind (name : String) (binding : Binding)
  /-- Run a block once for each integer from the first bound to the last one, in either
  direction, with a name bound to it. -/
  | loop (name : String) (first last : Int) (block : List Token)
  /-- Run a block if a comparison held. -/
  | check (held : Bool) (block : List Token)
  /-- Run the body of a command in a scope of its own. -/
  | call (scope : Scope) (body : List Token)
deriving Repr, DecidableEq

namespace Instruction

open Token (Reader next)

variable (scope : Scope)

/-! ## Drawing -/

/-- Reads the colour that a construct sets. -/
def ofColour (construct : Construct) (op : String → DrawOp) (head : Token) :
    Reader Instruction := do
  construct.require head
  let colour ← Expression.nextDrawable scope
  return .draw (op colour)

/-- Reads the ends of a line, checking each coordinate before the next is read. -/
def ofLine (head : Token) : Reader Instruction := do
  Construct.line.require head
  let x0 ← Expression.nextDrawable scope
  let y0 ← Expression.nextDrawable scope
  let x1 ← Expression.nextDrawable scope
  let y1 ← Expression.nextDrawable scope
  return .draw (.line x0 y0 x1 y1)

/-- The dot of three number tokens, checked in their order. -/
def dot (x y colour : Token) : Except Diagnostic Instruction := do
  let xText ← x.drawable
  let yText ← y.drawable
  let colourText ← colour.drawable
  return .draw (.point xText yText colourText)

/-- Reads a dot behind its opening bracket. The numbers are checked once all are read. -/
def ofDot (opening : Token) : Reader Instruction := do
  Construct.dot.require opening
  let x ← Expression.nextValue scope
  let y ← Expression.nextValue scope
  let closing ← next
  if closing.isSymbol "]" then do
    let colour ← Expression.nextValue scope
    .ofExcept (dot x y colour)
  else .fail (.blame closing (.dotNotClosed closing.text))

/-! ## Assignment -/

/-- Reads a dot or an assignment to a variable. -/
def ofAssignment (head : Token) : Reader Instruction := do
  Construct.assignment.require head
  let target ← next
  if target.isSymbol "[" then ofDot scope target
  else if target.kind = .word then do
    let number ← Expression.nextValue scope
    return .bind target.text (.number number.text)
  else .fail (.blame target (.notAVariable target.text))

/-! ## Blocks -/

def loopBetween (name : String) (start finish : Token) (block : List Token) :
    Except Diagnostic Instruction := do
  let firstIndex ← start.integer
  let lastIndex ← finish.integer
  return .loop name firstIndex lastIndex block

/-- Reads a loop. The bounds are converted once the block is known to end. -/
def ofLoop (head : Token) : Reader Instruction := do
  Construct.loop.require head
  let counter ← next
  if counter.kind = .word then do
    let start ← Expression.nextValue scope
    let finish ← Expression.nextValue scope
    let block ← Block.extract
    .ofExcept (loopBetween counter.text start finish block)
  else .fail (.blame counter (.notALoopVariable counter.text))

def guarded (comparison : Comparison) (left right : Token) (block : List Token) :
    Except Diagnostic Instruction := do
  let held ← comparison.holds left right
  return .check held block

/-- Reads a comparison and the block it guards. The operands are compared once the block
is known to end. -/
def ofCheck (comparison : Comparison) (head : Token) : Reader Instruction := do
  (Construct.check comparison).require head
  let mark ← next
  if mark.isSymbol "?" then do
    let left ← Expression.nextValue scope
    let right ← Expression.nextValue scope
    let block ← Block.extract
    .ofExcept (guarded comparison left right block)
  else .fail (.blame mark (.missingQuestionMark comparison mark.text))

/-! ## Commands -/

/-- The parameters of a command up to the brace that opens its body, and the tokens from
that brace on. Names already in use are refused; the same parameter twice is not. -/
def splitParameters (head : Token) : List Token → Except Diagnostic (List String × List Token)
  | [] => .error (.blame head .parametersNotEnded)
  | token :: rest =>
    if token.isSymbol "\x7b" then .ok ([], token :: rest)
    else if token.kind ≠ .word then .error (.blame token (.unexpectedToken token.text))
    else if scope.contains token.text then .error (.blame token (.parameterTaken token.text))
    else
      match splitParameters head rest with
      | .ok (names, rest) => .ok (token.text :: names, rest)
      | .error diagnostic => .error diagnostic

/-- Reads the parameters of a command and its body. -/
def signature (head : Token) : Reader (List String × List Token) := fun last rest =>
  match splitParameters scope head rest with
  | .ok (names, rest) => (return (names, ← Block.extract) : Reader _) last rest
  | .error diagnostic => .error diagnostic

/-- Reads the definition of a command under a name not in use. -/
def ofDefinition (head : Token) : Reader Instruction := do
  Construct.definition.require head
  let name ← next
  if name.kind ≠ .word then .fail (.blame name (.notACommandName name.text))
  else if (Keyword.ofText? name.text).isSome then
    .fail (.blame name (.keywordRedefined name.text))
  else if scope.contains name.text then .fail (.blame name (.nameTaken name.text))
  else do
    let (names, body) ← signature scope head
    return .bind name.text (.command { name := name.text, parameters := names, body })

/-- Reads one argument for each parameter. -/
def arguments : List String → Reader (List (String × Binding))
  | [] => return []
  | parameter :: others => do
    let number ← Expression.nextValue scope
    let bindings ← arguments others
    return (parameter, .number number.text) :: bindings

def callWith (command : Command) (bindings : List (String × Binding)) :
    Except Diagnostic Instruction := do
  let child ← scope.deriveChild (.ofList bindings)
  return .call child command.body

/-- Asks that as many tokens follow the head of a call as its command has parameters. -/
def requireArguments (command : Command) (head : Token) : Reader Unit := fun _ rest =>
  let expected := command.parameters.length
  if Token.fewerThan expected rest then
    .error (.blame head (.tooFewArguments command.name expected rest.length))
  else .ok ((), rest)

def ofCall (command : Command) (head : Token) : Reader Instruction := do
  requireArguments command head
  let bindings ← arguments scope command.parameters
  .ofExcept (callWith scope command bindings)

/-! ## Statements -/

def ofKeyword (keyword : Keyword) (head : Token) : Reader Instruction :=
  match keyword with
  | .paper => ofColour scope .paper .background head
  | .pen => ofColour scope .pen .foreground head
  | .line => ofLine scope head
  | .assign => ofAssignment scope head
  | .loop => ofLoop scope head
  | .define => ofDefinition scope head
  | .check comparison => ofCheck scope comparison head

/-- Reads the statement that starts with a token: one of a keyword, even where its word is
also a name in scope, or the call of a command. -/
def ofStatement (head : Token) : Reader Instruction :=
  if head.kind ≠ .word then .fail (.blame head (.unexpectedToken head.text))
  else
    match Keyword.ofText? head.text with
    | some keyword => ofKeyword scope keyword head
    | none =>
      match scope.get? head.text with
      | none => .fail (.blame head (.unknownKeyword head.text))
      | some (.number _) => .fail (.blame head (.variableAsStatement head.text))
      | some (.command command) => ofCall scope command head

end Instruction

end DesignByNumbers
