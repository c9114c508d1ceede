import DesignByNumbers.Program

/-!
# Proofs.Demands — runs that ask for fewer tokens

A construct asks for a number of tokens before it is read, and a call for as many as it has
arguments. Here each of these demands is made or left out: `Demands` says which ones are made, and
programs are read and run as before in everything else. Blocks are read and run under the same
demands, at any depth.

* `Demands.ofStatement`, `Demands.run` — reading and running under demands.
* `Demands.ofStatement_all` — where all demands are made, statements are read as they are.
-/

namespace DesignByNumbers

open Token (Reader next)
open Program (execute execute_mono)

/-- Which demands are made: those of constructs, and those of calls. -/
structure Demands where
  construct : Construct → Bool
  call : Command → Bool

namespace Demands

/-- Every demand is made. -/
def all : Demands where
  construct _ := true
  call _ := true

/-- No demand is made. -/
def none : Demands where
  construct _ := false
  call _ := false

variable (demands : Demands)

def require (construct : Construct) (head : Token) : Reader Unit :=
  if demands.construct construct then construct.require head else pure ()

def requireArguments (command : Command) (head : Token) : Reader Unit :=
  if demands.call command then Instruction.requireArguments command head else pure ()

/-! ## Values -/

def calculationWith (value : Token → Reader Token) (opening : Token) : Reader Token := do
  demands.require .calculation opening
  let left ← Expression.operandWith value
  let operator ← next
  let right ← Expression.operandWith value
  let closing ← next
  if closing.isSymbol ")" then .ofExcept (Expression.evaluate left operator right)
  else .fail (.blame closing (.calculationNotClosed closing.text))

def compoundWith (value : Token → Reader Token) (head : Token) : Reader Token :=
  if head.isSymbol "-" then do
    let operand ← next
    let number ← value operand
    return { number with text := Numeral.negate number.text }
  else if head.isSymbol "(" then demands.calculationWith value head
  else .fail (.blame head (.notAValue head.text))

variable (scope : Scope)

def valueWith (value : Token → Reader Token) (head : Token) : Reader Token :=
  match head.kind with
  | .number => pure head
  | .word => do
    let text ← .ofExcept (scope.number head)
    return head.withNumber text
  | _ => demands.compoundWith value head

def valueWithin : List Token → Token → Reader Token
  | [], head => .fail (.blame head (.notAValue head.text))
  | _ :: bound, head => demands.valueWith scope (valueWithin bound) head

/-- Reads the value that starts with a token. -/
def value (head : Token) : Reader Token := fun last rest =>
  demands.valueWithin scope (head :: rest) head last rest

def nextValue : Reader Token := do
  let head ← next
  demands.value scope head

def nextDrawable : Reader String := do
  let number ← demands.nextValue scope
  .ofExcept number.drawable

/-! ## Statements -/

def ofColour (construct : Construct) (op : String → DrawOp) (head : Token) : Reader Instruction := do
  demands.require construct head
  let colour ← demands.nextDrawable scope
  return .draw (op colour)

def ofLine (head : Token) : Reader Instruction := do
  demands.require .line head
  let x0 ← demands.nextDrawable scope
  let y0 ← demands.nextDrawable scope
  let x1 ← demands.nextDrawable scope
  let y1 ← demands.nextDrawable scope
  return .draw (.line x0 y0 x1 y1)

def ofDot (opening : Token) : Reader Instruction := do
  demands.require .dot opening
  let x ← demands.nextValue scope
  let y ← demands.nextValue scope
  let closing ← next
  if closing.isSymbol "]" then do
    let colour ← demands.nextValue scope
    .ofExcept (Instruction.dot x y colour)
  else .fail (.blame closing (.dotNotClosed closing.text))

def ofAssignment (head : Token) : Reader Instruction := do
  demands.require .assignment head
  let target ← next
  if target.isSymbol "[" then demands.ofDot scope target
  else if target.kind = .word then do
    let number ← demands.nextValue scope
    return .bind target.text (.number number.text)
  else .fail (.blame target (.notAVariable target.text))

def ofLoop (head : Token) : Reader Instruction := do
  demands.require .loop head
  let counter ← next
  if counter.kind = .word then do
    let start ← demands.nextValue scope
    let finish ← demands.nextValue scope
    let block ← Block.extract
    .ofExcept (Instruction.loopBetween counter.text start finish block)
  else .fail (.blame counter (.notALoopVariable counter.text))

def ofCheck (comparison : Comparison) (head : Token) : Reader Instruction := do
  demands.require (.check comparison) head
  let mark ← next
  if mark.isSymbol "?" then do
    let left ← demands.nextValue scope
    let right ← demands.nextValue scope
    let block ← Block.extract
    .ofExcept (Instruction.guarded comparison left right block)
  else .fail (.blame mark (.missingQuestionMark comparison mark.text))

def ofDefinition (head : Token) : Reader Instruction := do
  demands.require .definition head
  let name ← next
  if name.kind ≠ .word then .fail (.blame name (.notACommandName name.text))
  else if (Keyword.ofText? name.text).isSome then
    .fail (.blame name (.keywordRedefined name.text))
  else if scope.contains name.text then .fail (.blame name (.nameTaken name.text))
  else do
    let (names, body) ← Instruction.signature scope head
    return .bind name.text (.command { name := name.text, parameters := names, body })

def arguments : List String → Reader (List (String × Binding))
  | [] => return []
  | parameter :: others => do
    let number ← demands.nextValue scope
    let bindings ← arguments others
    return (parameter, .number number.text) :: bindings

def ofCall (command : Command) (head : Token) : Reader Instruction := do
  demands.requireArguments command head
  let bindings ← demands.arguments scope command.parameters
  .ofExcept (Instruction.callWith scope command bindings)

def ofKeyword (keyword : Keyword) (head : Token) : Reader Instruction :=
  match keyword with
  | .paper => demands.ofColour scope .paper .background head
  | .pen => demands.ofColour scope .pen .foreground head
  | .line => demands.ofLine scope head
  | .assign => demands.ofAssignment scope head
  | .loop => demands.ofLoop scope head
  | .define => demands.ofDefinition scope head
  | .check comparison => demands.ofCheck scope comparison head

/-- Reads the statement that starts with a token. -/
def ofStatement (head : Token) : Reader Instruction :=
  if head.kind ≠ .word then .fail (.blame head (.unexpectedToken head.text))
  else
    match Keyword.ofText? head.text with
    | some keyword => demands.ofKeyword scope keyword head
    | .none =>
      match scope.get? head.text with
      | .none => .fail (.blame head (.unknownKeyword head.text))
      | some (.number _) => .fail (.blame head (.variableAsStatement head.text))
      | some (.command command) => demands.ofCall scope command head

/-! ## Runs -/

/-- A way to run what is left of a token sequence with the given last token. -/
abbrev RestRunner := Option Token → Runner

/-- Runs the first statement that is left with a way to run the blocks in it and what follows it. -/
def RestRunner.extend (runRest : RestRunner) : RestRunner := fun last tokens state =>
  match tokens with
  | [] => some (.done state)
  | head :: rest =>
    match demands.ofStatement state.scope head last rest with
    | .error diagnostic => some (.failed (.diagnosed diagnostic) state)
    | .ok (instruction, following) => do
      let outcome ← execute (fun block => runRest block.getLast? block) instruction state
      outcome.andThen (runRest last following)

variable {demands} in
theorem RestRunner.extend_mono {runRest runRest' : RestRunner}
    (h : ∀ last, Program.Extends (runRest last) (runRest' last)) {last : Option Token}
    {tokens : List Token} {state : State} {outcome : Outcome}
    (hRun : runRest.extend demands last tokens state = some outcome) :
    runRest'.extend demands last tokens state = some outcome := by
  unfold RestRunner.extend at hRun ⊢
  split at hRun
  · exact hRun
  · split at hRun
    · exact hRun
    · obtain ⟨first, hFirst, hRest⟩ := Option.bind_eq_some_iff.mp hRun
      have hFirst' := execute_mono (fun block => h block.getLast? block) hFirst
      refine Option.bind_eq_some_iff.mpr ⟨first, hFirst', ?_⟩
      cases first with
      | done between => exact h last _ between outcome hRest
      | failed failure between => exact hRest

/-- Runs what is left of a token sequence, and the blocks in it in the same way. -/
def runRest : RestRunner := fun last tokens state => runRest.extend demands last tokens state
partial_fixpoint monotonicity by
  intro runRest runRest' hLess last tokens state
  have hExtends : ∀ last, Program.Extends (runRest last) (runRest' last) := by
    intro last tokens state outcome hRun
    have hBoth := hLess last tokens state
    generalize runRest last tokens state = less at hBoth hRun
    generalize runRest' last tokens state = more at hBoth
    cases hBoth with
    | bot => cases hRun
    | refl => exact hRun
  have hExtend : ∀ outcome,
      RestRunner.extend demands runRest last tokens state = some outcome →
      RestRunner.extend demands runRest' last tokens state = some outcome :=
    fun _ => RestRunner.extend_mono hExtends
  dsimp only
  generalize RestRunner.extend demands runRest last tokens state = less at hExtend
  cases less with
  | none => exact .bot
  | some outcome =>
    rw [hExtend outcome rfl]
    exact .refl

/-- Runs a token sequence, and the blocks in it in the same way. -/
def run : Runner := fun tokens state =>
  demands.runRest tokens.getLast? tokens state

theorem runRest_nil (last : Option Token) (state : State) :
    demands.runRest last [] state = some (.done state) := by
  rw [runRest, RestRunner.extend]

/-! ## All demands -/

section All

variable (scope : Scope)

theorem valueWithin_all (bound : List Token) (head : Token) :
    all.valueWithin scope bound head = Expression.valueWithin scope bound head := by
  induction bound generalizing head with
  | nil => rfl
  | cons _ bound ih =>
    rw [valueWithin, funext ih]
    rfl

theorem nextValue_all : all.nextValue scope = Expression.nextValue scope := by
  have hValue : all.value scope = Expression.value scope := by
    funext head last rest
    rw [value, valueWithin_all]
    rfl
  rw [nextValue, hValue]
  rfl

theorem nextDrawable_all : all.nextDrawable scope = Expression.nextDrawable scope := by
  rw [nextDrawable, nextValue_all]
  rfl

theorem arguments_all (parameters : List String) :
    all.arguments scope parameters = Instruction.arguments scope parameters := by
  induction parameters with
  | nil => rfl
  | cons parameter others ih =>
    rw [arguments, nextValue_all, ih]
    rfl

theorem ofKeyword_all (keyword : Keyword) (head : Token) :
    all.ofKeyword scope keyword head = Instruction.ofKeyword scope keyword head := by
  cases keyword with
  | paper => simp only [ofKeyword, ofColour, nextDrawable_all]; rfl
  | pen => simp only [ofKeyword, ofColour, nextDrawable_all]; rfl
  | line => simp only [ofKeyword, ofLine, nextDrawable_all]; rfl
  | assign => simp only [ofKeyword, ofAssignment, ofDot, nextValue_all]; rfl
  | loop => simp only [ofKeyword, ofLoop, nextValue_all]; rfl
  | define => rfl
  | check comparison => simp only [ofKeyword, ofCheck, nextValue_all]; rfl

/-- Where all demands are made, statements are read as they are. -/
theorem ofStatement_all (head : Token) :
    all.ofStatement scope head = Instruction.ofStatement scope head := by
  have hCall : ∀ command, all.ofCall scope command head = Instruction.ofCall scope command head := by
    intro command
    rw [ofCall, arguments_all]
    rfl
  simp only [ofStatement, ofKeyword_all, hCall]
  rfl

end All

end Demands

end DesignByNumbers
