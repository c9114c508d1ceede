import Mathlib.Data.List.Forall2
import DesignByNumbers.DrawOp
import DesignByNumbers.NameMap
import DesignByNumbers.Proofs.Tree.Statement

/-!
# Proofs.Tree.Evaluation — what a program means

The meaning of a program is given on its tree, in one step for every phrase: which scope it
starts in, what it draws, and which scope it leaves behind. Nothing is read here: a command is
called with the arguments in its tree, and the blocks of a tree are trees.

A phrase without such a step fails or goes on for ever.
-/

namespace DesignByNumbers

/-- The integer of a plain numeral within the digit limit. -/
def Numeral.bounded? (text : String) : Option Int :=
  if digitCount text ≤ digitLimit then some (integer text) else none

/-- Whether a comparison holds of two plain numerals. -/
def Comparison.holds? (comparison : Comparison) (left right : String) : Option Bool :=
  match comparison with
  | .same => some (left = right)
  | .notSame => some (left ≠ right)
  | .smaller => do
    let leftValue ← Numeral.bounded? left
    let rightValue ← Numeral.bounded? right
    return decide (leftValue < rightValue)
  | .notSmaller => do
    let leftValue ← Numeral.bounded? left
    let rightValue ← Numeral.bounded? right
    return decide (rightValue ≤ leftValue)

namespace Tree

/-- A command with the tree of its body. -/
structure Command where
  name : String
  parameters : List String
  body : List Statement

/-- What a name means to a tree. -/
inductive Binding
  | number (text : String)
  | command (command : Command)

/-- The names visible at a point of an evaluation. -/
abbrev Scope := NameMap Binding

namespace Scope

variable (scope : Scope)

/-- The number that a name means. -/
def numberText? (name : String) : Option String :=
  match scope.get? name with
  | some (.number text) => some text
  | _ => none

/-- The text that a tree evaluates to. -/
def value? (tree : Value) : Option String :=
  tree.eval scope.numberText?

/-- The text that a tree evaluates to, if it keeps within the digit limit. -/
def drawable? (tree : Value) : Option String := do
  let text ← scope.value? tree
  let _ ← Numeral.bounded? text
  return text

/-- The integer that a tree evaluates to, if its text keeps within the digit limit. -/
def integer? (tree : Value) : Option Int := do
  let text ← scope.value? tree
  Numeral.bounded? text

/-- The scope in which a name means a number. -/
def assign (name : String) (text : String) : Scope :=
  scope.insert name (.number text)

/-- A copy of the scope with the arguments of a call. -/
def withArguments (command : Command) (texts : List String) : Scope :=
  let arguments := NameMap.ofList (command.parameters.zip (texts.map Binding.number))
  scope.insertAll arguments.toList

end Scope

/-- What is evaluated: a statement, a program, or the rounds of a loop from an index on towards
the last one. -/
inductive Phrase
  | statement (statement : Statement)
  | program (body : List Statement)
  | rounds (counter : Word) (index last : Int) (body : List Statement)

/-- A phrase evaluates in a scope: it draws operations and leaves a scope behind. -/
inductive Evaluates : Phrase → Scope → List DrawOp → Scope → Prop
  | paper {scope : Scope} {tree : Value} {colour : String}
      (hColour : scope.drawable? tree = some colour) :
      Evaluates (.statement (.paper tree)) scope [.background colour] scope
  | pen {scope : Scope} {tree : Value} {colour : String}
      (hColour : scope.drawable? tree = some colour) :
      Evaluates (.statement (.pen tree)) scope [.foreground colour] scope
  | line {scope : Scope} {left bottom right top : Value} {x0 y0 x1 y1 : String}
      (hLeft : scope.drawable? left = some x0) (hBottom : scope.drawable? bottom = some y0)
      (hRight : scope.drawable? right = some x1) (hTop : scope.drawable? top = some y1) :
      Evaluates (.statement (.line left bottom right top)) scope [.line x0 y0 x1 y1] scope
  | dot {scope : Scope} {column row tree : Value} {x y colour : String}
      (hColumn : scope.drawable? column = some x) (hRow : scope.drawable? row = some y)
      (hColour : scope.drawable? tree = some colour) :
      Evaluates (.statement (.dot column row tree)) scope [.point x y colour] scope
  | assign {scope : Scope} {target : Word} {tree : Value} {text : String}
      (hValue : scope.value? tree = some text) :
      Evaluates (.statement (.assign target tree)) scope [] (scope.assign target.val text)
  | loop {scope scope' : Scope} {counter : Word} {start finish : Value} {body : List Statement}
      {first last : Int} {drawn : List DrawOp} (hStart : scope.integer? start = some first)
      (hFinish : scope.integer? finish = some last)
      (hRounds : Evaluates (.rounds counter first last body) scope drawn scope') :
      Evaluates (.statement (.loop counter start finish body)) scope drawn scope'
  | checkHeld {scope scope' : Scope} {comparison : Comparison} {left right : Value}
      {body : List Statement} {leftText rightText : String} {drawn : List DrawOp}
      (hLeft : scope.value? left = some leftText) (hRight : scope.value? right = some rightText)
      (hHolds : comparison.holds? leftText rightText = some true)
      (hBody : Evaluates (.program body) scope drawn scope') :
      Evaluates (.statement (.check comparison left right body)) scope drawn scope'
  | checkFailed {scope : Scope} {comparison : Comparison} {left right : Value}
      {body : List Statement} {leftText rightText : String}
      (hLeft : scope.value? left = some leftText) (hRight : scope.value? right = some rightText)
      (hHolds : comparison.holds? leftText rightText = some false) :
      Evaluates (.statement (.check comparison left right body)) scope [] scope
  | define {scope : Scope} {name : Word} {parameters : List Word} {body : List Statement}
      (hName : Keyword.ofText? name.val = none) (hFresh : scope.contains name.val = false)
      (hParameters : ∀ parameter ∈ parameters, scope.contains parameter.val = false) :
      Evaluates (.statement (.define name parameters body)) scope []
        (scope.insert name.val (.command ⟨name.val, parameters.map Subtype.val, body⟩))
  | call {scope inner : Scope} {name : Name} {arguments : List Value} {command : Command}
      {texts : List String} {drawn : List DrawOp}
      (hCommand : scope.get? name.val.val = some (.command command))
      (hCount : arguments.length = command.parameters.length)
      (hTexts : List.Forall₂ (fun tree text => scope.value? tree = some text) arguments texts)
      (hBody : Evaluates (.program command.body) (scope.withArguments command texts) drawn inner) :
      Evaluates (.statement (.call name arguments)) scope drawn scope
  | done {scope : Scope} : Evaluates (.program []) scope [] scope
  | next {scope between scope' : Scope} {statement : Statement} {rest : List Statement}
      {drawn drawn' : List DrawOp} (hStatement : Evaluates (.statement statement) scope drawn between)
      (hRest : Evaluates (.program rest) between drawn' scope') :
      Evaluates (.program (statement :: rest)) scope (drawn ++ drawn') scope'
  | lastRound {scope scope' : Scope} {counter : Word} {last : Int} {body : List Statement}
      {drawn : List DrawOp}
      (hBody : Evaluates (.program body) (scope.assign counter.val (Numeral.decimal last)) drawn
        scope') :
      Evaluates (.rounds counter last last body) scope drawn scope'
  | round {scope between scope' : Scope} {counter : Word} {index last : Int}
      {body : List Statement} {drawn drawn' : List DrawOp} (hIndex : index ≠ last)
      (hBody : Evaluates (.program body) (scope.assign counter.val (Numeral.decimal index)) drawn
        between)
      (hRest : Evaluates (.rounds counter (index + (last - index).sign) last body) between drawn'
        scope') :
      Evaluates (.rounds counter index last body) scope (drawn ++ drawn') scope'

end Tree

end DesignByNumbers
