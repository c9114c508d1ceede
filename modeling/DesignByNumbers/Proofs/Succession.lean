import DesignByNumbers.Proofs.Reach

/-!
# Proofs.Succession — what relates a state to the later ones

A run changes its state in few ways: it draws, it gives a name a number, it defines a command, and it
enters and leaves the scopes of calls. A relation that holds of these changes holds of the start of a
run and its end, in success and in failure, and of all states that the run comes to.

* `IsSuccession` — what has to be known of the single changes.
* `IsSuccession.rel_of_execute`, `IsSuccession.rel_of_run` — statements and whole runs.
* `IsSuccession.rel_of_reaches` — the points of runs.
-/

namespace DesignByNumbers.Program

open Instruction (AreNumbers HasForm hasForm_of_ofStatement)

/-- A relation between states that every change made by a statement is in. -/
structure IsSuccession (R : State → State → Prop) : Prop where
  refl : ∀ state, R state state
  trans : ∀ {state between final}, R state between → R between final → R state final
  draw : ∀ state op, R state (state.draw op)
  assign : ∀ state name text, R state (state.bind name (.number text))
  define : ∀ {state : State} {command : Command}, Keyword.ofText? command.name = none →
    state.scope.contains command.name = false → R state (state.bind command.name (.command command))
  enter : ∀ {state : State} {name : String} {command : Command} {bindings : List (String × Binding)}
    {child : Scope}, state.scope.get? name = some (.command command) → AreNumbers bindings →
    state.scope.deriveChild (.ofList bindings) = .ok child → R state { state with scope := child }
  -- what a call leaves behind is what its body has drawn, in the scope of the caller
  leave : ∀ {state inner : State}, R state inner → R state { inner with scope := state.scope }

namespace IsSuccession

variable {R : State → State → Prop} (h : IsSuccession R)

include h

theorem isRunRelation (Q : Token → Prop) :
    IsRunRelation Q fun state outcome => R state outcome.state where
  done := h.refl
  refused state _ _ := h.refl state
  andThen hFirst hSecond := h.trans hFirst hSecond

section Nested

variable {nested : Runner} (hNested : Respects nested fun state outcome => R state outcome.state)

include hNested

theorem rel_of_rounds {name : String} {block : List Token} {step : Int} {count : Nat} {index : Int}
    {state : State} {outcome : Outcome}
    (hIndices : ∀ k < count, (index + k * step).natAbs < 10 ^ Numeral.digitLimit)
    (hRun : rounds nested name block step count index state = some outcome) : R state outcome.state :=
  rounds_rule (h.isRunRelation fun _ => True) (hNested block) (fun state _ => h.assign state name _)
    hIndices hRun

/-- A statement is in the relation if the runs of the blocks in it are. -/
theorem rel_of_execute {state : State} {keyword? : Option Keyword} {instruction : Instruction}
    {outcome : Outcome} (hForm : instruction.HasForm state.scope keyword?)
    (hOutcome : execute nested instruction state = some outcome) : R state outcome.state := by
  have hBounded := hForm.isBounded
  -- each form makes one of the changes, or runs a block
  cases hForm with
  | paper | pen | line | dot =>
    cases hOutcome
    exact h.draw state _
  | assign name text =>
    cases hOutcome
    exact h.assign state name text
  | define command hKeyword hNew =>
    cases hOutcome
    exact h.define hKeyword hNew
  | loop name hFirst hLast block =>
    exact h.rel_of_rounds hNested (fun _ => natAbs_lt_of_isBounded hBounded) hOutcome
  | check comparison held block =>
    cases held with
    | true => exact hNested block state outcome hOutcome
    | false =>
      cases hOutcome
      exact h.refl state
  | @call name command bindings child hCommand hBindings hChild =>
    obtain ⟨inner, hInner, hEnd⟩ := Option.bind_eq_some_iff.mp hOutcome
    cases hEnd
    have hBody := h.trans (h.enter hCommand hBindings hChild) (hNested command.body _ inner hInner)
    -- the scope of the caller is back at the end
    cases inner <;> exact h.leave hBody

end Nested

/-- The start of a run and its end are in the relation, also if the run fails. -/
theorem rel_of_run : Respects run fun state outcome => R state outcome.state := by
  refine run_rule (h.isRunRelation fun _ => True) fun nested hNested state instruction outcome hRead
    hOutcome => ?_
  obtain ⟨head, last, rest, following, hRead⟩ := hRead
  exact h.rel_of_execute hNested (hasForm_of_ofStatement hRead) hOutcome

theorem rel_of_enters {state inner : State} {keyword? : Option Keyword} {instruction : Instruction}
    {block : List Token} (hForm : instruction.HasForm state.scope keyword?)
    (hEnters : Enters run state instruction block inner) : R state inner := by
  have hBounded := hForm.isBounded
  cases hEnters with
  | round hCount hBefore hText =>
    -- the rounds in front of this one are a shorter loop
    have hRounds := h.rel_of_rounds h.rel_of_run
      (fun i hi => natAbs_lt_of_isBounded hBounded (Nat.lt_trans hi hCount)) hBefore
    exact h.trans hRounds (h.assign _ _ _)
  | guarded block => exact h.refl state
  | body child tokens =>
    cases hForm with
    | call hCommand hBindings hChild => exact h.enter hCommand hBindings hChild

theorem rel_of_step {point point' : Point} (hStep : Step point point') :
    R point.state point'.state := by
  cases hStep with
  | past hRead hRun =>
    obtain ⟨head, rest, -, hRead⟩ := hRead
    exact h.rel_of_execute h.rel_of_run (hasForm_of_ofStatement hRead) hRun
  | into hRead hEnters =>
    obtain ⟨head, rest, -, hRead⟩ := hRead
    exact h.rel_of_enters (hasForm_of_ofStatement hRead) hEnters

/-- A point of a run and the ones that the run comes to from there are in the relation. -/
theorem rel_of_reaches {point point' : Point} (hReaches : Reaches point point') :
    R point.state point'.state := by
  induction hReaches with
  | refl => exact h.refl _
  | tail _ hStep ih => exact h.trans ih (h.rel_of_step hStep)

end IsSuccession

end DesignByNumbers.Program
