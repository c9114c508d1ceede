import DesignByNumbers.Proofs.Reach
import DesignByNumbers.Proofs.Statement

/-!
# Proofs.Invariant — what every run keeps

A property of states is an invariant when every instruction that is possible in such a state keeps
it: drawing, binding a number or a new command, entering a call, and leaving it. What holds of a
state then holds of the states that runs of tokens end in, in success and in failure, and a run that
fails reports a problem at one of the tokens that it was given. It holds as well at every point that
such a run passes, at any depth.

* `IsInvariant` — what has to be known of the single changes of a state.
* `IsInvariant.keeps_of_execute` — one statement, whatever is known of the blocks in it.
* `IsInvariant.keeps_of_run` — whole runs.
* `IsInvariant.holds_of_reaches` — the points of runs.
-/

namespace DesignByNumbers.Program

open Instruction (IsPossible AreArguments)

variable {N : String → Prop} {Q : Token → Prop} {I : State → Prop}

/-- A property of states, whose numbers are of a kind, is kept by everything that statements of
tokens with a property do. -/
structure IsInvariant (N : String → Prop) (Q : Token → Prop) (I : State → Prop) : Prop where
  isNumeral : Numeral.IsKind N Q
  isPlain : ∀ {state}, I state → state.scope.AllNumbers N
  draw : ∀ {state op}, I state → (∀ field ∈ op.fields, Numeral.IsDrawable field ∧ N field) →
    I (state.draw op)
  assign : ∀ {state name text}, I state → N text → I (state.bind name (.number text))
  define : ∀ {state command}, I state → Keyword.ofText? command.name = none →
    state.scope.contains command.name = false → IsBlockOf Q command.body →
    I (state.bind command.name (.command command))
  body : ∀ {state name command}, I state → state.scope.get? name = some (.command command) →
    ∀ token ∈ command.body, Q token
  enter : ∀ {state name command bindings child}, I state →
    state.scope.get? name = some (.command command) → AreArguments N bindings →
    state.scope.deriveChild (.ofList bindings) = .ok child → I { state with scope := child }
  leave : ∀ {state inner}, I state → I inner → I { inner with scope := state.scope }

/-- A run ends in a state with a property, and reports a problem if it fails. -/
structure Keeps (Q : Token → Prop) (I : State → Prop) (outcome : Outcome) : Prop where
  state : I outcome.state
  report : ∀ failure, outcome.failure? = some failure →
    ∃ diagnostic, failure = .diagnosed diagnostic ∧ diagnostic.IsReport Q

theorem keeps_done {state : State} (h : I state) : Keeps Q I (.done state) where
  state := h
  report _ hFailure := by cases hFailure

namespace IsInvariant

variable (h : IsInvariant N Q I)

include h

/-- A statement is answered in a state with the property. -/
theorem isAnswer {state : State} (hState : I state) {head last : Token} {rest : List Token}
    (hTokens : ∀ token ∈ head :: rest, Q token) (hLast : Q last) :
    IsAnswer Q (fun pair => IsPossible N Q state.scope pair.1)
      (Instruction.ofStatement state.scope head (some last) rest) := by
  obtain ⟨hHead, hRest⟩ := List.forall_mem_cons.mp hTokens
  have hAnswer := Instruction.answers_ofStatement h.isNumeral (h.isPlain hState) hHead last rest
    hLast (Nat.lt_succ_self rest.length) hRest
  exact hAnswer.imp fun _ hPair => hPair.1

/-- What is read from tokens in a state with the property is possible there. -/
theorem isPossible {state : State} (hState : I state) {instruction : Instruction}
    (hRead : IsReadFrom Q state.scope instruction) : IsPossible N Q state.scope instruction := by
  obtain ⟨head, last, rest, following, hTokens, hLast, hRead⟩ := hRead
  have hAnswer := h.isAnswer hState hTokens hLast
  rw [hRead] at hAnswer
  cases hAnswer with
  | ok hPossible => exact hPossible

/-- What is refused in a state with the property is reported at one of the tokens. -/
theorem isReport {state : State} (hState : I state) {diagnostic : Diagnostic}
    (hRefused : IsRefusedFrom Q state.scope diagnostic) : diagnostic.IsReport Q := by
  obtain ⟨head, last, rest, hTokens, hLast, hRead⟩ := hRefused
  have hAnswer := h.isAnswer hState hTokens hLast
  rw [hRead] at hAnswer
  cases hAnswer with
  | error hReport => exact hReport

theorem isRunRelation : IsRunRelation Q fun state outcome => I state → Keeps Q I outcome where
  done _ hState := keeps_done hState
  refused state diagnostic hRefused hState :=
    { state := hState
      report := by
        rintro _ ⟨⟩
        exact ⟨diagnostic, rfl, h.isReport hState hRefused⟩ }
  andThen hFirst hSecond hState := hSecond (hFirst hState).state

section Nested

variable {nested : Runner}
  (hNested : RespectsFrom Q nested fun state outcome => I state → Keeps Q I outcome)

include hNested

/-- A round binds the text of its index and runs the block. -/
theorem keeps_of_rounds {name : String} {block : List Token} (hBlock : ∀ token ∈ block, Q token)
    {step : Int} {count : Nat} {index : Int} {state : State} {outcome : Outcome}
    (hIndices : ∀ k < count, (index + k * step).natAbs < 10 ^ Numeral.digitLimit)
    (hOutcome : rounds nested name block step count index state = some outcome) (hState : I state) :
    Keeps Q I outcome := by
  refine rounds_rule h.isRunRelation (fun between outcome => hNested block between outcome hBlock) ?_
    hIndices hOutcome hState
  exact fun between index hBetween => keeps_done (h.assign hBetween (h.isNumeral.decimal index))

/-- A statement keeps the property if the runs of the blocks in it do. -/
theorem keeps_of_execute {state : State} {instruction : Instruction} {outcome : Outcome}
    (hRead : IsReadFrom Q state.scope instruction)
    (hOutcome : execute nested instruction state = some outcome) (hState : I state) :
    Keeps Q I outcome := by
  -- what was read says which case needs which part of the invariant
  cases h.isPossible hState hRead with
  | draw hOp =>
    cases hOutcome
    exact keeps_done (h.draw hState hOp)
  | assign hText =>
    cases hOutcome
    exact keeps_done (h.assign hState hText)
  | define command hKeyword hNew hBody =>
    cases hOutcome
    exact keeps_done (h.define hState hKeyword hNew hBody)
  | loop hBlock =>
    exact h.keeps_of_rounds hNested hBlock.tokens (fun _ => natAbs_lt_of_isBounded hRead.isBounded)
      hOutcome hState
  | @check held block hBlock =>
    cases held with
    | true => exact hNested block state outcome hBlock.tokens hOutcome hState
    | false =>
      cases hOutcome
      exact keeps_done hState
  | @call name command bindings child hCommand hArguments hChild =>
    obtain ⟨inner, hInner, hEnd⟩ := Option.bind_eq_some_iff.mp hOutcome
    cases hEnd
    have hBody := hNested command.body _ inner (h.body hState hCommand) hInner
      (h.enter hState hCommand hArguments hChild)
    -- the scope of the caller is back at the end, and the trace of the body stays
    cases inner with
    | done between => exact keeps_done (h.leave hState hBody.state)
    | failed failure between => exact ⟨h.leave hState hBody.state, hBody.report⟩

end Nested

/-- A run of tokens from a state with the property ends in such a state, and reports a problem at
one of the tokens if it fails. -/
theorem keeps_of_run {tokens : List Token} (hTokens : ∀ token ∈ tokens, Q token) {state : State}
    (hState : I state) {outcome : Outcome} (hRun : run tokens state = some outcome) :
    Keeps Q I outcome :=
  run_rule_from h.isRunRelation (fun _ hNested _ _ _ => h.keeps_of_execute hNested) tokens state
    outcome hTokens hRun hState

end IsInvariant

/-! ## Points -/

/-- A point in a state with a property, in front of tokens with a property. -/
structure Point.Holds (Q : Token → Prop) (I : State → Prop) (point : Point) : Prop where
  state : I point.state
  rest : ∀ token ∈ point.rest, Q token
  last : point.rest ≠ [] → ∃ token, Q token ∧ point.last = some token

theorem Point.holds_start {tokens : List Token} (hTokens : ∀ token ∈ tokens, Q token) {state : State}
    (hState : I state) : (start tokens state).Holds Q I where
  state := hState
  rest := hTokens
  last := exists_getLast? hTokens

/-- What is read at such a point is read from tokens with the property. -/
theorem Point.Holds.isReadFrom {point : Point} (h : point.Holds Q I) {instruction : Instruction}
    {following : List Token} (hRead : point.Reads instruction following) :
    IsReadFrom Q point.state.scope instruction := by
  obtain ⟨head, rest, hRest, hRead⟩ := hRead
  obtain ⟨final, hFinal, hLast⟩ := h.last (hRest ▸ List.cons_ne_nil head rest)
  rw [hLast] at hRead
  exact ⟨head, final, rest, following, hRest ▸ h.rest, hFinal, hRead⟩

namespace IsInvariant

variable (h : IsInvariant N Q I)

include h

theorem respectsFrom_run : RespectsFrom Q run fun state outcome => I state → Keeps Q I outcome :=
  fun _ _ _ hTokens hRun hState => h.keeps_of_run hTokens hState hRun

/-- The blocks that an instruction runs start in states with the property. -/
theorem holds_of_enters {state inner : State} {instruction : Instruction} {block : List Token}
    (hRead : IsReadFrom Q state.scope instruction) (hEnters : Enters run state instruction block inner)
    (hState : I state) : (Point.start block inner).Holds Q I := by
  have hPossible := h.isPossible hState hRead
  cases hEnters with
  | @round name text first last block k between hCount hBefore hText =>
    cases hPossible with
    | loop hBlock =>
      -- the rounds in front of this one have kept the property
      have hBetween : Keeps Q I (.done between) :=
        h.keeps_of_rounds h.respectsFrom_run hBlock.tokens
          (fun i hi => natAbs_lt_of_isBounded hRead.isBounded (Nat.lt_trans hi hCount)) hBefore hState
      obtain ⟨-, rfl⟩ := Numeral.print?_eq_some_iff.mp hText
      exact Point.holds_start hBlock.tokens (h.assign hBetween.state (h.isNumeral.decimal _))
  | guarded block =>
    cases hPossible with
    | check hBlock => exact Point.holds_start hBlock.tokens hState
  | body child tokens =>
    cases hPossible with
    | call hCommand hArguments hChild =>
      exact Point.holds_start (h.body hState hCommand) (h.enter hState hCommand hArguments hChild)

theorem holds_of_step {point point' : Point} (hPoint : point.Holds Q I) (hStep : Step point point') :
    point'.Holds Q I := by
  cases hStep with
  | @past instruction following between hRead hRun =>
    have hBetween := h.keeps_of_execute h.respectsFrom_run (hPoint.isReadFrom hRead) hRun hPoint.state
    obtain ⟨head, rest, hRest, hRead⟩ := hRead
    exact
      { state := hBetween.state
        rest := forall_mem_following (hRest ▸ hPoint.rest) hRead
        last := fun _ => hPoint.last (hRest ▸ List.cons_ne_nil head rest) }
  | into hRead hEnters => exact h.holds_of_enters (hPoint.isReadFrom hRead) hEnters hPoint.state

/-- Whatever is still to be run at such a point ends in a state with the property. -/
theorem keeps_of_holds {point : Point} (hPoint : point.Holds Q I) {outcome : Outcome}
    (hRun : statements run point.last point.rest point.state = some outcome) : Keeps Q I outcome :=
  statements_rule h.isRunRelation
    (fun _ _ _ hRead hOutcome => h.keeps_of_execute h.respectsFrom_run hRead hOutcome)
    hPoint.last hPoint.rest hRun hPoint.state

/-- The property holds at every point that a run passes. -/
theorem holds_of_reaches {point point' : Point} (hPoint : point.Holds Q I)
    (hReaches : Reaches point point') : point'.Holds Q I := by
  induction hReaches with
  | refl => exact hPoint
  | tail _ hStep ih => exact h.holds_of_step ih hStep

end IsInvariant

end DesignByNumbers.Program
