import Mathlib.Data.List.Forall2
import DesignByNumbers.Proofs.Run

/-!
# Proofs.Simulation — two runs side by side

One run follows another if it ends wherever the other one does, and the two ends are related. Whole
runs of related tokens do so once single statements do, whatever is known of the blocks in them: a
statement is refused in both runs or carried out in both, and related tokens are left behind it.

* `Follows.bind`, `Follows.rel` — results of runs.
* `IsEndRelation.rounds_follow` — the rounds of a loop.
* `IsEndRelation.run_follows` — the rule for whole runs.
-/

namespace DesignByNumbers.Program

/-! ## Results -/

section Follows

variable {O O' : Outcome → Outcome → Prop}

/-- Where the first of two runs ends, so does the second one, and the two ends are related. -/
def Follows (O : Outcome → Outcome → Prop) (result result' : Option Outcome) : Prop :=
  ∀ outcome, result = some outcome → ∃ outcome', result' = some outcome' ∧ O outcome outcome'

theorem follows_some {outcome outcome' : Outcome} (h : O outcome outcome') :
    Follows O (some outcome) (some outcome') := by
  intro first hFirst
  cases hFirst
  exact ⟨outcome', rfl, h⟩

theorem Follows.bind {result result' : Option Outcome} {next next' : Outcome → Option Outcome}
    (h : Follows O result result')
    (hNext : ∀ outcome outcome', O outcome outcome' → Follows O (next outcome) (next' outcome')) :
    Follows O (result.bind next) (result'.bind next') := by
  intro final hFinal
  obtain ⟨outcome, hResult, hRest⟩ := Option.bind_eq_some_iff.mp hFinal
  obtain ⟨outcome', hResult', hOutcome⟩ := h outcome hResult
  rw [hResult', Option.bind_some]
  exact hNext outcome outcome' hOutcome final hRest

/-- Two runs that follow each other both end, or both go on for ever. -/
theorem Follows.rel {result result' : Option Outcome} (h : Follows O result result')
    (hBack : Follows O' result' result) : Option.Rel O result result' := by
  cases hResult : result with
  | some outcome =>
    obtain ⟨outcome', hResult', hOutcome⟩ := h outcome hResult
    rw [hResult']
    exact .some hOutcome
  | none =>
    cases hResult' : result' with
    | none => exact .none
    | some outcome' =>
      -- the first run follows the second one as well, and would have ended
      obtain ⟨outcome, hEnd, -⟩ := hBack outcome' hResult'
      rw [hResult] at hEnd
      cases hEnd

end Follows

/-! ## Statements -/

section Relations

variable (T : Token → Token → Prop) (R : State → State → Prop) (O : Outcome → Outcome → Prop)

/-- The ends of two runs are related by `O` where nothing is run in states related by `R`, where an
index cannot be told, and where both runs go on from related ends. -/
structure IsEndRelation : Prop where
  done : ∀ {state state'}, R state state' → O (.done state) (.done state')
  unconvertible : ∀ {state state'}, R state state' →
    O (.failed .unconvertible state) (.failed .unconvertible state')
  andThen : ∀ {outcome outcome' next next'}, O outcome outcome' →
    (∀ state state', R state state' → Follows O (next state) (next' state')) →
    Follows O (outcome.andThen next) (outcome'.andThen next')

/-- One way to run blocks follows another on related tokens. -/
def RunnerFollows (nested nested' : Runner) : Prop :=
  ∀ tokens tokens' state state', List.Forall₂ T tokens tokens' → R state state' →
    Follows O (nested tokens state) (nested' tokens' state')

/-- Of two statements the second one follows the first: both are refused and end their runs alike,
or both can be carried out, whatever runs the blocks in them. -/
inductive StepFollows (state state' : State) : Except Diagnostic (Instruction × List Token) →
    Except Diagnostic (Instruction × List Token) → Prop
  | error {diagnostic diagnostic' : Diagnostic}
      (h : O (.failed (.diagnosed diagnostic) state) (.failed (.diagnosed diagnostic') state')) :
      StepFollows state state' (.error diagnostic) (.error diagnostic')
  | ok {instruction instruction' : Instruction} {following following' : List Token}
      (hExecute : ∀ nested nested', RunnerFollows T R O nested nested' →
        Follows O (execute nested instruction state) (execute nested' instruction' state'))
      (hFollowing : List.Forall₂ T following following') :
      StepFollows state state' (.ok (instruction, following)) (.ok (instruction', following'))

/-- Statements of related tokens in related states follow each other. -/
def StatementsFollow : Prop :=
  ∀ {state state' head head' last last' rest rest'}, R state state' → T head head' →
    T last last' → List.Forall₂ T rest rest' →
    StepFollows T R O state state' (Instruction.ofStatement state.scope head (some last) rest)
      (Instruction.ofStatement state'.scope head' (some last') rest')

end Relations

/-! ## Runs -/

section Runs

variable {T : Token → Token → Prop} {R : State → State → Prop} {O : Outcome → Outcome → Prop}

/-- The last ones of related tokens are related. -/
theorem exists_getLast?_of_forall₂ {tokens tokens' : List Token} (h : List.Forall₂ T tokens tokens')
    (hSome : tokens ≠ []) :
    ∃ last last', T last last' ∧ tokens.getLast? = some last ∧ tokens'.getLast? = some last' := by
  induction h with
  | nil => exact absurd rfl hSome
  | @cons token token' rest rest' hToken hRest ih =>
    cases hRest with
    | nil => exact ⟨token, token', hToken, rfl, rfl⟩
    | cons hNext hOthers =>
      rw [List.getLast?_cons_cons, List.getLast?_cons_cons]
      exact ih (List.cons_ne_nil _ _)

namespace IsEndRelation

variable (h : IsEndRelation R O) {nested nested' : Runner}

include h

/-- The rounds of two loops follow each other if their indices are bound alike. -/
theorem rounds_follow (hNested : RunnerFollows T R O nested nested') {name name' : String}
    (hBind : ∀ state state' index, R state state' →
      R (state.bind name (.number (Numeral.decimal index)))
        (state'.bind name' (.number (Numeral.decimal index))))
    {block block' : List Token} (hBlock : List.Forall₂ T block block') (step : Int) (count : Nat)
    (index : Int) {state state' : State} (hState : R state state') :
    Follows O (rounds nested name block step count index state)
      (rounds nested' name' block' step count index state') := by
  induction count generalizing index state state' with
  | zero => exact follows_some (h.done hState)
  | succ count ih =>
    rw [rounds, rounds]
    -- the index is told in the same way in both loops
    cases hText : Numeral.print? index with
    | none => exact follows_some (h.unconvertible hState)
    | some text =>
      obtain ⟨-, rfl⟩ := Numeral.print?_eq_some_iff.mp hText
      refine (hNested _ _ _ _ hBlock (hBind _ _ index hState)).bind fun _ _ hRound => ?_
      exact h.andThen hRound fun _ _ hState => ih (index + step) hState

variable (hStep : StatementsFollow T R O)

include hStep

theorem statements_follow (hNested : RunnerFollows T R O nested nested')
    {last last' : Option Token} {tokens tokens' : List Token} {state state' : State}
    (hLast : tokens ≠ [] →
      ∃ final final', T final final' ∧ last = some final ∧ last' = some final')
    (hTokens : List.Forall₂ T tokens tokens') (hState : R state state') :
    Follows O (statements nested last tokens state) (statements nested' last' tokens' state') := by
  fun_induction statements nested last tokens state generalizing tokens' state' with
  | case1 state =>
    cases hTokens
    rw [statements_nil]
    exact follows_some (h.done hState)
  | case2 state head rest diagnostic hRead =>
    obtain ⟨final, final', hFinal, rfl, rfl⟩ := hLast (List.cons_ne_nil head rest)
    cases hTokens with
    | @cons _ head' _ rest' hHead hRest =>
      have hFirst := hStep hState hHead hFinal hRest
      rw [hRead] at hFirst
      generalize hRead' : Instruction.ofStatement state'.scope head' (some final') rest' = result'
        at hFirst
      cases hFirst with
      | error hRefused =>
        rw [statements_of_error nested' hRead']
        exact follows_some hRefused
  | case3 state head rest instruction following hRead ih =>
    obtain ⟨final, final', hFinal, rfl, rfl⟩ := hLast (List.cons_ne_nil head rest)
    cases hTokens with
    | @cons _ head' _ rest' hHead hRest =>
      have hFirst := hStep hState hHead hFinal hRest
      rw [hRead] at hFirst
      generalize hRead' : Instruction.ofStatement state'.scope head' (some final') rest' = result'
        at hFirst
      cases hFirst with
      | ok hExecute hFollowing =>
        rw [statements_of_ok nested' hRead']
        refine (hExecute nested nested' hNested).bind fun _ _ hOutcome => ?_
        refine h.andThen hOutcome fun between between' hBetween => ?_
        exact ih between (fun _ => ⟨final, final', hFinal, rfl, rfl⟩) hFollowing hBetween

/-- Runs of related tokens follow each other if statements do. -/
theorem run_follows {tokens tokens' : List Token} (hTokens : List.Forall₂ T tokens tokens')
    {state state' : State} (hState : R state state') :
    Follows O (run tokens state) (run tokens' state') := by
  have hAll : ∀ tokens state outcome, run tokens state = some outcome → ∀ tokens' state',
      List.Forall₂ T tokens tokens' → R state state' →
      ∃ outcome', run tokens' state' = some outcome' ∧ O outcome outcome' := by
    -- by induction on the run: the blocks of the first one are followed by those of the second
    refine run.partial_correctness _ ?_
    intro nested hNested tokens state outcome hRun tokens' state' hTokens hState
    have hRunner : RunnerFollows T R O nested run := fun block block' start start' hBlock hStart
      result hResult => hNested block start result hResult block' start' hBlock hStart
    rw [run_eq]
    exact h.statements_follow hStep hRunner (exists_getLast?_of_forall₂ hTokens) hTokens hState
      outcome hRun
  exact fun outcome hRun => hAll tokens state outcome hRun tokens' state' hTokens hState

end IsEndRelation

end Runs

end DesignByNumbers.Program
