import DesignByNumbers.Instruction.Extent
import DesignByNumbers.Token.Lexer

/-!
# Program — running statements

A run reads and carries out the statements of a token sequence one after the other. It
changes a state: the scope of the run and the trace of everything drawn so far, at any
depth of nesting. A run that fails leaves the state of the moment behind.
-/

namespace DesignByNumbers

/-- What a run changes. -/
structure State where
  scope : Scope
  trace : Array DrawOp
deriving Repr, DecidableEq, Inhabited

namespace State

/-- The state before anything was drawn. -/
def initial (scope : Scope) : State := { scope, trace := #[] }

/-- The state in which a name has a new meaning. -/
def bind (state : State) (name : String) (binding : Binding) : State :=
  { state with scope := state.scope.bind name binding }

/-- The state with one more operation drawn. -/
def draw (state : State) (op : DrawOp) : State :=
  { state with trace := state.trace.push op }

end State

/-- How a run ends: normally or with a failure, and with a state in either case. -/
inductive Outcome
  | done (state : State)
  | failed (failure : Failure) (state : State)
deriving Repr, DecidableEq

namespace Outcome

/-- The state that a run leaves behind. -/
def state : Outcome → State
  | .done state => state
  | .failed _ state => state

/-- Why a run failed. -/
def failure? : Outcome → Option Failure
  | .done _ => none
  | .failed failure _ => some failure

/-- Goes on from an end that is not a failure. -/
@[inline]
def andThen (outcome : Outcome) (next : State → Option Outcome) : Option Outcome :=
  match outcome with
  | .done state => next state
  | .failed failure state => some (.failed failure state)

@[simp]
theorem done_andThen (state : State) (next : State → Option Outcome) :
    (done state).andThen next = next state := rfl

@[simp]
theorem failed_andThen (failure : Failure) (state : State) (next : State → Option Outcome) :
    (failed failure state).andThen next = some (failed failure state) := rfl

/-- The same end with a scope put in place of the one at the end. -/
def inScope (outcome : Outcome) (scope : Scope) : Outcome :=
  match outcome with
  | .done state => .done { state with scope }
  | .failed failure state => .failed failure { state with scope }

end Outcome

/-- A way to run a token sequence in a state. A run that goes on for ever has no outcome. -/
abbrev Runner := List Token → State → Option Outcome

namespace Program

section Nested

variable (nested : Runner)

/-- Runs a block for a number of consecutive integers, upwards or downwards. -/
def rounds (name : String) (block : List Token) (step : Int) :
    Nat → Int → State → Option Outcome
  | 0, _, state => some (.done state)
  | count + 1, index, state =>
    match Numeral.print? index with
    | none => some (.failed .unconvertible state)
    | some text => do
      let outcome ← nested block (state.bind name (.number text))
      outcome.andThen fun state => rounds name block step count (index + step) state

/-- Carries out an instruction, with a way to run the blocks in it. -/
def execute (instruction : Instruction) (state : State) : Option Outcome :=
  match instruction with
  | .draw op => some (.done (state.draw op))
  | .bind name binding => some (.done (state.bind name binding))
  | .loop name first last block =>
    let step := if first ≤ last then 1 else -1
    rounds nested name block step ((last - first).natAbs + 1) first state
  | .check held block => if held then nested block state else some (.done state)
  | .call scope body => do
    let outcome ← nested body { state with scope }
    return outcome.inScope state.scope

/-- Runs statements until none follows, with a way to run the blocks in them. -/
def statements (last : Option Token) (tokens : List Token) (state : State) : Option Outcome :=
  match tokens with
  | [] => some (.done state)
  | head :: rest =>
    match _hRead : Instruction.ofStatement state.scope head last rest with
    | .error diagnostic => some (.failed (.diagnosed diagnostic) state)
    | .ok (instruction, following) => do
      let outcome ← execute nested instruction state
      outcome.andThen fun state => statements last following state
termination_by tokens.length
decreasing_by
  have hShorter := (Instruction.isLocal_ofStatement _ head).length_le _hRead
  rw [List.length_cons]
  omega

theorem statements_nil (last : Option Token) (state : State) :
    statements nested last [] state = some (.done state) := by
  rw [statements]

/-- A statement that is not read ends the run. -/
theorem statements_of_error {last : Option Token} {head : Token} {rest : List Token}
    {state : State} {diagnostic : Diagnostic}
    (hRead : Instruction.ofStatement state.scope head last rest = .error diagnostic) :
    statements nested last (head :: rest) state = some (.failed (.diagnosed diagnostic) state) := by
  rw [statements]
  split
  next hRead' =>
    rw [hRead] at hRead'
    cases hRead'
    rfl
  next hRead' =>
    rw [hRead] at hRead'
    cases hRead'

/-- A statement that is read is carried out, and the run goes on behind it. -/
theorem statements_of_ok {last : Option Token} {head : Token} {rest following : List Token}
    {state : State} {instruction : Instruction}
    (hRead : Instruction.ofStatement state.scope head last rest = .ok (instruction, following)) :
    statements nested last (head :: rest) state =
      (execute nested instruction state).bind fun outcome =>
        outcome.andThen (statements nested last following) := by
  rw [statements]
  split
  next hRead' =>
    rw [hRead] at hRead'
    cases hRead'
  next hRead' =>
    rw [hRead] at hRead'
    cases hRead'
    rfl

end Nested

/-! ## Nested runs

The more runs of blocks come to an end, the more runs of the statements around them do, so
that running a sequence by running the blocks in it in the same way is well defined.
-/

section Monotone

variable {nested nested' : Runner}

/-- Every run that ends one way ends the same way in another. -/
def Extends (nested nested' : Runner) : Prop :=
  ∀ tokens state outcome, nested tokens state = some outcome → nested' tokens state = some outcome

theorem rounds_mono (h : Extends nested nested') {name : String} {block : List Token} {step : Int}
    {count : Nat} {index : Int} {state : State} {outcome : Outcome}
    (hRun : rounds nested name block step count index state = some outcome) :
    rounds nested' name block step count index state = some outcome := by
  induction count generalizing index state with
  | zero => exact hRun
  | succ count ih =>
    rw [rounds] at hRun ⊢
    split at hRun
    · exact hRun
    · obtain ⟨round, hRound, hRest⟩ := Option.bind_eq_some_iff.mp hRun
      refine Option.bind_eq_some_iff.mpr ⟨round, h _ _ _ hRound, ?_⟩
      cases round with
      | done state => exact ih hRest
      | failed failure state => exact hRest

theorem execute_mono (h : Extends nested nested') {instruction : Instruction} {state : State}
    {outcome : Outcome} (hRun : execute nested instruction state = some outcome) :
    execute nested' instruction state = some outcome := by
  cases instruction with
  | draw op => exact hRun
  | bind name binding => exact hRun
  | loop name first last block => exact rounds_mono h hRun
  | check held block =>
    cases held with
    | true => exact h _ _ _ hRun
    | false => exact hRun
  | call scope body =>
    obtain ⟨inner, hInner, hOutcome⟩ := Option.bind_eq_some_iff.mp hRun
    exact Option.bind_eq_some_iff.mpr ⟨inner, h _ _ _ hInner, hOutcome⟩

theorem statements_mono (h : Extends nested nested') {last : Option Token} {tokens : List Token}
    {state : State} {outcome : Outcome}
    (hRun : statements nested last tokens state = some outcome) :
    statements nested' last tokens state = some outcome := by
  fun_induction statements nested last tokens state with
  | case1 state => rwa [statements_nil]
  | case2 state head rest diagnostic hRead => rwa [statements_of_error nested' hRead]
  | case3 state head rest instruction following hRead ih =>
    rw [statements_of_ok nested' hRead]
    obtain ⟨first, hFirst, hRest⟩ := Option.bind_eq_some_iff.mp hRun
    refine Option.bind_eq_some_iff.mpr ⟨first, execute_mono h hFirst, ?_⟩
    cases first with
    | done state => exact ih state hRest
    | failed failure state => exact hRest

end Monotone

end Program

/-- A way to run token sequences that runs the blocks in them in another way. -/
def Runner.extend (nested : Runner) : Runner := fun tokens state =>
  Program.statements nested tokens.getLast? tokens state

namespace Program

/-- Runs a token sequence, and the blocks in it in the same way. Of all such ways this is the
least, in which a run that goes on for ever has no outcome. -/
def run : Runner := fun tokens state => run.extend tokens state
partial_fixpoint monotonicity by
  intro nested nested' hLess tokens state
  have hExtends : Extends nested nested' := by
    intro block inner outcome hRun
    have hBlock := hLess block inner
    generalize nested block inner = less at hBlock hRun
    generalize nested' block inner = more at hBlock
    cases hBlock with
    | bot => cases hRun
    | refl => exact hRun
  have hStatements : ∀ outcome, statements nested tokens.getLast? tokens state = some outcome →
      statements nested' tokens.getLast? tokens state = some outcome :=
    fun _ => statements_mono hExtends
  dsimp only [Runner.extend]
  generalize statements nested tokens.getLast? tokens state = less at hStatements
  cases less with
  | none => exact .bot
  | some outcome =>
    rw [hStatements outcome rfl]
    exact .refl

theorem run_eq (tokens : List Token) (state : State) :
    run tokens state = statements run tokens.getLast? tokens state := by
  rw [run, Runner.extend]

/-- Runs a token sequence whose tokens are not known to be well formed. -/
def runVerified (tokens : List Token) (state : State) : Option Outcome :=
  match Token.verify tokens with
  | .error diagnostic => some (.failed (.diagnosed diagnostic) state)
  | .ok () => run tokens state

/-- The next program of a session: runs a source text on the state left by the others. -/
def runSource (source : String) (state : State) : Option Outcome :=
  runVerified (Token.ofSource source) state

/-- The trace of a token sequence run from given meanings of names. The tokens are verified
before the meanings. -/
def interpret (tokens : List Token) (context : NameMap Binding) :
    Except Failure (Array DrawOp) :=
  match Token.verify tokens with
  | .error diagnostic => .error (.diagnosed diagnostic)
  | .ok () =>
    match Scope.ofBindings context with
    | .error diagnostic => .error (.diagnosed diagnostic)
    | .ok scope =>
      match run tokens (.initial scope) with
      | some (.done state) => .ok state.trace
      | some (.failed failure _) => .error failure
      | none => .error .endless

end Program

end DesignByNumbers
