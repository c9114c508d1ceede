import DesignByNumbers.Proofs.Demands.Reading
import DesignByNumbers.Proofs.Simulation

/-!
# Proofs.Demands.Run — demands never refuse what would run

Since statements are read the same under any demands, or are refused under all of them, runs under
any demands do the same: they end normally with the same state, or fail with the same state, or do
not end. Only what is reported may differ.

* `run_follows`, `follows_run` — runs as they are and runs under demands follow each other.
* `run_all` — where all demands are made, runs are what they are.
* `run_endsAlike` — runs under any demands, and `run_none_endsAlike` under none.
-/

namespace DesignByNumbers.Demands

open Program (run_eq statements statements_nil statements_of_error statements_of_ok execute Follows
  follows_some IsEndRelation RunnerFollows)

/-! ## Ends of runs -/

/-- Two runs leave the same state, and both of them fail or neither does. -/
inductive EndsAlike : Outcome → Outcome → Prop
  | done (state : State) : EndsAlike (.done state) (.done state)
  | failed (failure failure' : Failure) (state : State) :
      EndsAlike (.failed failure state) (.failed failure' state)

/-- Ends of runs from the same states are related, and stay so with another scope. -/
structure IsEnd (O : Outcome → Outcome → Prop) : Prop where
  isEndRelation : IsEndRelation Eq O
  inScope : ∀ {outcome outcome'} scope, O outcome outcome' →
    O (outcome.inScope scope) (outcome'.inScope scope)

theorem isEnd_eq : IsEnd Eq where
  isEndRelation :=
    { done := congrArg Outcome.done
      unconvertible := congrArg (Outcome.failed .unconvertible)
      andThen := by
        intro outcome outcome' next next' hOutcome hNext
        subst hOutcome
        cases outcome with
        | done state => exact hNext state state rfl
        | failed failure state => exact follows_some rfl }
  inScope scope hOutcome := congrArg (Outcome.inScope · scope) hOutcome

theorem isEnd_endsAlike : IsEnd EndsAlike where
  isEndRelation :=
    { done := by
        rintro state _ rfl
        exact .done state
      unconvertible := by
        rintro state _ rfl
        exact .failed _ _ state
      andThen := by
        intro outcome outcome' next next' hOutcome hNext
        cases hOutcome with
        | done state => exact hNext state state rfl
        | failed failure failure' state => exact follows_some (.failed failure failure' state) }
  inScope scope hOutcome := by
    cases hOutcome with
    | done state => exact .done _
    | failed failure failure' state => exact .failed failure failure' _

/-! ## Runs that follow each other -/

section Follows

variable {O : Outcome → Outcome → Prop}

/-- An instruction does the same in two ways to run its blocks that follow each other. -/
theorem IsEnd.execute_follows (h : IsEnd O) {nested nested' : Runner}
    (hNested : ∀ tokens state, Follows O (nested tokens state) (nested' tokens state))
    (instruction : Instruction) (state : State) :
    Follows O (execute nested instruction state) (execute nested' instruction state) := by
  cases instruction with
  | draw op => exact follows_some (h.isEndRelation.done rfl)
  | bind name binding => exact follows_some (h.isEndRelation.done rfl)
  | loop name first last block =>
    have hRunner : RunnerFollows Eq Eq O nested nested' := by
      intro tokens tokens' state state' hTokens hState
      rw [List.forall₂_eq_eq_eq] at hTokens
      subst hTokens hState
      exact hNested tokens state
    have hBlock : List.Forall₂ Eq block block := List.forall₂_same.mpr fun _ _ => rfl
    refine h.isEndRelation.rounds_follow hRunner (fun _ _ _ hState => ?_) hBlock _ _ _ rfl
    rw [hState]
  | check held block =>
    cases held with
    | true => exact hNested block state
    | false => exact follows_some (h.isEndRelation.done rfl)
  | call scope body =>
    refine (hNested body { state with scope }).bind fun _ _ hOutcome => ?_
    exact follows_some (h.inScope state.scope hOutcome)

/-- Two ways to read a statement read the same, or refuse it in ways that end a run alike. -/
inductive ReadsAlike (O : Outcome → Outcome → Prop) (state : State) :
    Except Diagnostic (Instruction × List Token) → Except Diagnostic (Instruction × List Token) → Prop
  | ok (instruction : Instruction) (following : List Token) :
      ReadsAlike O state (.ok (instruction, following)) (.ok (instruction, following))
  | error {diagnostic diagnostic' : Diagnostic}
      (h : O (.failed (.diagnosed diagnostic) state) (.failed (.diagnosed diagnostic') state)) :
      ReadsAlike O state (.error diagnostic) (.error diagnostic')

variable {demands : Demands}

theorem runRest_of_error {last : Option Token} {head : Token} {rest : List Token} {state : State}
    {diagnostic : Diagnostic}
    (hRead : demands.ofStatement state.scope head last rest = .error diagnostic) :
    demands.runRest last (head :: rest) state = some (.failed (.diagnosed diagnostic) state) := by
  rw [runRest, RestRunner.extend, hRead]

theorem runRest_of_ok {last : Option Token} {head : Token} {rest following : List Token}
    {state : State} {instruction : Instruction}
    (hRead : demands.ofStatement state.scope head last rest = .ok (instruction, following)) :
    demands.runRest last (head :: rest) state =
      (execute demands.run instruction state).bind fun outcome =>
        outcome.andThen (demands.runRest last following) := by
  rw [runRest, RestRunner.extend, hRead]
  rfl

section Forward

variable (h : IsEnd O) (hReads : ∀ state head last rest, ReadsAlike O state
  (Instruction.ofStatement state.scope head last rest)
  (demands.ofStatement state.scope head last rest))

include h hReads

/-- Statements under demands follow those without, by induction on the tokens. -/
theorem statements_follow {nested : Runner}
    (hNested : ∀ tokens state, Follows O (nested tokens state) (demands.run tokens state))
    (last : Option Token) (tokens : List Token) (state : State) :
    Follows O (statements nested last tokens state) (demands.runRest last tokens state) := by
  fun_induction statements nested last tokens state with
  | case1 state =>
    rw [runRest_nil]
    exact follows_some (h.isEndRelation.done rfl)
  | case2 state head rest diagnostic hRead =>
    have hBoth := hReads state head last rest
    rw [hRead] at hBoth
    generalize hRead' : demands.ofStatement state.scope head last rest = result' at hBoth
    cases hBoth with
    | error hRefused =>
      rw [runRest_of_error hRead']
      exact follows_some hRefused
  | case3 state head rest instruction following hRead ih =>
    have hBoth := hReads state head last rest
    rw [hRead] at hBoth
    generalize hRead' : demands.ofStatement state.scope head last rest = result' at hBoth
    cases hBoth with
    | ok =>
      rw [runRest_of_ok hRead']
      refine (h.execute_follows hNested instruction state).bind fun _ _ hOutcome => ?_
      refine h.isEndRelation.andThen hOutcome fun between between' hBetween => ?_
      rw [← hBetween]
      exact ih between

/-- Runs under demands follow those without, by induction on how deep these are. -/
theorem run_follows (tokens : List Token) (state : State) :
    Follows O (Program.run tokens state) (demands.run tokens state) := by
  intro outcome hRun
  refine Program.run.partial_correctness
    (fun tokens state outcome => ∃ outcome', demands.run tokens state = some outcome' ∧ O outcome outcome')
    ?_ tokens state outcome hRun
  intro nested hNested tokens state outcome hRun
  exact statements_follow h hReads hNested tokens.getLast? tokens state outcome hRun

end Forward

section Backward

variable (h : IsEnd O) (hReads : ∀ state head last rest, ReadsAlike O state
  (demands.ofStatement state.scope head last rest)
  (Instruction.ofStatement state.scope head last rest))

include h hReads

/-- Runs without demands follow those under demands, by induction on how deep and how far these
are. -/
theorem follows_run (tokens : List Token) (state : State) :
    Follows O (demands.run tokens state) (Program.run tokens state) := by
  intro outcome hRun
  rw [run_eq]
  refine runRest.partial_correctness demands
    (fun last tokens state outcome =>
      ∃ outcome', statements Program.run last tokens state = some outcome' ∧ O outcome outcome')
    ?_ tokens.getLast? tokens state outcome hRun
  intro runRest hRunRest last tokens state outcome hRun
  have hNested : ∀ tokens state, Follows O (runRest tokens.getLast? tokens state)
      (Program.run tokens state) := by
    intro block start final hBlock
    rw [run_eq]
    exact hRunRest block.getLast? block start final hBlock
  unfold RestRunner.extend at hRun
  cases tokens with
  | nil =>
    cases hRun
    exact ⟨.done state, statements_nil Program.run last state, h.isEndRelation.done rfl⟩
  | cons head rest =>
    have hBoth := hReads state head last rest
    dsimp only at hRun
    generalize demands.ofStatement state.scope head last rest = result at hBoth hRun
    generalize hRead : Instruction.ofStatement state.scope head last rest = result' at hBoth
    cases hBoth with
    | error hRefused =>
      cases hRun
      exact ⟨_, statements_of_error Program.run hRead, hRefused⟩
    | ok instruction following =>
      -- the block of the instruction and what follows it are both run by what is known of `runRest`
      rw [statements_of_ok Program.run hRead]
      refine (h.execute_follows hNested instruction state).bind (fun _ _ hOutcome => ?_) outcome hRun
      refine h.isEndRelation.andThen hOutcome fun between between' hBetween => ?_
      rw [← hBetween]
      exact hRunRest last following between

end Backward

end Follows

/-! ## Runs under all demands and under any -/

/-- One and the same way to read a statement reads alike. -/
theorem readsAlike_refl (state : State) (result : Except Diagnostic (Instruction × List Token)) :
    ReadsAlike Eq state result result := by
  cases result with
  | error diagnostic => exact .error rfl
  | ok pair => exact .ok pair.1 pair.2

/-- Where all demands are made, runs are what they are. -/
theorem run_all : all.run = Program.run := by
  have hFollows : ∀ tokens state, Follows Eq (all.run tokens state) (Program.run tokens state) := by
    refine follows_run isEnd_eq fun state head last rest => ?_
    rw [ofStatement_all]
    exact readsAlike_refl state _
  have hBack : ∀ tokens state, Follows Eq (Program.run tokens state) (all.run tokens state) := by
    refine run_follows isEnd_eq fun state head last rest => ?_
    rw [ofStatement_all]
    exact readsAlike_refl state _
  funext tokens state
  have hBoth := (hFollows tokens state).rel (hBack tokens state)
  generalize all.run tokens state = result at hBoth
  generalize Program.run tokens state = result' at hBoth
  cases hBoth with
  | none => rfl
  | some hOutcome => rw [hOutcome]

variable (demands : Demands)

/-- A statement is read under demands as it is, or refused in both ways with nothing done. -/
theorem readsAlike_ofStatement (state : State) (head : Token) (last : Option Token)
    (rest : List Token) :
    ReadsAlike EndsAlike state (Instruction.ofStatement state.scope head last rest)
        (demands.ofStatement state.scope head last rest) ∧
      ReadsAlike EndsAlike state (demands.ofStatement state.scope head last rest)
        (Instruction.ofStatement state.scope head last rest) := by
  have hBoth := demands.alike_ofStatement state.scope head last rest
  generalize Instruction.ofStatement state.scope head last rest = result at hBoth
  generalize demands.ofStatement state.scope head last rest = result' at hBoth
  cases hBoth with
  | ok => exact ⟨.ok _ _, .ok _ _⟩
  | error => exact ⟨.error (.failed _ _ state), .error (.failed _ _ state)⟩

/-- Runs under any demands end as they do under all: normally with the same state, or both with a
failure at the same state, though the failures may differ. -/
theorem run_endsAlike (tokens : List Token) (state : State) :
    Option.Rel EndsAlike (Program.run tokens state) (demands.run tokens state) := by
  have hFollows : Follows EndsAlike (Program.run tokens state) (demands.run tokens state) :=
    run_follows isEnd_endsAlike (fun _ _ _ _ => (demands.readsAlike_ofStatement _ _ _ _).1) tokens state
  have hBack : Follows EndsAlike (demands.run tokens state) (Program.run tokens state) :=
    follows_run isEnd_endsAlike (fun _ _ _ _ => (demands.readsAlike_ofStatement _ _ _ _).2) tokens state
  exact hFollows.rel hBack

/-- No demand refuses a program that would run without it. Runs make all demands. Where none is
made, in blocks at any depth as well, a run ends normally if and only if it does with all of them,
and leaves the same state; where it fails it does so at the same state, though the failures may
differ; and where it goes on for ever, so does it with all of them. -/
theorem run_none_endsAlike :
    all.run = Program.run ∧
      ∀ tokens state, Option.Rel EndsAlike (Program.run tokens state) (none.run tokens state) :=
  ⟨run_all, fun tokens state => none.run_endsAlike tokens state⟩

end DesignByNumbers.Demands
