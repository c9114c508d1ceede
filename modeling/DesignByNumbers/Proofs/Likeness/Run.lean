import DesignByNumbers.Proofs.Likeness.Statement
import DesignByNumbers.Proofs.Simulation

/-!
# Proofs.Likeness.Run — programs that are alike run alike

Of two programs that are alike the second one follows the first: where a run of the first
ends, so does one of the second, with an end that is alike. Since likeness can be turned
around, both end or both go on for ever.

* `statementsFollow` — single statements.
* `run_follows` — the second of two programs follows the first.
* `run_like` — both programs end alike, or neither ends.
-/

namespace DesignByNumbers.Likeness

open Program (execute run runVerified Follows follows_some IsEndRelation RunnerFollows
  StatementsFollow)

/-! ## Ends of runs -/

section Ends

variable (κ : Likeness)

/-- Two states with scopes that are alike and the same trace. -/
structure StateLike (state state' : State) : Prop where
  scope : κ.ScopeLike state.scope state'.scope
  trace : state'.trace = state.trace

/-- Two failures are alike: diagnostics that are, or the same failure without one. -/
inductive FailureLike : Failure → Failure → Prop
  | diagnosed {diagnostic diagnostic' : Diagnostic} (h : κ.DiagnosticLike diagnostic diagnostic') :
      FailureLike (.diagnosed diagnostic) (.diagnosed diagnostic')
  | unconvertible : FailureLike .unconvertible .unconvertible
  | outOfRange : FailureLike .outOfRange .outOfRange
  | endless : FailureLike .endless .endless

/-- Two ends of runs are alike: both are normal or both are failures, with states that are
alike. -/
inductive OutcomeLike : Outcome → Outcome → Prop
  | done {state state' : State} (hState : κ.StateLike state state') :
      OutcomeLike (.done state) (.done state')
  | failed {failure failure' : Failure} {state state' : State}
      (hFailure : κ.FailureLike failure failure') (hState : κ.StateLike state state') :
      OutcomeLike (.failed failure state) (.failed failure' state')

end Ends

variable {κ : Likeness} {state state' : State} {outcome outcome' : Outcome}

theorem StateLike.bind (h : κ.StateLike state state') {name name' : String}
    (hName : κ.named name name') {binding binding' : Binding}
    (hBinding : κ.BindingLike binding binding') :
    κ.StateLike (state.bind name binding) (state'.bind name' binding') where
  scope := h.scope.bind hName hBinding
  trace := h.trace

theorem StateLike.draw (h : κ.StateLike state state') (op : DrawOp) :
    κ.StateLike (state.draw op) (state'.draw op) where
  scope := h.scope
  trace := congrArg (Array.push · op) h.trace

theorem OutcomeLike.inScope (h : κ.OutcomeLike outcome outcome') {scope scope' : Scope}
    (hScope : κ.ScopeLike scope scope') :
    κ.OutcomeLike (outcome.inScope scope) (outcome'.inScope scope') := by
  cases h with
  | done hState => exact .done ⟨hScope, hState.trace⟩
  | failed hFailure hState => exact .failed hFailure ⟨hScope, hState.trace⟩

/-- What goes on from ends that are alike. -/
theorem OutcomeLike.andThen (h : κ.OutcomeLike outcome outcome')
    {next next' : State → Option Outcome}
    (hNext : ∀ state state', κ.StateLike state state' →
      Follows κ.OutcomeLike (next state) (next' state')) :
    Follows κ.OutcomeLike (outcome.andThen next) (outcome'.andThen next') := by
  cases h with
  | done hState => exact hNext _ _ hState
  | failed hFailure hState => exact follows_some (.failed hFailure hState)

/-! ## Runs -/

theorem isEndRelation : IsEndRelation κ.StateLike κ.OutcomeLike where
  done hState := .done hState
  unconvertible hState := .failed .unconvertible hState
  andThen hOutcome hNext := hOutcome.andThen hNext

theorem execute_follows {nested nested' : Runner}
    (hNested : RunnerFollows κ.TokenLike κ.StateLike κ.OutcomeLike nested nested')
    {instruction instruction' : Instruction}
    (hInstruction : κ.InstructionLike instruction instruction') (hState : κ.StateLike state state') :
    Follows κ.OutcomeLike (execute nested instruction state)
      (execute nested' instruction' state') := by
  cases hInstruction with
  | draw op => exact follows_some (.done (hState.draw op))
  | bind hName hBinding => exact follows_some (.done (hState.bind hName hBinding))
  | loop hName first last hBlock =>
    refine isEndRelation.rounds_follow hNested (fun _ _ index hBetween => ?_) hBlock _ _ _ hState
    exact hBetween.bind hName (.number (Numeral.decimal index))
  | check held hBlock =>
    cases held with
    | true => exact hNested _ _ _ _ hBlock hState
    | false => exact follows_some (.done hState)
  | @call child child' body body' hScope hBody =>
    have hChild : κ.StateLike { state with scope := child } { state' with scope := child' } :=
      ⟨hScope, hState.trace⟩
    refine (hNested _ _ _ _ hBody hChild).bind fun _ _ hOutcome => ?_
    exact follows_some (hOutcome.inScope hState.scope)

/-- Statements that are alike are read alike, so that both are refused or both are carried out. -/
theorem statementsFollow : StatementsFollow κ.TokenLike κ.StateLike κ.OutcomeLike := by
  intro state state' head head' last last' rest rest' hState hHead hLast hRest
  have hReader := readerLike_ofStatement hState.scope hHead (some last) (some last') rest rest'
    (.some hLast) hRest
  generalize Instruction.ofStatement state.scope head (some last) rest = result at hReader
  generalize Instruction.ofStatement state'.scope head' (some last') rest' = result' at hReader
  cases hReader with
  | error hDiagnostic => exact .error (.failed (.diagnosed hDiagnostic) hState)
  | ok hPair => exact .ok (fun _ _ hNested => execute_follows hNested hPair.1 hState) hPair.2

/-- The second of two programs that are alike follows the first. -/
theorem run_follows {tokens tokens' : List Token} (hTokens : κ.TokensLike tokens tokens')
    (hState : κ.StateLike state state') :
    Follows κ.OutcomeLike (run tokens state) (run tokens' state') :=
  isEndRelation.run_follows statementsFollow hTokens hState

/-! ## Both ways -/

theorem TokenLike.symm {token token' : Token} (h : κ.TokenLike token token') :
    κ.symm.TokenLike token' token where
  kind := h.kind.symm
  word := fun hWord => h.word (h.kind ▸ hWord)
  other := fun hOther => (h.other (h.kind ▸ hOther)).symm
  wellFormed := h.wellFormed.symm
  located := h.located

theorem TokensLike.symm {tokens tokens' : List Token} (h : κ.TokensLike tokens tokens') :
    κ.symm.TokensLike tokens' tokens :=
  h.flip.imp fun _ _ hToken => hToken.symm

theorem BindingLike.symm {binding binding' : Binding} (h : κ.BindingLike binding binding') :
    κ.symm.BindingLike binding' binding := by
  cases h with
  | number text => exact .number text
  | command hName hParameters hBody =>
    exact .command hName hParameters.flip (TokensLike.symm hBody)

theorem StateLike.symm (h : κ.StateLike state state') : κ.symm.StateLike state' state where
  scope := by
    refine List.Forall₂.imp ?_ (List.Forall₂.flip h.scope)
    exact fun _ _ hEntry => ⟨hEntry.1, hEntry.2.symm⟩
  trace := h.trace.symm

/-- Two programs that are alike end alike, or neither ends. -/
theorem run_like {tokens tokens' : List Token} (hTokens : κ.TokensLike tokens tokens')
    (hState : κ.StateLike state state') :
    Option.Rel κ.OutcomeLike (run tokens state) (run tokens' state') :=
  (run_follows hTokens hState).rel (run_follows hTokens.symm hState.symm)

/-- Two programs whose tokens are not known to be well formed. -/
theorem runVerified_like {tokens tokens' : List Token} (hTokens : κ.TokensLike tokens tokens')
    (hState : κ.StateLike state state') :
    Option.Rel κ.OutcomeLike (runVerified tokens state) (runVerified tokens' state') := by
  have hVerify := hTokens.verify
  rw [runVerified, runVerified]
  generalize Token.verify tokens = verified at hVerify
  generalize Token.verify tokens' = verified' at hVerify
  cases hVerify with
  | ok _ => exact run_like hTokens hState
  | error hDiagnostic => exact .some (.failed (.diagnosed hDiagnostic) hState)

end DesignByNumbers.Likeness
