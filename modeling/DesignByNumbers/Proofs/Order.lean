import DesignByNumbers.Proofs.Consistency.Run
import DesignByNumbers.Proofs.Interface
import DesignByNumbers.Proofs.Simulation

/-!
# Proofs.Order — the order of names does not matter

A run sees a scope by looking names up. The order in which a scope lists its names shows in one
place only: a call checks all numbers anew and reports the first one that is refused. Where all of
them are plain numerals none is, so that runs of the same tokens from scopes in which every name
means the same end in the same way.

* `Scope.Same.sameInterface` — statements that begin with a keyword are read the same.
* `Scope.Same.ofStatement` — calls enter scopes in which every name means the same.
* `statementsFollow_same`, `run_same` — single statements and whole runs.
-/

namespace DesignByNumbers

open Token (Reader)
open Program (execute run Follows follows_some IsEndRelation RunnerFollows StatementsFollow)

/-- Two scopes in which every name means the same, though perhaps in another order. -/
def Scope.Same (scope scope' : Scope) : Prop :=
  ∀ name, scope'.get? name = scope.get? name

namespace Scope.Same

variable {scope scope' : Scope} (h : scope.Same scope')

theorem refl (scope : Scope) : scope.Same scope :=
  fun _ => rfl

include h

theorem symm : scope'.Same scope :=
  fun name => (h name).symm

/-- A caller cannot tell such scopes apart. -/
theorem sameInterface : scope.SameInterface scope' := by
  intro name
  rw [h name]
  cases scope.get? name with
  | none => exact .none
  | some binding => exact .some (.refl binding)

theorem bind (name : String) (binding : Binding) :
    (scope.bind name binding).Same (scope'.bind name binding) := by
  intro name'
  show (scope'.bindings.insert name binding).get? name' = (scope.bindings.insert name binding).get? name'
  rw [NameMap.get?_insert, NameMap.get?_insert]
  exact congrArg _ (h name')

theorem insertAll (entries : List (String × Binding)) :
    Scope.Same ⟨scope.bindings.insertAll entries⟩ ⟨scope'.bindings.insertAll entries⟩ := by
  induction entries generalizing scope scope' with
  | nil => exact h
  | cons entry rest ih => exact ih (h.bind entry.1 entry.2)

end Scope.Same

/-! ## Statements -/

/-- Two instructions do the same, a call perhaps in scopes of another order. -/
inductive Instruction.Same : Instruction → Instruction → Prop
  | draw (op : DrawOp) : Same (.draw op) (.draw op)
  | bind (name : String) (binding : Binding) : Same (.bind name binding) (.bind name binding)
  | loop (name : String) (first last : Int) (block : List Token) :
      Same (.loop name first last block) (.loop name first last block)
  | check (held : Bool) (block : List Token) : Same (.check held block) (.check held block)
  | call {child child' : Scope} (hChild : child.Same child') (body : List Token) :
      Same (.call child body) (.call child' body)

theorem Instruction.Same.refl (instruction : Instruction) : instruction.Same instruction := by
  cases instruction with
  | draw op => exact .draw op
  | bind name binding => exact .bind name binding
  | loop name first last block => exact .loop name first last block
  | check held block => exact .check held block
  | call scope body => exact .call (Scope.Same.refl scope) body

/-- The same is refused, or instructions that do the same are read in front of the same tokens. -/
inductive ReadsSame : Except Diagnostic (Instruction × List Token) →
    Except Diagnostic (Instruction × List Token) → Prop
  | ok {instruction instruction' : Instruction} (h : instruction.Same instruction')
      (following : List Token) : ReadsSame (.ok (instruction, following)) (.ok (instruction', following))
  | error (diagnostic : Diagnostic) : ReadsSame (.error diagnostic) (.error diagnostic)

theorem ReadsSame.refl (result : Except Diagnostic (Instruction × List Token)) :
    ReadsSame result result := by
  cases result with
  | ok pair => exact .ok (Instruction.Same.refl pair.1) pair.2
  | error diagnostic => exact .error diagnostic

section Statements

variable {Q : Token → Prop} (hQ : ∀ token, Q token → token.IsNumeral) {scope scope' : Scope}
  {last : Token} {rest : List Token} (hLast : Q last) (hRest : ∀ token ∈ rest, Q token)

include hQ hLast hRest

/-- The arguments of a call are the same numbers, and its scopes are never refused. -/
theorem Scope.Same.ofCall (h : scope.Same scope') (hScope : scope.IsPlain)
    (hScope' : scope'.IsPlain) (command : Command) (head : Token) :
    ReadsSame (Instruction.ofCall scope command head (some last) rest)
      (Instruction.ofCall scope' command head (some last) rest) := by
  rw [Instruction.ofCall, Instruction.ofCall, h.sameInterface.arguments]
  cases hRequire : Instruction.requireArguments command head (some last) rest with
  | error diagnostic =>
    rw [Reader.bind_apply_of_error _ hRequire, Reader.bind_apply_of_error _ hRequire]
    exact .error diagnostic
  | ok between =>
    obtain ⟨_, between⟩ := between
    obtain rfl := Instruction.eq_of_requireArguments hRequire
    rw [Reader.bind_apply_of_ok _ hRequire, Reader.bind_apply_of_ok _ hRequire]
    have hAnswer := Instruction.answers_arguments (Numeral.isKind_plain hQ) hScope command.parameters last between hLast
      (Nat.lt_succ_self between.length) hRest
    cases hArguments : Instruction.arguments scope command.parameters (some last) between with
    | error diagnostic =>
      rw [Reader.bind_apply_of_error _ hArguments, Reader.bind_apply_of_error _ hArguments]
      exact .error diagnostic
    | ok pair =>
      obtain ⟨bindings, following⟩ := pair
      rw [Reader.bind_apply_of_ok _ hArguments, Reader.bind_apply_of_ok _ hArguments]
      rw [hArguments] at hAnswer
      cases hAnswer with
      | ok hPair =>
        -- both children pass their checks, and know the arguments before all else
        obtain ⟨child, hChild⟩ := Instruction.exists_deriveChild hScope hPair.1
        obtain ⟨child', hChild'⟩ := Instruction.exists_deriveChild hScope' hPair.1
        obtain ⟨-, rfl⟩ := Scope.ofBindings_eq_ok_iff.mp hChild
        obtain ⟨-, rfl⟩ := Scope.ofBindings_eq_ok_iff.mp hChild'
        rw [Instruction.callWith, Instruction.callWith, hChild, hChild']
        exact .ok (.call (h.insertAll _) command.body) following

/-- A statement is read in the same way, except that a call enters another scope. -/
theorem Scope.Same.ofStatement (h : scope.Same scope') (hScope : scope.IsPlain)
    (hScope' : scope'.IsPlain) (head : Token) :
    ReadsSame (Instruction.ofStatement scope head (some last) rest)
      (Instruction.ofStatement scope' head (some last) rest) := by
  unfold Instruction.ofStatement
  split
  · exact .refl _
  -- only a call reads the scope as a whole
  cases Keyword.ofText? head.text with
  | some keyword =>
    simp only [h.sameInterface.ofKeyword]
    exact .refl _
  | none =>
    rw [h head.text]
    cases scope.get? head.text with
    | none => exact .refl _
    | some binding =>
      cases binding with
      | number text => exact .refl _
      | command command => exact h.ofCall hQ hLast hRest hScope hScope' command head

end Statements

/-! ## Runs -/

/-- Two states with the same trace, in which every name means the same, a number or a command of
tokens with a property. -/
structure State.Same (Q : Token → Prop) (state state' : State) : Prop where
  scope : state.scope.Same state'.scope
  trace : state'.trace = state.trace
  isOver : state.scope.IsOver Q
  isOver' : state'.scope.IsOver Q

/-- Two runs end in the same way, with the same failure if they fail. -/
inductive Outcome.Same (Q : Token → Prop) : Outcome → Outcome → Prop
  | done {state state' : State} (h : state.Same Q state') : Same Q (.done state) (.done state')
  | failed (failure : Failure) {state state' : State} (h : state.Same Q state') :
      Same Q (.failed failure state) (.failed failure state')

section Runs

variable {Q : Token → Prop} {state state' : State}

namespace State.Same

theorem symm (h : state.Same Q state') : state'.Same Q state where
  scope := h.scope.symm
  trace := h.trace.symm
  isOver := h.isOver'
  isOver' := h.isOver

theorem draw (h : state.Same Q state') (op : DrawOp) :
    (state.draw op).Same Q (state'.draw op) where
  scope := h.scope
  trace := congrArg (Array.push · op) h.trace
  isOver := h.isOver
  isOver' := h.isOver'

theorem bind (h : state.Same Q state') (name : String) {binding : Binding}
    (hBinding : binding.IsOver Q) : (state.bind name binding).Same Q (state'.bind name binding) where
  scope := h.scope.bind name binding
  trace := h.trace
  isOver := h.isOver.bind hBinding
  isOver' := h.isOver'.bind hBinding

end State.Same

theorem Outcome.Same.inScope {outcome outcome' : Outcome} (h : outcome.Same Q outcome')
    (hState : state.Same Q state') :
    (outcome.inScope state.scope).Same Q (outcome'.inScope state'.scope) := by
  cases h with
  | done hEnd => exact .done { hState with trace := hEnd.trace }
  | failed failure hEnd => exact .failed failure { hState with trace := hEnd.trace }

theorem Outcome.Same.andThen {outcome outcome' : Outcome} (h : outcome.Same Q outcome')
    {next next' : State → Option Outcome}
    (hNext : ∀ state state', state.Same Q state' → Follows (Outcome.Same Q) (next state) (next' state')) :
    Follows (Outcome.Same Q) (outcome.andThen next) (outcome'.andThen next') := by
  cases h with
  | done hEnd => exact hNext _ _ hEnd
  | failed failure hEnd => exact follows_some (.failed failure hEnd)

theorem isEndRelation_same : IsEndRelation (State.Same Q) (Outcome.Same Q) where
  done hState := .done hState
  unconvertible hState := .failed .unconvertible hState
  andThen hOutcome hNext := hOutcome.andThen hNext

/-- Two tokens are one token with a property. -/
def SameToken (Q : Token → Prop) (token token' : Token) : Prop :=
  Q token ∧ token' = token

theorem forall₂_sameToken {tokens tokens' : List Token} :
    List.Forall₂ (SameToken Q) tokens tokens' ↔ (∀ token ∈ tokens, Q token) ∧ tokens' = tokens := by
  constructor
  · intro h
    induction h with
    | nil => exact ⟨fun _ hToken => absurd hToken List.not_mem_nil, rfl⟩
    | cons hToken _ ih =>
      rw [hToken.2, ih.2]
      exact ⟨List.forall_mem_cons.mpr ⟨hToken.1, ih.1⟩, rfl⟩
  · rintro ⟨hTokens, rfl⟩
    exact List.forall₂_same.mpr fun token hToken => ⟨hTokens token hToken, rfl⟩

theorem execute_same {nested nested' : Runner}
    (hNested : RunnerFollows (SameToken Q) (State.Same Q) (Outcome.Same Q) nested nested')
    {instruction instruction' : Instruction} (hSame : instruction.Same instruction')
    (hOver : instruction.IsOver Q) (hOver' : instruction'.IsOver Q) (hState : state.Same Q state') :
    Follows (Outcome.Same Q) (execute nested instruction state)
      (execute nested' instruction' state') := by
  have hBlock : ∀ {block : List Token}, (∀ token ∈ block, Q token) →
      List.Forall₂ (SameToken Q) block block := fun hTokens => forall₂_sameToken.mpr ⟨hTokens, rfl⟩
  cases hSame with
  | draw op => exact follows_some (.done (hState.draw op))
  | bind name binding => exact follows_some (.done (hState.bind name hOver))
  | loop name first last block =>
    refine isEndRelation_same.rounds_follow hNested (fun _ _ index hBetween => ?_) (hBlock hOver)
      _ _ _ hState
    exact hBetween.bind name (Numeral.isPlain_decimal index)
  | check held block =>
    cases held with
    | true => exact hNested block block _ _ (hBlock hOver) hState
    | false => exact follows_some (.done hState)
  | @call child child' hChild body =>
    have hInner : State.Same Q { state with scope := child } { state' with scope := child' } :=
      ⟨hChild, hState.trace, hOver.1, hOver'.1⟩
    refine (hNested body body _ _ (hBlock hOver.2) hInner).bind fun _ _ hOutcome => ?_
    exact follows_some (hOutcome.inScope hState)

/-- The same statements are refused or carried out in the same way. -/
theorem statementsFollow_same (hQ : ∀ token, Q token → token.IsNumeral) :
    StatementsFollow (SameToken Q) (State.Same Q) (Outcome.Same Q) := by
  intro state state' _ head _ last _ rest hState hHead hLast hRest
  obtain ⟨hHead, rfl⟩ := hHead
  obtain ⟨hLast, rfl⟩ := hLast
  obtain ⟨hRest, rfl⟩ := forall₂_sameToken.mp hRest
  have hTokens := List.forall_mem_cons.mpr ⟨hHead, hRest⟩
  have hReads := hState.scope.ofStatement hQ hLast hRest hState.isOver.isPlain
    hState.isOver'.isPlain head
  generalize hRead : Instruction.ofStatement state.scope head (some last) rest = result at hReads ⊢
  generalize hRead' : Instruction.ofStatement state'.scope head (some last) rest = result' at hReads ⊢
  cases hReads with
  | error diagnostic => exact .error (.failed _ hState)
  | @ok instruction instruction' hSame following =>
    -- whatever the two instructions bind or run is made of tokens with the property
    have hOver : instruction.IsOver Q := Program.isOver_of_isReadFrom hQ hState.isOver
      ⟨head, last, rest, following, hTokens, hLast, hRead⟩
    have hOver' : instruction'.IsOver Q := Program.isOver_of_isReadFrom hQ hState.isOver'
      ⟨head, last, rest, following, hTokens, hLast, hRead'⟩
    have hFollowing := forall₂_sameToken.mpr ⟨Program.forall_mem_following hTokens hRead, rfl⟩
    exact .ok (fun _ _ hNested => execute_same hNested hSame hOver hOver' hState) hFollowing

/-- Runs of the same tokens end in the same way, or neither ends, when they start where every name
means the same. -/
theorem run_same (hQ : ∀ token, Q token → token.IsNumeral) {tokens : List Token}
    (hTokens : ∀ token ∈ tokens, Q token) (hState : state.Same Q state') :
    Option.Rel (Outcome.Same Q) (run tokens state) (run tokens state') := by
  have hSame := forall₂_sameToken.mpr ⟨hTokens, rfl⟩
  have hFollows := isEndRelation_same.run_follows (statementsFollow_same hQ) hSame hState
  exact hFollows.rel (isEndRelation_same.run_follows (statementsFollow_same hQ) hSame hState.symm)

end Runs

end DesignByNumbers
