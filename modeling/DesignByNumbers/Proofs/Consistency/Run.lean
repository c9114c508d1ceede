import DesignByNumbers.Proofs.Consistency
import DesignByNumbers.Proofs.Invariant

/-!
# Proofs.Consistency.Run — runs keep to what names may mean

A run of well-formed tokens that starts with a consistent scope ends with one, in success and in
failure, and everything that it has drawn by then can be drawn.

* `isInvariant_isConsistent`, `isInvariant_isOver` — single changes of a state.
* `isConsistent_of_run` — whole runs.
-/

namespace DesignByNumbers

/-- The scope is consistent, and whatever was drawn can be drawn. -/
structure State.IsConsistent (state : State) : Prop where
  scope : state.scope.IsConsistent
  trace : ∀ op ∈ state.trace, op.IsDrawable

/-- What holds of all that was drawn, and of one operation more, holds of all that is drawn then. -/
theorem State.forall_mem_trace_draw {P : DrawOp → Prop} {state : State}
    (h : ∀ op ∈ state.trace, P op) {op : DrawOp} (hOp : P op) : ∀ op' ∈ (state.draw op).trace, P op' := by
  intro op' hOp'
  rcases Array.mem_push.mp hOp' with hOld | rfl
  · exact h op' hOld
  · exact hOp

namespace State.IsConsistent

variable {state : State}

theorem draw (h : state.IsConsistent) {op : DrawOp} (hOp : op.IsDrawable) :
    (state.draw op).IsConsistent where
  scope := h.scope
  trace := forall_mem_trace_draw h.trace hOp

theorem bind (h : state.IsConsistent) {name : String} {binding : Binding}
    (hBinding : binding.IsConsistent name) : (state.bind name binding).IsConsistent where
  scope := h.scope.bind hBinding
  trace := h.trace

/-- Another consistent scope can take the place of that of a state. -/
theorem withScope (h : state.IsConsistent) {scope : Scope} (hScope : scope.IsConsistent) :
    State.IsConsistent { state with scope } where
  scope := hScope
  trace := h.trace

end State.IsConsistent

namespace Program

/-- Consistency is kept by every statement of well-formed tokens. -/
theorem isInvariant_isConsistent :
    IsInvariant (Numeral.isPlain · = true) (·.isWellFormed = true) State.IsConsistent where
  isNumeral := Numeral.isKind_plain fun _ => Token.isNumeral_of_isWellFormed
  isPlain hState := hState.scope.isPlain
  draw hState hOp := hState.draw fun field hField => (hOp field hField).1
  assign hState hText := hState.bind hText
  define hState hKeyword _ hBody := hState.bind ⟨rfl, hKeyword, hBody.isBlock⟩
  body hState hCommand := (hState.scope.isBlock hCommand).isWellFormed
  enter hState _ hArguments hChild := hState.withScope (hState.scope.deriveChild hArguments hChild)
  leave hState hInner := hInner.withScope hState.scope

/-- Commands that are made of tokens with a property stay so in runs of such tokens. -/
theorem isInvariant_isOver {Q : Token → Prop} (hQ : ∀ token, Q token → token.IsNumeral) :
    IsInvariant (Numeral.isPlain · = true) Q fun state => state.scope.IsOver Q where
  isNumeral := Numeral.isKind_plain hQ
  isPlain hState := hState.isPlain
  draw hState _ := hState
  assign hState hText := hState.bind hText
  define hState _ _ hBody := hState.bind hBody.tokens
  body hState hCommand := hState.get? hCommand
  enter hState _ hArguments hChild :=
    hState.deriveChild (fun _ _ hPlain => hPlain) hArguments hChild
  leave hState _ := hState

/-- Whatever an invariant says of scopes, everything that is drawn meanwhile can be drawn. -/
theorem IsInvariant.withDrawable {N : String → Prop} {Q : Token → Prop} {I : State → Prop}
    (h : IsInvariant N Q I) :
    IsInvariant N Q fun state => I state ∧ ∀ op ∈ state.trace, op.IsDrawable where
  isNumeral := h.isNumeral
  isPlain hState := h.isPlain hState.1
  draw hState hOp := ⟨h.draw hState.1 hOp,
    State.forall_mem_trace_draw hState.2 fun field hField => (hOp field hField).1⟩
  assign hState hText := ⟨h.assign hState.1 hText, hState.2⟩
  define hState hKeyword hNew hBody := ⟨h.define hState.1 hKeyword hNew hBody, hState.2⟩
  body hState hCommand := h.body hState.1 hCommand
  enter hState hCommand hArguments hChild :=
    ⟨h.enter hState.1 hCommand hArguments hChild, hState.2⟩
  leave hState hInner := ⟨h.leave hState.1 hInner.1, hInner.2⟩

/-- What is read from tokens in a scope is made of those of both. -/
theorem isOver_of_isReadFrom {Q : Token → Prop} (hQ : ∀ token, Q token → token.IsNumeral)
    {scope : Scope} (hScope : scope.IsOver Q) {instruction : Instruction}
    (hRead : IsReadFrom Q scope instruction) : instruction.IsOver Q := by
  have hState : (State.initial scope).scope.IsOver Q := hScope
  exact ((isInvariant_isOver hQ).isPossible hState hRead).isOver hScope

/-- A run of well-formed tokens from a consistent state ends in a consistent state. -/
theorem isConsistent_of_run {tokens : List Token} {state : State} {outcome : Outcome}
    (hTokens : Token.verify tokens = .ok ()) (hState : state.IsConsistent)
    (h : run tokens state = some outcome) : outcome.state.IsConsistent :=
  (isInvariant_isConsistent.keeps_of_run (Token.isWellFormed_of_verify hTokens) hState h).state

end Program

end DesignByNumbers
