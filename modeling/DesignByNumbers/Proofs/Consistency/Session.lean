import DesignByNumbers.Proofs.Consistency.Run

/-!
# Proofs.Consistency.Session — scopes stay consistent throughout a session

A session runs programs one after the other, and goes on with the state that a program left behind
when it failed. If it starts with a consistent scope then every scope is consistent that it comes to,
in any program, at any depth of calls, and in front of every statement. The numbers that a call checks
anew are therefore never refused.

* `Passes` — the points of a session.
* `passes_isConsistent` — their scopes are consistent, and so are those of the calls made there.
-/

namespace DesignByNumbers.Program

open Token (ofSource)

/-- A point is passed while token sequences are run one after the other, each in the state that the
one before left behind, normally or not. A sequence with a malformed token is refused as a whole. -/
inductive Passes : List (List Token) → State → Point → Prop
  | now {tokens : List Token} {others : List (List Token)} {state : State} {point : Point}
      (hTokens : Token.verify tokens = .ok ()) (hReaches : Reaches (.start tokens state) point) :
      Passes (tokens :: others) state point
  | later {tokens : List Token} {others : List (List Token)} {state : State} {outcome : Outcome}
      {point : Point} (hRun : runVerified tokens state = some outcome)
      (hPasses : Passes others outcome.state point) : Passes (tokens :: others) state point

/-- What every statement of well-formed tokens keeps holds at all points of a session. -/
theorem IsInvariant.holds_of_passes {N : String → Prop} {I : State → Prop}
    (h : IsInvariant N (·.isWellFormed = true) I) {programs : List (List Token)} {state : State}
    {point : Point} (hState : I state) (hPasses : Passes programs state point) : point.Holds (·.isWellFormed = true) I := by
  induction hPasses with
  | now hTokens hReaches =>
    exact h.holds_of_reaches (Point.holds_start (Token.isWellFormed_of_verify hTokens) hState) hReaches
  | @later tokens others state outcome point hRun _ ih =>
    refine ih ?_
    rw [runVerified] at hRun
    split at hRun
    next =>
      -- a program that is refused leaves the state as it was
      cases hRun
      exact hState
    next hTokens => exact (h.keeps_of_run (Token.isWellFormed_of_verify hTokens) hState hRun).state

theorem isInvariant_scope : IsInvariant (Numeral.isPlain · = true) (·.isWellFormed = true)
    fun state => state.scope.IsConsistent where
  isNumeral := Numeral.isKind_plain fun _ => Token.isNumeral_of_isWellFormed
  isPlain hState := hState.isPlain
  draw hState _ := hState
  assign hState hText := hState.bind hText
  define hState hKeyword _ hBody := hState.bind ⟨rfl, hKeyword, hBody.isBlock⟩
  body hState hCommand := (hState.isBlock hCommand).isWellFormed
  enter hState _ hArguments hChild := hState.deriveChild hArguments hChild
  leave hState _ := hState

/-- A session that starts with a consistent scope comes to consistent scopes only: in front of every
statement, at any depth of calls, and wherever what is left of a program or of a body ends, normally
or not. The check of the numbers in the scope of a call is always passed, so that no failure comes
from it, and that scope is consistent too. -/
theorem passes_isConsistent {programs : List (List Token)} {state : State} {point : Point}
    (hScope : state.scope.IsConsistent) (hPasses : Passes programs state point) :
    point.state.scope.IsConsistent ∧
    (∀ outcome, statements run point.last point.rest point.state = some outcome →
      outcome.state.scope.IsConsistent ∧
      ∀ name value, outcome.failure? ≠ some (.diagnosed (.unlocated (.notAnInteger name value)))) ∧
    ∀ head rest command bindings following, point.rest = head :: rest →
      point.state.scope.get? head.text = some (.command command) →
      Instruction.arguments point.state.scope command.parameters point.last rest =
        .ok (bindings, following) →
      ∃ child, point.state.scope.deriveChild (.ofList bindings) = .ok child ∧ child.IsConsistent := by
  have hPoint := isInvariant_scope.holds_of_passes hScope hPasses
  refine ⟨hPoint.state, fun outcome hRun => ?_, ?_⟩
  · have hKeeps := isInvariant_scope.keeps_of_holds hPoint hRun
    refine ⟨hKeeps.state, fun name value hFailure => ?_⟩
    -- whatever is reported stands at a token, which the check of a scope does not
    obtain ⟨diagnostic, hDiagnostic, hReport⟩ := hKeeps.report _ hFailure
    obtain ⟨token, -, hLocation⟩ := hReport.exists_location
    cases hDiagnostic
    cases hLocation
  · intro head rest command bindings following hRest hCommand hArguments
    obtain ⟨final, hFinal, hLast⟩ := hPoint.last (hRest ▸ List.cons_ne_nil head rest)
    have hTokens := (List.forall_mem_cons.mp (hRest ▸ hPoint.rest)).2
    have hAnswer := Instruction.answers_arguments isInvariant_scope.isNumeral hPoint.state.isPlain
      command.parameters final rest hFinal (Nat.lt_succ_self rest.length) hTokens
    rw [hLast] at hArguments
    rw [hArguments] at hAnswer
    cases hAnswer with
    | ok hPair =>
      obtain ⟨child, hChild⟩ := Instruction.exists_deriveChild hPoint.state.isPlain hPair.1
      exact ⟨child, hChild, hPoint.state.deriveChild hPair.1 hChild⟩

/-- A program that fails, and behind it a call whose body is over: the scope of the call knows its
argument, and a number that the body has changed. -/
theorem passes_isConsistent_shift :
    let body := ofSource "Set X (X - a)"
    let shift : Binding := .command ⟨"Shift", ["a"], body⟩
    let scope : Scope := ⟨⟨[("Shift", shift), ("X", .number "-07")]⟩⟩
    let child : Scope := ⟨⟨[("Shift", shift), ("X", .number "4"), ("a", .number "1")]⟩⟩
    scope.IsConsistent ∧
      Passes [ofSource "Set X 5 Pen Z", ofSource "Shift 1"] (.initial scope)
        ⟨.initial child, [], body.getLast?⟩ ∧ child.IsConsistent := by
  intro body shift scope child
  have hBody : IsBlock body := by
    have hText : Block.IsBalanced (body.map Token.content) := by decide +kernel
    exact ⟨hText, Token.verify_eq_ok_iff.mp (by decide +kernel)⟩
  have hScope : scope.IsConsistent := by
    intro name binding hEntry
    rcases List.mem_pair.mp hEntry with hShift | hNumber
    · cases hShift
      exact ⟨rfl, by decide +kernel, hBody⟩
    · cases hNumber
      show Numeral.isPlain "-07" = true
      decide +kernel
  let changed : Scope := ⟨⟨[("Shift", shift), ("X", .number "5")]⟩⟩
  let called : Scope := ⟨⟨[("Shift", shift), ("X", .number "5"), ("a", .number "1")]⟩⟩
  -- the first program assigns to a variable and then fails
  have hFailed : runVerified (ofSource "Set X 5 Pen Z") (.initial scope) =
      some (.failed (.diagnosed ⟨.undeclared "Z", some ⟨1, 12, "Set X 5 Pen Z"⟩⟩)
        (.initial changed)) := by
    obtain ⟨head, rest, pen, name, hTokens, hSet, hPen⟩ : ∃ head rest pen name,
        ofSource "Set X 5 Pen Z" = head :: rest ∧
        Instruction.ofStatement (State.initial scope).scope head (head :: rest).getLast? rest =
          .ok (.bind "X" (.number "5"), [pen, name]) ∧
        Instruction.ofStatement (State.initial changed).scope pen (head :: rest).getLast? [name] =
          .error ⟨.undeclared "Z", some ⟨1, 12, "Set X 5 Pen Z"⟩⟩ :=
      ⟨(ofSource "Set X 5 Pen Z").head!, (ofSource "Set X 5 Pen Z").tail,
        (ofSource "Set X 5 Pen Z")[3]!, (ofSource "Set X 5 Pen Z")[4]!, by decide +kernel⟩
    have hVerify : Token.verify (ofSource "Set X 5 Pen Z") = .ok () := by decide +kernel
    have hChanged : execute run (.bind "X" (.number "5")) (.initial scope) =
        some (.done (.initial changed)) := rfl
    rw [runVerified, hVerify, hTokens]
    simp only [run_eq]
    rw [statements_of_done hSet hChanged, statements_of_error run hPen]
  -- the second one enters the command, and comes to the end of its body
  obtain ⟨head, rest, hTokens, hCall⟩ : ∃ head rest, ofSource "Shift 1" = head :: rest ∧
      Instruction.ofStatement changed head (ofSource "Shift 1").getLast? rest =
        .ok (.call called body, []) :=
    ⟨(ofSource "Shift 1").head!, (ofSource "Shift 1").tail, by decide +kernel⟩
  obtain ⟨first, others, hCons, hSet⟩ : ∃ first others, body = first :: others ∧
      Instruction.ofStatement called first body.getLast? others = .ok (.bind "X" (.number "4"), []) :=
    ⟨body.head!, body.tail, by decide +kernel⟩
  have hVerify : Token.verify (ofSource "Shift 1") = .ok () := by decide +kernel
  clear_value body
  have hInto : Step (.start (ofSource "Shift 1") (.initial changed))
      (.start body (.initial called)) :=
    .into ⟨head, rest, hTokens, hCall⟩ (.body called body)
  have hOver : Step (.start body (.initial called)) ⟨.initial child, [], body.getLast?⟩ :=
    .past ⟨first, others, hCons, hSet⟩ rfl
  have hPasses : Passes [ofSource "Set X 5 Pen Z", ofSource "Shift 1"] (.initial scope)
      ⟨.initial child, [], body.getLast?⟩ :=
    .later hFailed (.now hVerify (.tail (.single hInto) hOver))
  exact ⟨hScope, hPasses, (passes_isConsistent hScope hPasses).1⟩

end DesignByNumbers.Program
