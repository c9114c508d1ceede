import DesignByNumbers.Proofs.Consistency.Run
import DesignByNumbers.Proofs.Numeral.Canonical

/-!
# Proofs.Canonical — the numbers of a run stay canonical

Where the numbers of a program and of the scope that it starts with are canonical, all numbers are
that a run comes to, except that zero may have a minus sign. The sign comes from negating a zero, and
spreads from there through names, arguments and whatever is drawn. Equal integers have therefore the
same text, up to that sign, and texts can be compared in the place of integers.

* `isInvariant_isReduced` — single changes of a state.
* `held_iff` — a comparison of texts is one of integers, up to the sign of zero.
* `numbers_isReduced` — whole runs.
-/

namespace DesignByNumbers

open Token (Reader)

/-- A token is not a number, or its text is canonical. -/
def Token.IsCanonical (token : Token) : Prop :=
  token.kind = .number → Numeral.IsCanonical token.text

/-- A name means a canonical numeral or a negative zero, or a command with canonical numbers in its
body. -/
def Binding.IsReduced : Binding → Prop
  | .number text => Numeral.IsReduced text
  | .command definition => ∀ token ∈ definition.body, token.IsCanonical

/-- All numbers in the scope and all that were drawn are canonical numerals or negative zeros. -/
structure State.IsReduced (state : State) : Prop where
  scope : state.scope.All fun _ binding => binding.IsReduced
  trace : ∀ op ∈ state.trace, ∀ field ∈ op.fields, Numeral.IsReduced field

/-- Values that are made of canonical numbers are canonical, or negative zeros. -/
theorem Numeral.isKind_isReduced : IsKind IsReduced Token.IsCanonical where
  isPlain := IsReduced.isPlain
  negate := IsReduced.negate
  decimal := IsReduced.decimal
  token hToken hKind := .inl (hToken hKind)

namespace State.IsReduced

variable {state : State}

theorem allNumbers (h : state.IsReduced) : state.scope.AllNumbers Numeral.IsReduced :=
  fun name text hEntry => h.scope name (.number text) hEntry

theorem bind (h : state.IsReduced) {name : String} {binding : Binding} (hBinding : binding.IsReduced) :
    (state.bind name binding).IsReduced where
  scope := h.scope.bind hBinding
  trace := h.trace

end State.IsReduced

namespace Program

/-- Canonical numbers stay so in runs of canonical tokens. -/
theorem isInvariant_isReduced :
    IsInvariant Numeral.IsReduced Token.IsCanonical State.IsReduced where
  isNumeral := Numeral.isKind_isReduced
  isPlain hState := hState.allNumbers
  draw hState hOp :=
    { scope := hState.scope
      trace := State.forall_mem_trace_draw hState.trace fun field hField => (hOp field hField).2 }
  assign hState hText := hState.bind hText
  define hState _ _ hBody := hState.bind hBody.tokens
  body hState hCommand := hState.scope.get? hCommand
  enter hState _ hArguments hChild :=
    { scope := hState.scope.deriveChild (fun _ _ hText => hText) hArguments hChild
      trace := hState.trace }
  leave hState hInner :=
    { scope := hState.scope
      trace := hInner.trace }

/-! ## Points -/

section Points

variable {point : Point} (hPoint : point.Holds Token.IsCanonical State.IsReduced)

include hPoint

/-- What is read as a value at a point of a run, in any part of a statement, is reduced. -/
theorem isReduced_of_value {before behind following : List Token} {head number : Token}
    (hRest : point.rest = before ++ head :: behind)
    (hValue : Expression.value point.state.scope head point.last behind = .ok (number, following)) :
    Numeral.IsReduced number.text := by
  obtain ⟨final, hFinal, hLast⟩ := hPoint.last (by simp [hRest])
  have hTokens := hPoint.rest
  rw [hRest] at hTokens
  obtain ⟨hHead, hBehind⟩ := List.forall_mem_cons.mp (List.forall_mem_append.mp hTokens).2
  have hAnswer := Expression.answers_value Numeral.isKind_isReduced hPoint.state.allNumbers hHead
    final behind hFinal (Nat.lt_succ_self behind.length) hBehind
  rw [hLast] at hValue
  rw [hValue] at hAnswer
  cases hAnswer with
  | ok hPair => exact hPair.1.text

theorem isReduced_of_nextValue (before : List Token) {behind following : List Token} {number : Token}
    (hRest : point.rest = before ++ behind)
    (hValue : Expression.nextValue point.state.scope point.last behind = .ok (number, following)) :
    Numeral.IsReduced number.text := by
  obtain ⟨head, between, hHead, hValue⟩ := Reader.bind_eq_ok_iff.mp hValue
  obtain rfl := Token.next_eq_ok_iff.mp hHead
  exact isReduced_of_value hPoint hRest hValue

/-- Two texts are compared, and the block is run exactly when they stand for the same integer, unless
they are zero with and without a sign. -/
theorem held_iff {head mark : Token} {behind following block : List Token} {held : Bool}
    (hRest : point.rest = head :: mark :: behind) (hSame : head.text = "Same")
    (hRead : Instruction.ofStatement point.state.scope head point.last (mark :: behind) =
      .ok (.check held block, following)) :
    ∃ left behindLeft right behindRight,
      Expression.nextValue point.state.scope point.last behind = .ok (left, behindLeft) ∧
      Expression.nextValue point.state.scope point.last behindLeft = .ok (right, behindRight) ∧
      Block.extract point.last behindRight = .ok (block, following) ∧
      (held = true ↔ Numeral.integer left.text = Numeral.integer right.text ∧
        ¬ (left.text = "-0" ∧ right.text = "0" ∨ left.text = "0" ∧ right.text = "-0")) := by
  have hCheck : Instruction.ofCheck point.state.scope .same head point.last (mark :: behind) =
      .ok (.check held block, following) := by
    have hKeyword : Keyword.ofText? head.text = some (.check .same) := by
      rw [hSame]
      decide
    rw [Instruction.ofStatement] at hRead
    split at hRead
    · cases hRead
    · rwa [hKeyword] at hRead
  obtain ⟨left, behindLeft, right, behindRight, block', held', hLeft, hRight, hBlock, hHolds, hEq⟩ :=
    Instruction.exists_of_ofCheck hCheck
  cases hEq
  cases hHolds
  refine ⟨left, behindLeft, right, behindRight, hLeft, hRight, hBlock, ?_⟩
  -- the right operand is read behind the left one
  have hLeftText := isReduced_of_nextValue hPoint [head, mark] hRest hLeft
  obtain ⟨taken, -, rfl, -⟩ := Expression.isLocal_nextValue point.state.scope _ _ _ _ hLeft
  have hRightText :=
    isReduced_of_nextValue hPoint (head :: mark :: taken) (by simp [hRest]) hRight
  rw [decide_eq_true_eq]
  exact hLeftText.eq_iff hRightText

end Points

/-! ## Runs -/

/-- A program with canonical numbers, in a scope with canonical numbers: wherever the run comes to,
at any depth of calls, all numbers in scope, all that were drawn and all that are read as values are
canonical, or a negative zero; and a comparison of two texts for being the same is one of two
integers, except where zero is compared with its negative. However the run ends, the numbers that it
leaves behind are such ones too. -/
theorem numbers_isReduced {tokens : List Token} {scope : Scope}
    (hTokens : ∀ token ∈ tokens, token.kind = .number → Numeral.IsCanonical token.text)
    (hNumbers : ∀ name text, (name, .number text) ∈ scope.bindings.toList → Numeral.IsCanonical text)
    (hBodies : ∀ name command, (name, .command command) ∈ scope.bindings.toList →
      ∀ token ∈ command.body, token.kind = .number → Numeral.IsCanonical token.text) :
    (∀ point, Reaches (.start tokens (.initial scope)) point →
      point.state.IsReduced ∧
      (∀ before head behind number following, point.rest = before ++ head :: behind →
        Expression.value point.state.scope head point.last behind = .ok (number, following) →
        Numeral.IsReduced number.text) ∧
      ∀ head mark behind held block following, point.rest = head :: mark :: behind →
        head.text = "Same" →
        Instruction.ofStatement point.state.scope head point.last (mark :: behind) =
          .ok (.check held block, following) →
        ∃ left behindLeft right behindRight,
          Expression.nextValue point.state.scope point.last behind = .ok (left, behindLeft) ∧
          Expression.nextValue point.state.scope point.last behindLeft = .ok (right, behindRight) ∧
          Block.extract point.last behindRight = .ok (block, following) ∧
          (held = true ↔ Numeral.integer left.text = Numeral.integer right.text ∧
            ¬ (left.text = "-0" ∧ right.text = "0" ∨ left.text = "0" ∧ right.text = "-0"))) ∧
    ∀ outcome, run tokens (.initial scope) = some outcome → outcome.state.IsReduced := by
  have hInitial : (State.initial scope).IsReduced := by
    refine ⟨fun name binding hEntry => ?_, by simp [State.initial]⟩
    cases binding with
    | number text => exact .inl (hNumbers name text hEntry)
    | command command => exact hBodies name command hEntry
  refine ⟨fun point hReaches => ?_, fun outcome hRun => ?_⟩
  · have hPoint := isInvariant_isReduced.holds_of_reaches (Point.holds_start hTokens hInitial) hReaches
    refine ⟨hPoint.state, ?_, ?_⟩
    · exact fun _ _ _ _ _ hRest => isReduced_of_value hPoint hRest
    · exact fun _ _ _ _ _ _ hRest => held_iff hPoint hRest
  · exact (isInvariant_isReduced.keeps_of_run hTokens hInitial hRun).state

/-- A name is given the negative of a difference that is zero, and is then not the same as zero. -/
theorem numbers_isReduced_difference :
    let tokens := Token.ofSource "Set z -(x - 12) Same? z 0 \x7b Paper 50 \x7d"
    let scope : Scope := ⟨.ofList [("x", .number "12")]⟩
    ∃ point, Reaches (.start tokens (.initial scope)) point ∧ point.state.IsReduced ∧
      point.state.scope.numberText? "z" = some "-0" ∧
      ∃ block following, point.Reads (.check false block) following := by
  intro tokens scope
  obtain ⟨head, rest, same, behind, block, hTokens, hCanonical, hSet, hSame⟩ :
      ∃ head rest same behind block, tokens = head :: rest ∧
        (∀ token ∈ tokens, token.kind = .number → Numeral.IsCanonical token.text) ∧
        Instruction.ofStatement scope head tokens.getLast? rest =
          .ok (.bind "z" (.number "-0"), same :: behind) ∧
        Instruction.ofStatement (scope.bind "z" (.number "-0")) same tokens.getLast? behind =
          .ok (.check false block, []) :=
    ⟨tokens.head!, tokens.tail, tokens[8]!, tokens.drop 9, (tokens.drop 13).take 2, by decide +kernel⟩
  have hNumbers : ∀ name text, (name, Binding.number text) ∈ scope.bindings.toList →
      Numeral.IsCanonical text := by
    intro name text hEntry
    cases List.mem_singleton.mp hEntry
    decide +kernel
  have hBodies : ∀ name command, (name, Binding.command command) ∈ scope.bindings.toList →
      ∀ token ∈ command.body, token.kind = .number → Numeral.IsCanonical token.text := by
    intro name command hEntry
    cases List.mem_singleton.mp hEntry
  have hReaches : Reaches (.start tokens (.initial scope))
      ⟨(State.initial scope).bind "z" (.number "-0"), same :: behind, tokens.getLast?⟩ :=
    .single (.past ⟨head, rest, hTokens, hSet⟩ rfl)
  exact ⟨_, hReaches, ((numbers_isReduced hCanonical hNumbers hBodies).1 _ hReaches).1, rfl,
    block, [], same, behind, rfl, hSame⟩

end Program

end DesignByNumbers
