import DesignByNumbers.Expression
import DesignByNumbers.Proofs.Likeness
import DesignByNumbers.Proofs.Reader

/-!
# Proofs.Likeness.Reading — texts that are alike are read alike

Two readers are alike when on texts that are alike they read values that go together and leave
texts that are alike, or report diagnostics that are alike. Every reader is put together from
smaller ones, and so are the proofs.

* `readerLike_bind` — readers put together from readers that are alike are alike.
* `readerLike_value` — values are read alike.
-/

namespace DesignByNumbers.Likeness

open Token (Reader next)
open Expression (valueWith valueWithin value nextValue nextDrawable)

/-- Two readers read values that go together from texts that are alike. -/
def ReaderLike (κ : Likeness) {α α' : Type} (R : α → α' → Prop) (reader : Reader α)
    (reader' : Reader α') : Prop :=
  ∀ last last' rest rest', Option.Rel κ.TokenLike last last' → κ.TokensLike rest rest' →
    κ.ExceptLike (fun pair pair' => R pair.1 pair'.1 ∧ κ.TokensLike pair.2 pair'.2)
      (reader last rest) (reader' last' rest')

variable {κ : Likeness}

/-! ## Ways to put readers together -/

section Readers

variable {α α' β β' : Type} {R : α → α' → Prop} {S : β → β' → Prop}

theorem readerLike_pure {value : α} {value' : α'} (h : R value value') :
    κ.ReaderLike R (pure value) (pure value') :=
  fun _ _ _ _ _ hRest => .ok ⟨h, hRest⟩

theorem readerLike_fail {diagnostic diagnostic' : Diagnostic}
    (h : κ.DiagnosticLike diagnostic diagnostic') :
    κ.ReaderLike R (Reader.fail diagnostic) (Reader.fail diagnostic') :=
  fun _ _ _ _ _ _ => .error h

theorem readerLike_ofExcept {result : Except Diagnostic α} {result' : Except Diagnostic α'}
    (h : κ.ExceptLike R result result') :
    κ.ReaderLike R (Reader.ofExcept result) (Reader.ofExcept result') := by
  cases h with
  | ok hValue => exact readerLike_pure hValue
  | error hDiagnostic => exact readerLike_fail hDiagnostic

theorem readerLike_bind {first : Reader α} {first' : Reader α'} {second : α → Reader β}
    {second' : α' → Reader β'} (hFirst : κ.ReaderLike R first first')
    (hSecond : ∀ value value', R value value' →
      κ.ReaderLike S (second value) (second' value')) :
    κ.ReaderLike S (first >>= second) (first' >>= second') := by
  intro last last' rest rest' hLast hRest
  have hBoth := hFirst last last' rest rest' hLast hRest
  show κ.ExceptLike _ (Reader.bind first second last rest) (Reader.bind first' second' last' rest')
  rw [Reader.bind, Reader.bind]
  generalize first last rest = result at hBoth
  generalize first' last' rest' = result' at hBoth
  cases hBoth with
  | ok hValue => exact hSecond _ _ hValue.1 last last' _ _ hLast hValue.2
  | error hDiagnostic => exact .error hDiagnostic

/-- Readers that are chosen by the same condition. -/
theorem readerLike_ite {c c' : Prop} [Decidable c] [Decidable c'] (hCondition : c' ↔ c)
    {yes no : Reader α} {yes' no' : Reader α'} (hYes : c → κ.ReaderLike R yes yes')
    (hNo : ¬ c → κ.ReaderLike R no no') :
    κ.ReaderLike R (if c then yes else no) (if c' then yes' else no') := by
  by_cases h : c
  · rw [if_pos h, if_pos (hCondition.mpr h)]
    exact hYes h
  · rw [if_neg h, if_neg fun h' => h (hCondition.mp h')]
    exact hNo h

theorem near_like {token token' : Option Token} (h : Option.Rel κ.TokenLike token token')
    (problem : Problem) : κ.DiagnosticLike (.near token problem) (.near token' problem) where
  problem := { category := rfl, same := fun _ => rfl }
  located := by
    cases h with
    | none => exact .none
    | some hToken => exact .some hToken.located

theorem readerLike_next : κ.ReaderLike κ.TokenLike next next := by
  intro last last' rest rest' hLast hRest
  cases hRest with
  | nil => exact .error (near_like hLast .unexpectedEnd)
  | cons hToken hOthers => exact .ok ⟨hToken, hOthers⟩

theorem fewerThan_like {tokens tokens' : List Token} (h : κ.TokensLike tokens tokens')
    (count : Nat) : Token.fewerThan count tokens' = Token.fewerThan count tokens := by
  rw [Bool.eq_iff_iff, Token.fewerThan_iff, Token.fewerThan_iff, h.length_eq]

theorem readerLike_require (construct : Construct) {head head' : Token}
    (hHead : κ.TokenLike head head') :
    κ.ReaderLike (fun _ _ => True) (construct.require head) (construct.require head') := by
  intro last last' rest rest' _ hRest
  rw [Construct.require, Construct.require, fewerThan_like hRest]
  split
  · exact .error (hHead.blame _)
  · exact .ok ⟨trivial, hRest⟩

end Readers

/-! ## Values -/

theorem NumberLike.integer {number number' : Token} (h : κ.NumberLike number number') :
    κ.ExceptLike Eq number.integer number'.integer := by
  rw [Token.integer, Token.integer, h.text]
  cases Numeral.parse? number.text with
  | none => exact .error (h.blame _)
  | some value => exact .ok rfl

theorem NumberLike.drawable {number number' : Token} (h : κ.NumberLike number number') :
    κ.ExceptLike Eq number.drawable number'.drawable := by
  refine h.integer.bind fun _ _ _ => ?_
  rw [h.text]
  exact .ok rfl

theorem TokenLike.ofToken? {token token' : Token} (h : κ.TokenLike token token') :
    Operation.ofToken? token' = Operation.ofToken? token := by
  simp [Operation.ofToken?, h.isSymbol]

/-- A calculation with the same operands has the same result. -/
theorem exceptLike_evaluate {left left' operator operator' right right' : Token}
    (hLeft : κ.NumberLike left left') (hOperator : κ.TokenLike operator operator')
    (hRight : κ.NumberLike right right') :
    κ.ExceptLike κ.NumberLike (Expression.evaluate left operator right)
      (Expression.evaluate left' operator' right') := by
  simp only [Expression.evaluate, hOperator.ofToken?]
  cases Operation.ofToken? operator with
  | none => exact .error (hOperator.blameText .unknownOperation fun _ _ => rfl)
  | some operation =>
    refine hLeft.integer.bind fun leftValue _ hLeftValue => ?_
    refine hRight.integer.bind fun rightValue _ hRightValue => ?_
    subst hLeftValue hRightValue
    cases hResult : operation.result? leftValue rightValue with
    | none => exact .error (hOperator.blame .divisionByZero)
    | some result =>
      cases hText : Numeral.print? result with
      | none =>
        simp only [hText]
        exact .error (hLeft.blame .resultTooLarge)
      | some text =>
        simp only [hText]
        exact .ok { text := rfl, located := hLeft.located }

section Values

variable {scope scope' : Scope} {inner inner' : Token → Reader Token}

/-- Two readers of values are alike, whatever token a value starts with. -/
def ValueReaderLike (κ : Likeness) (inner inner' : Token → Reader Token) : Prop :=
  ∀ head head', κ.TokenLike head head' → κ.ReaderLike κ.NumberLike (inner head) (inner' head')

theorem readerLike_operandWith (h : κ.ValueReaderLike inner inner') :
    κ.ReaderLike κ.NumberLike (Expression.operandWith inner) (Expression.operandWith inner') := by
  refine readerLike_bind readerLike_next fun head head' hHead => ?_
  have hMisplaced : Expression.isMisplacedSymbol head' = Expression.isMisplacedSymbol head := by
    by_cases hWord : head.kind = .word
    · simp [Expression.isMisplacedSymbol, hHead.kind, hWord]
    · simp [Expression.isMisplacedSymbol, hHead.kind, hHead.other hWord]
  refine readerLike_ite (by rw [hMisplaced]) (fun _ => ?_) fun _ => h head head' hHead
  exact readerLike_fail (hHead.blameText .unexpectedToken fun _ _ => rfl)

theorem readerLike_calculationWith (h : κ.ValueReaderLike inner inner') {opening opening' : Token}
    (hOpening : κ.TokenLike opening opening') :
    κ.ReaderLike κ.NumberLike (Expression.calculationWith inner opening)
      (Expression.calculationWith inner' opening') := by
  refine readerLike_bind (readerLike_require .calculation hOpening) fun _ _ _ => ?_
  refine readerLike_bind (readerLike_operandWith h) fun left left' hLeft => ?_
  refine readerLike_bind readerLike_next fun operator operator' hOperator => ?_
  refine readerLike_bind (readerLike_operandWith h) fun right right' hRight => ?_
  refine readerLike_bind readerLike_next fun closing closing' hClosing => ?_
  refine readerLike_ite (by rw [hClosing.isSymbol]) (fun _ => ?_) fun _ => ?_
  · exact readerLike_ofExcept (exceptLike_evaluate hLeft hOperator hRight)
  · exact readerLike_fail (hClosing.blameText .calculationNotClosed fun _ _ => rfl)

theorem readerLike_compoundWith (h : κ.ValueReaderLike inner inner') {head head' : Token}
    (hHead : κ.TokenLike head head') :
    κ.ReaderLike κ.NumberLike (Expression.compoundWith inner head)
      (Expression.compoundWith inner' head') := by
  refine readerLike_ite (by rw [hHead.isSymbol]) (fun _ => ?_) fun _ => ?_
  · refine readerLike_bind readerLike_next fun operand operand' hOperand => ?_
    refine readerLike_bind (h operand operand' hOperand) fun number number' hNumber => ?_
    exact readerLike_pure { text := by rw [hNumber.text], located := hNumber.located }
  · refine readerLike_ite (by rw [hHead.isSymbol]) (fun _ => ?_) fun _ => ?_
    · exact readerLike_calculationWith h hHead
    · exact readerLike_fail (hHead.blameText .notAValue fun _ _ => rfl)

theorem readerLike_valueWith (hScope : κ.ScopeLike scope scope')
    (h : κ.ValueReaderLike inner inner') :
    κ.ValueReaderLike (valueWith scope inner) (valueWith scope' inner') := by
  intro head head' hHead
  have hCompound := readerLike_compoundWith h hHead
  rw [valueWith, valueWith, hHead.kind]
  cases hKind : head.kind with
  | number =>
    exact readerLike_pure { text := hHead.other (by simp [hKind]), located := hHead.located }
  | word =>
    refine readerLike_bind (readerLike_ofExcept (hScope.number hHead hKind)) fun text _ hText => ?_
    subst hText
    exact readerLike_pure (hHead.withNumber text)
  | symbol => exact hCompound
  | unknown _ => exact hCompound

theorem readerLike_value (hScope : κ.ScopeLike scope scope') :
    κ.ValueReaderLike (value scope) (value scope') := by
  -- the bounds for the nesting are alike too, and so equally long
  have hWithin : ∀ bound bound' : List Token, κ.TokensLike bound bound' →
      κ.ValueReaderLike (valueWithin scope bound) (valueWithin scope' bound') := by
    intro bound bound' hBound
    induction hBound with
    | nil =>
      intro head head' hHead
      exact readerLike_fail (hHead.blameText .notAValue fun _ _ => rfl)
    | cons _ _ ih => exact readerLike_valueWith hScope ih
  intro head head' hHead last last' rest rest' hLast hRest
  exact hWithin _ _ (.cons hHead hRest) head head' hHead last last' rest rest' hLast hRest

theorem readerLike_nextValue (hScope : κ.ScopeLike scope scope') :
    κ.ReaderLike κ.NumberLike (nextValue scope) (nextValue scope') :=
  readerLike_bind readerLike_next (readerLike_value hScope)

theorem readerLike_nextDrawable (hScope : κ.ScopeLike scope scope') :
    κ.ReaderLike Eq (nextDrawable scope) (nextDrawable scope') :=
  readerLike_bind (readerLike_nextValue hScope) fun _ _ hNumber =>
    readerLike_ofExcept hNumber.drawable

end Values

end DesignByNumbers.Likeness
