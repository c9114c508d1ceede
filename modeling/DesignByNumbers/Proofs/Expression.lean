import DesignByNumbers.Expression.Extent
import DesignByNumbers.Proofs.NameMap
import DesignByNumbers.Proofs.Reader
import DesignByNumbers.Proofs.Tree
import DesignByNumbers.Token.Lexer

/-!
# Proofs.Expression — reading a value is evaluating its tree

The reader of values accepts the texts of trees and nothing else, and yields what the tree
evaluates to.

* `exists_tree_of_value` — what is read is the text of a tree, with the number of the tree.
* `takes_value` — the text of a tree that evaluates is read to its end, whatever follows.
* `takes_number`, `takes_name`, `takes_negated` — single values, whatever else a scope knows.
* `read_value_iff` — both at a position of a token sequence, with the integer of the result.
-/

namespace DesignByNumbers

open Token (Reader next Takes content)
open DesignByNumbers.Tree (Value calculate)

namespace Token

/-- A plain numeral within the digit limit is converted, and no other one. -/
theorem integer_eq_ok_iff {token : Token} (h : Numeral.isPlain token.text = true) {value : Int} :
    token.integer = .ok value ↔
      Numeral.digitCount token.text ≤ Numeral.digitLimit ∧ Numeral.integer token.text = value := by
  rw [Token.integer, Numeral.parse?_of_isPlain h]
  split
  next value' hValue =>
    split at hValue
    next hDigits =>
      cases hValue
      simp [hDigits]
    next => cases hValue
  next hValue =>
    split at hValue
    next => cases hValue
    next hDigits => simp [hDigits]

end Token

namespace Scope

theorem number_eq_ok_iff {scope : Scope} {token : Token} {text : String} :
    scope.number token = .ok text ↔ scope.numberText? token.text = some text := by
  rw [Scope.number, Scope.numberText?]
  cases scope.get? token.text with
  | none => simp
  | some binding => cases binding <;> simp

/-- The numbers that the names of a plain scope mean are plain numerals. -/
theorem IsPlain.numberText? {scope : Scope} (h : scope.IsPlain) (name text : String)
    (hText : scope.numberText? name = some text) : Numeral.isPlain text = true := by
  rw [Scope.numberText?] at hText
  split at hText
  next text' hGet =>
    cases hText
    exact h name text (NameMap.mem_toList_of_get? hGet)
  next => cases hText

/-- No meaning is refused where all numbers are plain numerals. -/
theorem defect?_eq_none_iff {entries : List (String × Binding)} :
    defect? entries = none ↔
      ∀ name text, (name, Binding.number text) ∈ entries → Numeral.isPlain text = true := by
  fun_induction defect? entries with
  | case1 => simp
  | case2 name text rest hPlain ih =>
    rw [ih]
    constructor
    · intro h name' text' hMem
      rcases List.mem_cons.mp hMem with hHead | hTail
      · cases hHead
        exact hPlain
      · exact h name' text' hTail
    · intro h name' text' hMem
      exact h name' text' (List.mem_cons_of_mem _ hMem)
  | case3 name text rest hPlain =>
    constructor
    · simp
    · intro h
      exact absurd (h name text (List.mem_cons_self ..)) hPlain
  | case4 rest name command ih =>
    rw [ih]
    simp

end Scope

namespace Expression

variable {scope : Scope}

/-! ## Operations -/

theorem ofToken?_eq_some_iff {token : Token} {operation : Operation} :
    Operation.ofToken? token = some operation ↔ token.content = .symbol operation.symbol := by
  constructor
  · intro h
    rw [Operation.ofToken?] at h
    split at h
    next hSymbol => cases h; exact Token.isSymbol_iff.mp hSymbol
    split at h
    next hSymbol => cases h; exact Token.isSymbol_iff.mp hSymbol
    split at h
    next hSymbol => cases h; exact Token.isSymbol_iff.mp hSymbol
    split at h
    next hSymbol => cases h; exact Token.isSymbol_iff.mp hSymbol
    next => cases h
  · intro h
    have hSymbol : ∀ text, token.isSymbol text = decide (operation.symbol = text) := by
      intro text
      rw [Bool.eq_iff_iff, Token.isSymbol_iff, h, decide_eq_true_eq]
      simp
    -- the four symbols differ, so that the order of the tests does not matter
    cases operation <;> simp [Operation.ofToken?, hSymbol, Operation.symbol]

/-- The operation between two plain numerals has the text of the calculation. -/
theorem evaluate_eq_ok_iff {left operator right : Token} (hLeft : Numeral.isPlain left.text = true)
    (hRight : Numeral.isPlain right.text = true) {number : Token} :
    evaluate left operator right = .ok number ↔
      ∃ operation text, operator.content = .symbol operation.symbol ∧
        calculate operation left.text right.text = some text ∧ number = left.withNumber text := by
  constructor
  · intro h
    -- what the evaluation asks for, one test after another, is what `calculate` asks for
    simp only [evaluate] at h
    split at h
    next operation hOperation =>
      obtain ⟨leftValue, hLeftValue, h⟩ := Except.bind_eq_ok_iff.mp h
      obtain ⟨rightValue, hRightValue, h⟩ := Except.bind_eq_ok_iff.mp h
      obtain ⟨hLeftDigits, rfl⟩ := (Token.integer_eq_ok_iff hLeft).mp hLeftValue
      obtain ⟨hRightDigits, rfl⟩ := (Token.integer_eq_ok_iff hRight).mp hRightValue
      split at h
      next result hResult =>
        split at h
        next text hText =>
          cases h
          obtain ⟨hDigits, rfl⟩ := Numeral.print?_eq_some_iff_digitCount.mp hText
          refine ⟨operation, _, ofToken?_eq_some_iff.mp hOperation, ?_, rfl⟩
          exact Tree.Value.calculate_eq_some_iff.mpr
            ⟨hLeftDigits, hRightDigits, result, hResult, hDigits, rfl⟩
        next => cases h
      next => cases h
    next => cases h
  · rintro ⟨operation, text, hOperator, hText, rfl⟩
    obtain ⟨hLeftDigits, hRightDigits, result, hResult, hDigits, rfl⟩ :=
      Tree.Value.calculate_eq_some_iff.mp hText
    have hPrint := Numeral.print?_eq_some_iff_digitCount.mpr ⟨hDigits, rfl⟩
    have hLeftValue := (Token.integer_eq_ok_iff hLeft).mpr ⟨hLeftDigits, rfl⟩
    have hRightValue := (Token.integer_eq_ok_iff hRight).mpr ⟨hRightDigits, rfl⟩
    simp only [evaluate, ofToken?_eq_some_iff.mpr hOperator]
    refine Except.bind_eq_ok_iff.mpr ⟨_, hLeftValue, ?_⟩
    refine Except.bind_eq_ok_iff.mpr ⟨_, hRightValue, ?_⟩
    simp only [hResult, hPrint]
    rfl

/-! ## Texts of trees -/

/-- A stretch of tokens is the text of a tree that evaluates to the text of a number token. -/
def Denotes (scope : Scope) (stretch : List Token) (number : Token) : Prop :=
  ∃ tree : Value, stretch.map content = tree.contents ∧
    tree.eval scope.numberText? = some number.text

theorem denotes_number {head : Token} (hKind : head.kind = .number)
    (hHead : head.isWellFormed = true) : Denotes scope [head] head := by
  rw [Token.isWellFormed, hKind] at hHead
  refine ⟨.number ⟨head.text, hHead⟩, ?_, rfl⟩
  rw [List.map_singleton, content, hKind, Value.contents]

theorem denotes_name {head : Token} {text : String} (hKind : head.kind = .word)
    (hHead : head.isWellFormed = true) (hText : scope.numberText? head.text = some text) :
    Denotes scope [head] (head.withNumber text) := by
  rw [Token.isWellFormed, hKind] at hHead
  refine ⟨.name ⟨head.text, hHead⟩, ?_, hText⟩
  rw [List.map_singleton, content, hKind, Value.contents]

theorem Denotes.negation {minus number : Token} {stretch : List Token}
    (hMinus : minus.content = .symbol "-") (h : Denotes scope stretch number) :
    Denotes scope (minus :: stretch) { number with text := Numeral.negate number.text } := by
  obtain ⟨tree, hContents, hEval⟩ := h
  refine ⟨.negation tree, ?_, ?_⟩
  · rw [List.map_cons, hContents, hMinus, Value.contents]
  · rw [Value.eval, hEval]
    rfl

theorem Denotes.calculation {opening operator closing left right : Token}
    {leftStretch rightStretch : List Token} {operation : Operation} {text : String}
    (hOpening : opening.content = .symbol "(")
    (hOperator : operator.content = .symbol operation.symbol)
    (hClosing : closing.content = .symbol ")") (hLeft : Denotes scope leftStretch left)
    (hRight : Denotes scope rightStretch right)
    (hText : calculate operation left.text right.text = some text) :
    Denotes scope (opening :: (leftStretch ++ operator :: (rightStretch ++ [closing])))
      (left.withNumber text) := by
  obtain ⟨leftTree, hLeftContents, hLeftEval⟩ := hLeft
  obtain ⟨rightTree, hRightContents, hRightEval⟩ := hRight
  refine ⟨.calculation leftTree operation rightTree, ?_, ?_⟩
  · simp only [List.map_cons, List.map_append, List.map_nil, hLeftContents, hRightContents,
      hOpening, hOperator, hClosing, Value.contents]
  · rw [Value.eval, hLeftEval, hRightEval]
    exact hText

theorem Denotes.isPlain (hScope : scope.IsPlain) {stretch : List Token} {number : Token}
    (h : Denotes scope stretch number) : Numeral.isPlain number.text = true := by
  obtain ⟨tree, -, hEval⟩ := h
  exact Value.isPlain_of_eval hScope.numberText? hEval

/-! ## What is read is the text of a tree -/

/-- A reader of values takes texts of trees and yields their numbers. -/
def IsSound (scope : Scope) (inner : Token → Reader Token) : Prop :=
  ∀ head last rest number following, (∀ token ∈ head :: rest, token.isWellFormed = true) →
    inner head last rest = .ok (number, following) →
    ∃ stretch, rest = stretch ++ following ∧ Denotes scope (head :: stretch) number

section Sound

variable {inner : Token → Reader Token} {last : Option Token} {rest following : List Token}
  {number : Token}

theorem IsSound.operandWith (hInner : IsSound scope inner)
    (hRest : ∀ token ∈ rest, token.isWellFormed = true)
    (h : operandWith inner last rest = .ok (number, following)) :
    ∃ stretch, rest = stretch ++ following ∧ Denotes scope stretch number := by
  obtain ⟨head, between, hHead, hBehind⟩ := Reader.bind_eq_ok_iff.mp h
  obtain rfl := Token.next_eq_ok_iff.mp hHead
  split at hBehind
  · cases hBehind
  · obtain ⟨stretch, rfl, hDenotes⟩ := hInner head last between number following hRest hBehind
    exact ⟨head :: stretch, rfl, hDenotes⟩

theorem IsSound.calculationWith (hScope : scope.IsPlain) (hInner : IsSound scope inner)
    {opening : Token} (hOpening : opening.content = .symbol "(")
    (hRest : ∀ token ∈ rest, token.isWellFormed = true)
    (h : calculationWith inner opening last rest = .ok (number, following)) :
    ∃ stretch, rest = stretch ++ following ∧ Denotes scope (opening :: stretch) number := by
  obtain ⟨_, between, hRequire, hOperands⟩ := Reader.bind_eq_ok_iff.mp h
  obtain rfl := Construct.eq_of_require hRequire
  -- each part is read from what the part before it left
  obtain ⟨left, behindLeft, hLeft, hBehindLeft⟩ := Reader.bind_eq_ok_iff.mp hOperands
  obtain ⟨leftStretch, rfl, hLeftTree⟩ := hInner.operandWith hRest hLeft
  obtain ⟨operator, behindOperator, hOperator, hBehindOperator⟩ :=
    Reader.bind_eq_ok_iff.mp hBehindLeft
  obtain rfl := Token.next_eq_ok_iff.mp hOperator
  obtain ⟨right, behindRight, hRight, hBehindRight⟩ := Reader.bind_eq_ok_iff.mp hBehindOperator
  obtain ⟨rightStretch, rfl, hRightTree⟩ := hInner.operandWith
    (fun token hToken => hRest token (by simp [hToken])) hRight
  obtain ⟨closing, behindClosing, hClosing, hResult⟩ := Reader.bind_eq_ok_iff.mp hBehindRight
  obtain rfl := Token.next_eq_ok_iff.mp hClosing
  split at hResult
  next hParenthesis =>
    cases hEvaluate : evaluate left operator right with
    | error diagnostic =>
      rw [hEvaluate] at hResult
      cases hResult
    | ok result =>
      rw [hEvaluate] at hResult
      cases hResult
      -- both operands are plain numerals, being texts of trees
      obtain ⟨operation, text, hSymbol, hText, rfl⟩ :=
        (evaluate_eq_ok_iff (hLeftTree.isPlain hScope) (hRightTree.isPlain hScope)).mp hEvaluate
      refine ⟨leftStretch ++ operator :: (rightStretch ++ [closing]), by simp, ?_⟩
      exact Denotes.calculation hOpening hSymbol (Token.isSymbol_iff.mp hParenthesis) hLeftTree
        hRightTree hText
  next => cases hResult

theorem IsSound.compoundWith (hScope : scope.IsPlain) (hInner : IsSound scope inner) :
    IsSound scope (compoundWith inner) := by
  intro head last rest number following hTokens h
  have hRest := fun token hToken => hTokens token (List.mem_cons_of_mem head hToken)
  rw [Expression.compoundWith] at h
  split at h
  next hMinus =>
    obtain ⟨operand, between, hOperand, hBehind⟩ := Reader.bind_eq_ok_iff.mp h
    obtain rfl := Token.next_eq_ok_iff.mp hOperand
    obtain ⟨inside, behind, hInside, hResult⟩ := Reader.bind_eq_ok_iff.mp hBehind
    cases hResult
    obtain ⟨stretch, rfl, hDenotes⟩ := hInner operand last between inside following hRest hInside
    exact ⟨operand :: stretch, rfl, hDenotes.negation (Token.isSymbol_iff.mp hMinus)⟩
  next =>
    split at h
    next hOpening =>
      exact hInner.calculationWith hScope (Token.isSymbol_iff.mp hOpening) hRest h
    next => cases h

theorem IsSound.valueWith (hScope : scope.IsPlain) (hInner : IsSound scope inner) :
    IsSound scope (valueWith scope inner) := by
  intro head last rest number following hTokens h
  have hHead := hTokens head (List.mem_cons_self ..)
  cases hKind : head.kind with
  | number =>
    rw [Expression.valueWith, hKind] at h
    cases h
    exact ⟨[], rfl, denotes_number hKind hHead⟩
  | word =>
    rw [Expression.valueWith, hKind] at h
    obtain ⟨text, between, hText, hResult⟩ := Reader.bind_eq_ok_iff.mp h
    cases hNumber : scope.number head with
    | error diagnostic =>
      rw [hNumber] at hText
      cases hText
    | ok text' =>
      rw [hNumber] at hText
      cases hText
      cases hResult
      exact ⟨[], rfl, denotes_name hKind hHead (Scope.number_eq_ok_iff.mp hNumber)⟩
  | symbol =>
    rw [Expression.valueWith, hKind] at h
    exact hInner.compoundWith hScope head last rest number following hTokens h
  | unknown name =>
    rw [Expression.valueWith, hKind] at h
    exact hInner.compoundWith hScope head last rest number following hTokens h

/-- What is read as a value is the text of a tree, and the number is that of the tree. -/
theorem exists_tree_of_value (hScope : scope.IsPlain) : IsSound scope (value scope) := by
  -- by induction on the bound for the nesting, whatever its tokens are
  have hWithin : ∀ bound, IsSound scope (valueWithin scope bound) := by
    intro bound
    induction bound with
    | nil =>
      intro head last rest number following _ h
      cases h
    | cons token bound ih => exact ih.valueWith hScope
  intro head last rest number following hTokens h
  exact hWithin (head :: rest) head last rest number following hTokens h

end Sound

/-! ## The text of a tree is read -/

/-- The text of a tree starts with a token that may start an operand. -/
theorem exists_cons_of_contents {stretch : List Token} {tree : Value}
    (h : stretch.map content = tree.contents) :
    ∃ head behind, stretch = head :: behind ∧ isMisplacedSymbol head = false := by
  cases stretch with
  | nil => exact absurd h.symm tree.contents_ne_nil
  | cons head behind =>
    refine ⟨head, behind, rfl, ?_⟩
    cases tree <;>
      simp only [List.map_cons, content, Value.contents, List.cons.injEq,
        Token.Content.mk.injEq] at h <;>
      simp [isMisplacedSymbol, h.1.1, h.1.2]

theorem takes_operandWith {inner : Token → Reader Token} {head number : Token}
    {stretch : List Token} (hHead : isMisplacedSymbol head = false)
    (h : Takes (inner head) stretch number) :
    Takes (operandWith inner) (head :: stretch) number := by
  refine Takes.afterNext ?_
  rw [hHead]
  exact h

theorem takes_calculationWith {inner : Token → Reader Token}
    {opening operator closing left right number : Token} {leftStretch rightStretch : List Token}
    (hLeft : Takes (operandWith inner) leftStretch left) (hLeftLength : 0 < leftStretch.length)
    (hRight : Takes (operandWith inner) rightStretch right) (hRightLength : 0 < rightStretch.length)
    (hClosing : closing.isSymbol ")" = true) (hNumber : evaluate left operator right = .ok number) :
    Takes (calculationWith inner opening) (leftStretch ++ operator :: (rightStretch ++ [closing]))
      number := by
  refine Construct.calculation.takes_require opening ?_ ?_
  · simp only [Construct.minimumLength, List.length_append, List.length_cons, List.length_nil]
    omega
  · refine hLeft.bind (Takes.afterNext (hRight.bind (Takes.afterNext ?_)))
    rw [if_pos hClosing, hNumber]
    exact Token.takes_pure number

/-- The text of a tree that evaluates is read to its end, and the number is that of the tree. -/
theorem takes_value (hScope : scope.IsPlain) {tree : Value} {head : Token} {stretch : List Token}
    {text : String} (hContents : (head :: stretch).map content = tree.contents)
    (hEval : tree.eval scope.numberText? = some text) :
    ∃ number, number.text = text ∧ Takes (value scope head) stretch number := by
  induction tree generalizing head stretch text with
  | number digits =>
    simp only [List.map_cons, Value.contents, List.cons.injEq, List.map_eq_nil_iff, content,
      Token.Content.mk.injEq] at hContents
    obtain ⟨⟨hKind, hText⟩, rfl⟩ := hContents
    cases hEval
    refine ⟨head, hText, ?_⟩
    rw [value_eq, valueWith, hKind]
    exact Token.takes_pure head
  | name word =>
    simp only [List.map_cons, Value.contents, List.cons.injEq, List.map_eq_nil_iff, content,
      Token.Content.mk.injEq] at hContents
    obtain ⟨⟨hKind, hText⟩, rfl⟩ := hContents
    have hNumber : scope.number head = .ok text := by
      rw [Scope.number_eq_ok_iff, hText]
      exact hEval
    refine ⟨head.withNumber text, rfl, ?_⟩
    rw [value_eq, valueWith, hKind, hNumber]
    exact Token.takes_pure _
  | negation operand ih =>
    simp only [List.map_cons, Value.contents, List.cons.injEq] at hContents
    obtain ⟨hHead, hStretch⟩ := hContents
    obtain ⟨inner, behind, rfl, -⟩ := exists_cons_of_contents hStretch
    obtain ⟨innerText, hInner, hText⟩ := Option.bind_eq_some_iff.mp hEval
    cases hText
    obtain ⟨number, rfl, hTakes⟩ := ih hStretch hInner
    have hKind : head.kind = .symbol := Token.kind_of_content hHead
    refine ⟨{ number with text := Numeral.negate number.text }, rfl, ?_⟩
    rw [value_eq, valueWith, hKind, compoundWith, if_pos (Token.isSymbol_iff.mpr hHead)]
    exact Takes.afterNext (hTakes.bind_nil (Token.takes_pure _))
  | calculation left operation right ihLeft ihRight =>
    simp only [List.map_cons, Value.contents, List.cons.injEq] at hContents
    obtain ⟨hHead, hStretch⟩ := hContents
    -- the tokens fall into those of the operands and the symbols around them
    obtain ⟨leftStretch, behindLeft, rfl, hLeft, hBehindLeft⟩ := List.map_eq_append_iff.mp hStretch
    obtain ⟨operator, behindOperator, rfl, hOperator, hBehindOperator⟩ :=
      List.map_eq_cons_iff.mp hBehindLeft
    obtain ⟨rightStretch, behindRight, rfl, hRight, hBehindRight⟩ :=
      List.map_eq_append_iff.mp hBehindOperator
    obtain ⟨closing, none, rfl, hClosing, hNone⟩ := List.map_eq_cons_iff.mp hBehindRight
    obtain rfl := List.map_eq_nil_iff.mp hNone
    -- no operand is empty, and none starts with a symbol that is refused
    obtain ⟨leftHead, leftBehind, rfl, hLeftHead⟩ := exists_cons_of_contents hLeft
    obtain ⟨rightHead, rightBehind, rfl, hRightHead⟩ := exists_cons_of_contents hRight
    obtain ⟨leftText, hLeftEval, hEvalRest⟩ := Option.bind_eq_some_iff.mp hEval
    obtain ⟨rightText, hRightEval, hText⟩ := Option.bind_eq_some_iff.mp hEvalRest
    obtain ⟨leftNumber, rfl, hTakesLeft⟩ := ihLeft hLeft hLeftEval
    obtain ⟨rightNumber, rfl, hTakesRight⟩ := ihRight hRight hRightEval
    have hLeftPlain := Value.isPlain_of_eval hScope.numberText? hLeftEval
    have hRightPlain := Value.isPlain_of_eval hScope.numberText? hRightEval
    have hNumber : evaluate leftNumber operator rightNumber = .ok (leftNumber.withNumber text) :=
      (evaluate_eq_ok_iff hLeftPlain hRightPlain).mpr ⟨operation, text, hOperator, hText, rfl⟩
    have hKind : head.kind = .symbol := Token.kind_of_content hHead
    have hNotMinus : ¬ head.isSymbol "-" = true := by
      rw [Token.isSymbol_iff, hHead]
      decide
    refine ⟨leftNumber.withNumber text, rfl, ?_⟩
    rw [value_eq, valueWith, hKind, compoundWith, if_neg hNotMinus,
      if_pos (Token.isSymbol_iff.mpr hHead)]
    exact takes_calculationWith (takes_operandWith hLeftHead hTakesLeft) (by simp)
      (takes_operandWith hRightHead hTakesRight) (by simp) (Token.isSymbol_iff.mpr hClosing) hNumber

/-! ## Values in any scope -/

/-- A number is read as it stands. -/
theorem takes_number (scope : Scope) {number : Token} (hKind : number.kind = .number) :
    Takes (nextValue scope) [number] number := by
  refine Takes.afterNext ?_
  rw [value_eq, valueWith, hKind]
  exact Token.takes_pure number

/-- A name is read as the number that it means. -/
theorem takes_name {name : Token} {text : String} (hKind : name.kind = .word)
    (hNumber : scope.number name = .ok text) :
    Takes (nextValue scope) [name] (name.withNumber text) := by
  refine Takes.afterNext ?_
  rw [value_eq, valueWith, hKind, hNumber]
  exact Token.takes_pure _

/-- A minus sign in front of a value negates the number that is read. -/
theorem takes_negated {minus number : Token} {stretch : List Token}
    (hMinus : minus.content = .symbol "-") (h : Takes (nextValue scope) stretch number) :
    Takes (nextValue scope) (minus :: stretch)
      { number with text := Numeral.negate number.text } := by
  have hKind : minus.kind = .symbol := Token.kind_of_content hMinus
  have hValue : value scope minus = do
      let operand ← next
      let number ← value scope operand
      return { number with text := Numeral.negate number.text } := by
    rw [value_eq, valueWith, hKind]
    exact if_pos (Token.isSymbol_iff.mpr hMinus)
  refine Takes.afterNext ?_
  rw [hValue]
  intro last rest
  -- the first token of the value is read apart from the others
  obtain ⟨operand, between, hOperand, hNumber⟩ := Reader.bind_eq_ok_iff.mp (h last rest)
  rw [Reader.bind_apply_of_ok _ hOperand, Reader.bind_apply_of_ok _ hNumber]
  rfl

/-! ## Reading at a position -/

/-- A tree stands between two positions of a token sequence. -/
def Occurs (tree : Value) (tokens : List Token) (p q : Nat) : Prop :=
  p ≤ q ∧ q ≤ tokens.length ∧ ((tokens.drop p).take (q - p)).map content = tree.contents

theorem occurs_iff {tree : Value} {tokens : List Token} {p q : Nat} (hp : p ≤ tokens.length) :
    Occurs tree tokens p q ↔ ∃ stretch following, tokens.drop p = stretch ++ following ∧
      stretch.map content = tree.contents ∧ q = p + stretch.length := by
  constructor
  · rintro ⟨hpq, hq, hContents⟩
    refine ⟨(tokens.drop p).take (q - p), (tokens.drop p).drop (q - p),
      (List.take_append_drop ..).symm, hContents, ?_⟩
    rw [List.length_take, List.length_drop]
    omega
  · rintro ⟨stretch, following, hDrop, hContents, rfl⟩
    have hLength := congrArg List.length hDrop
    rw [List.length_drop, List.length_append] at hLength
    refine ⟨by omega, by omega, ?_⟩
    rw [hDrop, Nat.add_sub_cancel_left, List.take_left]
    exact hContents

/-- At most one tree stands at a position. -/
theorem Occurs.unique {tree tree' : Value} {tokens : List Token} {p q q' : Nat}
    (h : Occurs tree tokens p q) (h' : Occurs tree' tokens p q') : tree = tree' ∧ q = q' := by
  have hp : p ≤ tokens.length := Nat.le_trans h.1 h.2.1
  obtain ⟨stretch, following, hDrop, hContents, rfl⟩ := (occurs_iff hp).mp h
  obtain ⟨stretch', following', hDrop', hContents', rfl⟩ := (occurs_iff hp).mp h'
  -- both trees are written at the start of what is behind the position
  have hBoth : tree.contents ++ following.map content = tree'.contents ++ following'.map content := by
    rw [← hContents, ← hContents', ← List.map_append, ← List.map_append, ← hDrop, hDrop']
  obtain ⟨rfl, -⟩ := Value.append_injective hBoth
  have hLength := congrArg List.length (hContents.trans hContents'.symm)
  rw [List.length_map, List.length_map] at hLength
  exact ⟨rfl, by rw [hLength]⟩

theorem read_eq_ok_iff {α : Type} {reader : Reader α} {tokens : List Token} {p q : Nat} {value : α} :
    (Cursor.mk tokens p).read reader = .ok (value, ⟨tokens, q⟩) ↔
      ∃ following, reader tokens.getLast? (tokens.drop p) = .ok (value, following) ∧
        q = tokens.length - following.length := by
  rw [Cursor.read]
  cases hReader : reader (Cursor.mk tokens p).last (Cursor.mk tokens p).rest with
  | error diagnostic =>
    have hNone : reader tokens.getLast? (tokens.drop p) = .error diagnostic := hReader
    simp [hNone]
  | ok pair =>
    have hSome : reader tokens.getLast? (tokens.drop p) = .ok pair := hReader
    rw [hSome]
    simp only [Except.ok.injEq, Prod.mk.injEq, Cursor.before, Cursor.mk.injEq, true_and]
    constructor
    · rintro ⟨rfl, rfl⟩
      exact ⟨pair.2, rfl, rfl⟩
    · rintro ⟨following, rfl, rfl⟩
      exact ⟨rfl, rfl⟩

/-- Reading at a position succeeds with a text and a position behind it exactly when a tree
that evaluates to the text stands between the two. No other tree stands there, and a text
within the digit limit is converted to the integer of the tree. -/
theorem read_value_iff {tokens : List Token} (hVerified : Token.verify tokens = .ok ())
    (hScope : scope.IsPlain) {p : Nat} (hp : p < tokens.length) :
    (∀ text q,
      (∃ number, (Cursor.mk tokens (p + 1)).read (value scope tokens[p]) = .ok (number, ⟨tokens, q⟩) ∧
          number.text = text) ↔
        ∃ tree, Occurs tree tokens p q ∧ tree.eval scope.numberText? = some text) ∧
    (∀ tree tree' q q', Occurs tree tokens p q → Occurs tree' tokens p q' → tree = tree' ∧ q = q') ∧
    (∀ tree text, Value.eval scope.numberText? tree = some text →
      Numeral.digitCount text ≤ Numeral.digitLimit →
      ∃ value, Value.integer? scope.numberText? tree = some value ∧
        Numeral.parse? text = some value) := by
  have hDrop : tokens.drop p = tokens[p] :: tokens.drop (p + 1) := List.drop_eq_getElem_cons hp
  refine ⟨fun text q => ⟨?_, ?_⟩, fun tree tree' q q' => Occurs.unique, ?_⟩
  · -- what is read is the text of a tree, from the position on
    rintro ⟨number, hRead, rfl⟩
    obtain ⟨following, hValue, rfl⟩ := read_eq_ok_iff.mp hRead
    have hTokens : ∀ token ∈ tokens[p] :: tokens.drop (p + 1), token.isWellFormed = true := by
      intro token hToken
      rw [← hDrop] at hToken
      exact Token.isWellFormed_of_verify hVerified token (List.mem_of_mem_drop hToken)
    obtain ⟨stretch, hStretch, tree, hContents, hEval⟩ :=
      exists_tree_of_value hScope tokens[p] _ _ number following hTokens hValue
    refine ⟨tree, (occurs_iff (Nat.le_of_lt hp)).mpr ?_, hEval⟩
    refine ⟨tokens[p] :: stretch, following, by rw [hDrop, hStretch, List.cons_append],
      hContents, ?_⟩
    have hLength := congrArg List.length hStretch
    rw [List.length_drop, List.length_append] at hLength
    rw [List.length_cons]
    omega
  · -- the text of a tree is read to its end, whatever follows it
    rintro ⟨tree, hOccurs, hEval⟩
    obtain ⟨stretch, following, hStretch, hContents, rfl⟩ :=
      (occurs_iff (Nat.le_of_lt hp)).mp hOccurs
    obtain ⟨head, behind, rfl, -⟩ := exists_cons_of_contents hContents
    rw [hDrop, List.cons_append, List.cons.injEq] at hStretch
    obtain ⟨rfl, hBehind⟩ := hStretch
    obtain ⟨number, hText, hTakes⟩ := takes_value hScope hContents hEval
    refine ⟨number, read_eq_ok_iff.mpr ⟨following, ?_, ?_⟩, hText⟩
    · rw [hBehind]
      exact hTakes tokens.getLast? following
    · have hLength := congrArg List.length hBehind
      rw [List.length_drop, List.length_append] at hLength
      rw [List.length_cons]
      omega
  · intro tree text hEval hDigits
    refine ⟨Numeral.integer text, Value.integer?_of_eval hScope.numberText? hEval, ?_⟩
    rw [Numeral.parse?_of_isPlain (Value.isPlain_of_eval hScope.numberText? hEval), if_pos hDigits]

/-- A sum with a negated name, between other tokens. -/
theorem read_value_of_sum :
    let tokens := Token.ofSource "Set X (5 + -X) Set"
    let scope : Scope := ⟨.ofList [("X", .number "3")]⟩
    ∃ number, (Cursor.mk tokens 3).read (value scope tokens[2]) = .ok (number, ⟨tokens, 8⟩) ∧
      number.text = "2" := by
  have hScope : Scope.IsPlain ⟨.ofList [("X", .number "3")]⟩ := by
    intro name text hEntry
    have hOnly : (name, Binding.number text) = ("X", .number "3") := List.mem_singleton.mp hEntry
    cases hOnly
    decide +kernel
  have hTree : Value.eval (Scope.numberText? ⟨.ofList [("X", .number "3")]⟩)
      (.calculation (.number ⟨"5", by decide +kernel⟩) .add
        (.negation (.name ⟨"X", by decide +kernel⟩))) = some "2" := by
    decide +kernel
  refine ((read_value_iff (by decide +kernel) hScope (by decide +kernel)).1 "2" 8).mpr ?_
  exact ⟨_, ⟨by decide, by decide +kernel, by decide +kernel⟩, hTree⟩

end Expression

end DesignByNumbers
