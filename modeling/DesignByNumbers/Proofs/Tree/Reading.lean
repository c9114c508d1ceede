import DesignByNumbers.Instruction.Extent
import DesignByNumbers.Proofs.Expression
import DesignByNumbers.Proofs.NameMap
import DesignByNumbers.Proofs.Tree.Evaluation

/-!
# Proofs.Tree.Reading — statements are read as their trees say

In a scope that gives names the meanings that they have for trees, the text of a statement is
read to its end, and its instruction is what the tree evaluates to. Blocks are kept as tokens:
nothing is asked of the tree of a block.

* `Represents` — what a scope has to do with the scope of a tree.
* `takes_nextValue`, `takes_arguments`, `takes_block` — the parts of a statement.
* `takes_ofColour`, …, `takes_ofCall` — one lemma for each form of a statement.
-/

namespace DesignByNumbers

open Token (Reader Content Takes content)

namespace Tree

/-- A meaning of a name is that for a tree: the same plain numeral, or the same command with
the tokens of its body. -/
inductive Binding.Represents : Binding → DesignByNumbers.Binding → Prop
  | number {text : String} (hPlain : Numeral.isPlain text = true) :
      Represents (.number text) (.number text)
  | command {name : String} {parameters : List String} {tree : List Statement}
      {body : List Token} (hBody : body.map content = programContents tree) :
      Represents (.command ⟨name, parameters, tree⟩) (.command ⟨name, parameters, body⟩)

/-- The names of a scope have the meanings that they have for a tree, in the same order. -/
def Represents (names : Scope) (scope : DesignByNumbers.Scope) : Prop :=
  NameMap.Related Eq Binding.Represents names scope.bindings

namespace Represents

variable {names : Scope} {scope : DesignByNumbers.Scope}

/-! ## Meanings -/

theorem get? (h : Represents names scope) (name : String) :
    Option.Rel Binding.Represents (names.get? name) (scope.get? name) :=
  NameMap.Related.get? NameMap.biUnique_eq h rfl

theorem contains (h : Represents names scope) (name : String) :
    scope.contains name = names.contains name :=
  NameMap.Related.contains NameMap.biUnique_eq h rfl

theorem numberText? (h : Represents names scope) : scope.numberText? = names.numberText? := by
  funext name
  have hGet := h.get? name
  rw [DesignByNumbers.Scope.numberText?, Scope.numberText?]
  generalize names.get? name = meaning at hGet
  generalize scope.get? name = meaning' at hGet
  cases hGet with
  | none => rfl
  | some hBinding => cases hBinding <;> rfl

theorem command (h : Represents names scope) {name : String} {command : Command}
    (hCommand : names.get? name = some (.command command)) :
    ∃ body, scope.get? name = some (.command ⟨command.name, command.parameters, body⟩) ∧
      body.map content = programContents command.body := by
  have hGet := h.get? name
  rw [hCommand] at hGet
  generalize scope.get? name = meaning at hGet
  cases hGet with
  | some hBinding =>
    cases hBinding with
    | command hBody => exact ⟨_, rfl, hBody⟩

theorem isPlain (h : Represents names scope) : scope.IsPlain := by
  have hEntries : ∀ {entries : List (String × Binding)}
      {entries' : List (String × DesignByNumbers.Binding)},
      NameMap.EntriesRelated Eq Binding.Represents entries entries' →
      ∀ name text, (name, DesignByNumbers.Binding.number text) ∈ entries' →
        Numeral.isPlain text = true := by
    intro entries entries' hRelated
    induction hRelated with
    | nil => simp
    | @cons entry entry' _ _ hEntry _ ih =>
      obtain ⟨key, meaning⟩ := entry
      obtain ⟨key', meaning'⟩ := entry'
      intro name text hMem
      rcases List.mem_cons.mp hMem with hHead | hTail
      · cases hHead
        cases hEntry.2 with
        | number hPlain => exact hPlain
      · exact ih name text hTail
  exact hEntries h

/-- What a tree evaluates to is a plain numeral. -/
theorem isPlain_value (h : Represents names scope) {tree : Value} {text : String}
    (hValue : names.value? tree = some text) : Numeral.isPlain text = true := by
  rw [Scope.value?, ← h.numberText?] at hValue
  exact Value.isPlain_of_eval h.isPlain.numberText? hValue

theorem assign (h : Represents names scope) (name : String) {text : String}
    (hPlain : Numeral.isPlain text = true) :
    Represents (names.assign name text) (scope.bind name (.number text)) :=
  NameMap.Related.insert NameMap.biUnique_eq h rfl (.number hPlain)

theorem define (h : Represents names scope) (name : String) (parameters : List String)
    {tree : List Statement} {body : List Token} (hBody : body.map content = programContents tree) :
    Represents (names.insert name (.command ⟨name, parameters, tree⟩))
      (scope.bind name (.command ⟨name, parameters, body⟩)) :=
  NameMap.Related.insert NameMap.biUnique_eq h rfl (.command hBody)

/-- The scope of a call is derived without an objection. -/
theorem withArguments (h : Represents names scope) (command : Command) {texts : List String}
    (hTexts : ∀ text ∈ texts, Numeral.isPlain text = true) :
    ∃ child, scope.deriveChild (.ofList (command.parameters.zip
        (texts.map DesignByNumbers.Binding.number))) = .ok child ∧
      Represents (names.withArguments command texts) child := by
  -- parameters and texts are paired up to the end of the shorter list in both scopes
  have hZip : NameMap.EntriesRelated Eq Binding.Represents
      (command.parameters.zip (texts.map Binding.number))
      (command.parameters.zip (texts.map DesignByNumbers.Binding.number)) := by
    induction command.parameters generalizing texts with
    | nil => exact .nil
    | cons parameter others ih =>
      cases texts with
      | nil => exact .nil
      | cons text texts =>
        obtain ⟨hText, hRest⟩ := List.forall_mem_cons.mp hTexts
        exact .cons ⟨rfl, .number hText⟩ (ih hRest)
  have hChild : Represents (names.withArguments command texts) ⟨scope.bindings.insertAll
      (NameMap.ofList (command.parameters.zip
        (texts.map DesignByNumbers.Binding.number))).toList⟩ :=
    NameMap.Related.insertAll NameMap.biUnique_eq h
      (NameMap.Related.ofList NameMap.biUnique_eq hZip)
  refine ⟨_, ?_, hChild⟩
  rw [DesignByNumbers.Scope.deriveChild, DesignByNumbers.Scope.ofBindings,
    DesignByNumbers.Scope.defect?_eq_none_iff.mpr hChild.isPlain]

end Represents

/-! ## Reading values -/

section Reading

variable {names : Scope} {scope : DesignByNumbers.Scope}

theorem contents_length_pos {tree : Value} {stretch : List Token}
    (h : stretch.map content = tree.contents) : 0 < stretch.length := by
  obtain ⟨head, behind, rfl, -⟩ := Expression.exists_cons_of_contents h
  exact Nat.succ_pos behind.length

/-- The text of a tree that evaluates is read as a number with that text. -/
theorem takes_nextValue (hScope : Represents names scope) {tree : Value} {stretch : List Token}
    {text : String} (hContents : stretch.map content = tree.contents)
    (hValue : names.value? tree = some text) :
    ∃ number : Token, number.text = text ∧ Takes (Expression.nextValue scope) stretch number := by
  obtain ⟨head, behind, rfl, -⟩ := Expression.exists_cons_of_contents hContents
  rw [Scope.value?, ← hScope.numberText?] at hValue
  obtain ⟨number, hText, hTakes⟩ := Expression.takes_value hScope.isPlain hContents hValue
  exact ⟨number, hText, Takes.afterNext hTakes⟩

theorem integer_eq_ok {number : Token} (hPlain : Numeral.isPlain number.text = true) {value : Int}
    (h : Numeral.bounded? number.text = some value) : number.integer = .ok value := by
  rw [Numeral.bounded?] at h
  split at h
  next hDigits =>
    cases h
    exact (Token.integer_eq_ok_iff hPlain).mpr ⟨hDigits, rfl⟩
  next => cases h

theorem drawable_eq_ok (hScope : Represents names scope) {tree : Value} {number : Token}
    (h : names.drawable? tree = some number.text) : number.drawable = .ok number.text := by
  obtain ⟨text, hValue, h⟩ := Option.bind_eq_some_iff.mp h
  obtain ⟨value, hBounded, hText⟩ := Option.bind_eq_some_iff.mp h
  cases hText
  exact Except.bind_eq_ok_iff.mpr
    ⟨value, integer_eq_ok (hScope.isPlain_value hValue) hBounded, rfl⟩

theorem value?_of_drawable? {tree : Value} {text : String} (h : names.drawable? tree = some text) :
    names.value? tree = some text := by
  obtain ⟨text', hValue, h⟩ := Option.bind_eq_some_iff.mp h
  obtain ⟨-, -, hText⟩ := Option.bind_eq_some_iff.mp h
  cases hText
  exact hValue

theorem takes_nextDrawable (hScope : Represents names scope) {tree : Value} {stretch : List Token}
    {text : String} (hContents : stretch.map content = tree.contents)
    (hText : names.drawable? tree = some text) :
    Takes (Expression.nextDrawable scope) stretch text := by
  obtain ⟨number, rfl, hTakes⟩ := takes_nextValue hScope hContents (value?_of_drawable? hText)
  have hNumber := drawable_eq_ok hScope hText
  refine hTakes.bind_nil ?_
  rw [hNumber]
  exact Token.takes_pure number.text

/-- The arguments of a call are read one for each parameter. -/
theorem takes_arguments (hScope : Represents names scope) {parameters : List String}
    {trees : List Value} {stretch : List Token} {texts : List String}
    (hContents : stretch.map content = trees.flatMap Value.contents)
    (hCount : trees.length = parameters.length)
    (hTexts : List.Forall₂ (fun tree text => names.value? tree = some text) trees texts) :
    Takes (Instruction.arguments scope parameters) stretch
      (parameters.zip (texts.map DesignByNumbers.Binding.number)) := by
  -- each parameter takes the first of the values that are left
  induction hTexts generalizing parameters stretch with
  | nil =>
    obtain rfl := List.length_eq_zero_iff.mp hCount.symm
    obtain rfl := List.map_eq_nil_iff.mp hContents
    exact Token.takes_pure []
  | @cons tree text trees texts hText _ ih =>
    cases parameters with
    | nil => cases hCount
    | cons parameter others =>
      obtain ⟨first, behind, rfl, hFirst, hBehind⟩ := List.map_eq_append_iff.mp hContents
      obtain ⟨number, rfl, hTakes⟩ := takes_nextValue hScope hFirst hText
      have hRest := ih hBehind (Nat.succ.inj hCount)
      exact hTakes.bind (hRest.bind_nil (Token.takes_pure _))

/-- A block is read as it stands. -/
theorem takes_block {tree : List Statement} {stretch : List Token}
    (hContents : stretch.map content = block (programContents tree)) :
    ∃ body, body.map content = programContents tree ∧ Takes Block.extract stretch body ∧
      2 ≤ stretch.length := by
  obtain ⟨opening, behind, rfl, hOpening, hBehind⟩ := List.map_eq_cons_iff.mp hContents
  obtain ⟨body, behindBody, rfl, hBody, hEnd⟩ := List.map_eq_append_iff.mp hBehind
  obtain ⟨closing, rest, rfl, hClosing, hRest⟩ := List.map_eq_cons_iff.mp hEnd
  obtain rfl := List.map_eq_nil_iff.mp hRest
  refine ⟨body, hBody, Block.takes_extract hOpening hClosing ?_, by simp⟩
  rw [hBody]
  exact isText_programContents tree

end Reading

/-! ## Reading statements -/

section Statements

variable {names : Scope} {scope : DesignByNumbers.Scope} {stretch : List Token}

theorem ofText?_text (keyword : Keyword) : Keyword.ofText? keyword.text = some keyword := by
  cases keyword with
  | check comparison => cases comparison <;> decide
  | _ => decide

/-- The statement of a keyword is read by the reader of the keyword. -/
theorem takes_ofKeyword (keyword : Keyword) {head : Token} {instruction : Instruction}
    (hHead : head.content = .word keyword.text)
    (h : Takes (Instruction.ofKeyword scope keyword head) stretch instruction) :
    Takes (Instruction.ofStatement scope head) stretch instruction := by
  have hKind : head.kind = .word := Token.kind_of_content hHead
  have hText : head.text = keyword.text := Token.text_of_content hHead
  rw [Instruction.ofStatement, if_neg (by simp [hKind]), hText, ofText?_text]
  exact h

theorem takes_ofColour (hScope : Represents names scope) (construct : Construct)
    (hLength : construct.minimumLength ≤ 1) (op : String → DrawOp) (head : Token) {tree : Value}
    {colour : String} (hContents : stretch.map content = tree.contents)
    (hColour : names.drawable? tree = some colour) :
    Takes (Instruction.ofColour scope construct op head) stretch (.draw (op colour)) := by
  have hEnough := Nat.le_trans hLength (contents_length_pos hContents)
  refine construct.takes_require head hEnough ?_
  exact (takes_nextDrawable hScope hContents hColour).bind_nil (Token.takes_pure _)

theorem takes_ofLine (hScope : Represents names scope) (head : Token)
    {left bottom right top : Value} {x0 y0 x1 y1 : String}
    (hContents : stretch.map content =
      left.contents ++ (bottom.contents ++ (right.contents ++ top.contents)))
    (hLeft : names.drawable? left = some x0) (hBottom : names.drawable? bottom = some y0)
    (hRight : names.drawable? right = some x1) (hTop : names.drawable? top = some y1) :
    Takes (Instruction.ofLine scope head) stretch (.draw (.line x0 y0 x1 y1)) := by
  obtain ⟨first, behindFirst, rfl, hFirst, hBehindFirst⟩ := List.map_eq_append_iff.mp hContents
  obtain ⟨second, behindSecond, rfl, hSecond, hBehindSecond⟩ :=
    List.map_eq_append_iff.mp hBehindFirst
  obtain ⟨third, fourth, rfl, hThird, hFourth⟩ := List.map_eq_append_iff.mp hBehindSecond
  refine Construct.line.takes_require head ?_ ?_
  · have hFirstLength := contents_length_pos hFirst
    have hSecondLength := contents_length_pos hSecond
    have hThirdLength := contents_length_pos hThird
    have hFourthLength := contents_length_pos hFourth
    simp only [Construct.minimumLength, List.length_append]
    omega
  · refine (takes_nextDrawable hScope hFirst hLeft).bind ?_
    refine (takes_nextDrawable hScope hSecond hBottom).bind ?_
    refine (takes_nextDrawable hScope hThird hRight).bind ?_
    exact (takes_nextDrawable hScope hFourth hTop).bind_nil (Token.takes_pure _)

theorem takes_ofDot (hScope : Represents names scope) {opening : Token}
    {column row tree : Value} {x y colour : String}
    (hContents : stretch.map content =
      column.contents ++ (row.contents ++ .symbol "]" :: tree.contents))
    (hColumn : names.drawable? column = some x) (hRow : names.drawable? row = some y)
    (hColour : names.drawable? tree = some colour) :
    Takes (Instruction.ofDot scope opening) stretch (.draw (.point x y colour)) := by
  obtain ⟨first, behindFirst, rfl, hFirst, hBehindFirst⟩ := List.map_eq_append_iff.mp hContents
  obtain ⟨second, behindSecond, rfl, hSecond, hBehindSecond⟩ :=
    List.map_eq_append_iff.mp hBehindFirst
  obtain ⟨closing, third, rfl, hClosing, hThird⟩ := List.map_eq_cons_iff.mp hBehindSecond
  obtain ⟨xNumber, rfl, hTakesX⟩ := takes_nextValue hScope hFirst (value?_of_drawable? hColumn)
  obtain ⟨yNumber, rfl, hTakesY⟩ := takes_nextValue hScope hSecond (value?_of_drawable? hRow)
  obtain ⟨colourNumber, rfl, hTakesColour⟩ :=
    takes_nextValue hScope hThird (value?_of_drawable? hColour)
  -- the numbers are checked once the colour is read too
  have hDot : Instruction.dot xNumber yNumber colourNumber =
      .ok (.draw (.point xNumber.text yNumber.text colourNumber.text)) := by
    rw [Instruction.dot, drawable_eq_ok hScope hColumn, drawable_eq_ok hScope hRow,
      drawable_eq_ok hScope hColour]
    rfl
  refine Construct.dot.takes_require opening ?_ ?_
  · have hFirstLength := contents_length_pos hFirst
    have hSecondLength := contents_length_pos hSecond
    have hThirdLength := contents_length_pos hThird
    simp only [Construct.minimumLength, List.length_append, List.length_cons]
    omega
  · refine hTakesX.bind (hTakesY.bind (Takes.afterNext ?_))
    rw [if_pos (Token.isSymbol_iff.mpr hClosing)]
    refine hTakesColour.bind_nil ?_
    rw [hDot]
    exact Token.takes_pure _

theorem takes_dotOfAssignment {head opening : Token} {instruction : Instruction}
    (hOpening : opening.content = .symbol "[") (hLength : 0 < stretch.length)
    (h : Takes (Instruction.ofDot scope opening) stretch instruction) :
    Takes (Instruction.ofAssignment scope head) (opening :: stretch) instruction := by
  refine Construct.assignment.takes_require head (Nat.succ_le_succ hLength) (Takes.afterNext ?_)
  rw [if_pos (Token.isSymbol_iff.mpr hOpening)]
  exact h

/-- An assignment of a value, in any scope in which that is read. -/
theorem takes_assign (head : Token) {target number : Token} {name : String}
    (hTarget : target.content = .word name) (hValue : Takes (Expression.nextValue scope) stretch number) :
    Takes (Instruction.ofAssignment scope head) (target :: stretch)
      (.bind name (.number number.text)) := by
  have hLength := (Expression.isLocal_nextValue scope).length_le (hValue none [])
  rw [List.append_nil, List.length_nil] at hLength
  have hNotOpening : ¬ target.isSymbol "[" = true := by
    rw [Token.isSymbol_iff, hTarget]
    simp
  have hKind : target.kind = .word := Token.kind_of_content hTarget
  have hText : target.text = name := Token.text_of_content hTarget
  refine Construct.assignment.takes_require head (Nat.succ_le_succ hLength) (Takes.afterNext ?_)
  rw [if_neg hNotOpening, if_pos hKind, hText]
  exact hValue.bind_nil (Token.takes_pure _)

theorem takes_ofAssignment (hScope : Represents names scope) (head : Token) {target : Token}
    {name text : String} {tree : Value} (hTarget : target.content = .word name)
    (hContents : stretch.map content = tree.contents) (hValue : names.value? tree = some text) :
    Takes (Instruction.ofAssignment scope head) (target :: stretch) (.bind name (.number text)) := by
  obtain ⟨number, rfl, hTakes⟩ := takes_nextValue hScope hContents hValue
  exact takes_assign head hTarget hTakes

/-- Two values and a block, as a loop and a comparison have them. -/
theorem takes_twoValues (hScope : Represents names scope) {left right : Value}
    {body : List Statement} {leftText rightText : String}
    (hContents : stretch.map content =
      left.contents ++ (right.contents ++ block (programContents body)))
    (hLeft : names.value? left = some leftText) (hRight : names.value? right = some rightText) :
    ∃ (leftNumber rightNumber : Token) (tokens : List Token),
      leftNumber.text = leftText ∧ rightNumber.text = rightText ∧
      tokens.map content = programContents body ∧ 4 ≤ stretch.length ∧
      ∀ {α : Type} (result : Token → Token → List Token → Reader α) (value : α),
        Takes (result leftNumber rightNumber tokens) [] value →
        Takes (do
          let leftNumber ← Expression.nextValue scope
          let rightNumber ← Expression.nextValue scope
          let tokens ← Block.extract
          result leftNumber rightNumber tokens) stretch value := by
  obtain ⟨first, behindFirst, rfl, hFirst, hBehindFirst⟩ := List.map_eq_append_iff.mp hContents
  obtain ⟨second, third, rfl, hSecond, hThird⟩ := List.map_eq_append_iff.mp hBehindFirst
  obtain ⟨leftNumber, hLeftText, hTakesLeft⟩ := takes_nextValue hScope hFirst hLeft
  obtain ⟨rightNumber, hRightText, hTakesRight⟩ := takes_nextValue hScope hSecond hRight
  obtain ⟨tokens, hTokens, hTakesBlock, hLength⟩ := takes_block hThird
  refine ⟨leftNumber, rightNumber, tokens, hLeftText, hRightText, hTokens, ?_, ?_⟩
  · have hFirstLength := contents_length_pos hFirst
    have hSecondLength := contents_length_pos hSecond
    simp only [List.length_append]
    omega
  · intro α result value hResult
    exact hTakesLeft.bind (hTakesRight.bind (hTakesBlock.bind_nil hResult))

theorem takes_ofLoop (hScope : Represents names scope) (head : Token) {counter : Token}
    {name : String} {start finish : Value} {body : List Statement} {first last : Int}
    (hCounter : counter.content = .word name)
    (hContents : stretch.map content =
      start.contents ++ (finish.contents ++ block (programContents body)))
    (hStart : names.integer? start = some first) (hFinish : names.integer? finish = some last) :
    ∃ tokens, tokens.map content = programContents body ∧
      Takes (Instruction.ofLoop scope head) (counter :: stretch) (.loop name first last tokens) := by
  obtain ⟨startText, hStartText, hFirst⟩ := Option.bind_eq_some_iff.mp hStart
  obtain ⟨finishText, hFinishText, hLast⟩ := Option.bind_eq_some_iff.mp hFinish
  obtain ⟨startNumber, finishNumber, tokens, rfl, rfl, hTokens, hLength, hTakes⟩ :=
    takes_twoValues hScope hContents hStartText hFinishText
  have hLoop : Instruction.loopBetween name startNumber finishNumber tokens =
      .ok (.loop name first last tokens) := by
    rw [Instruction.loopBetween, integer_eq_ok (hScope.isPlain_value hStartText) hFirst,
      integer_eq_ok (hScope.isPlain_value hFinishText) hLast]
    rfl
  have hKind : counter.kind = .word := Token.kind_of_content hCounter
  have hText : counter.text = name := Token.text_of_content hCounter
  refine ⟨tokens, hTokens, ?_⟩
  refine Construct.loop.takes_require head (Nat.succ_le_succ hLength) (Takes.afterNext ?_)
  rw [if_pos hKind, hText]
  refine hTakes (fun start finish body => .ofExcept (Instruction.loopBetween name start finish body))
    _ ?_
  rw [hLoop]
  exact Token.takes_pure _

theorem holds_eq_ok {comparison : Comparison} {left right : Token}
    (hLeft : Numeral.isPlain left.text = true) (hRight : Numeral.isPlain right.text = true)
    {held : Bool} (h : comparison.holds? left.text right.text = some held) :
    comparison.holds left right = .ok held := by
  -- two comparisons convert their operands, and differ in the test alone
  have hIntegers : ∀ test : Int → Int → Bool,
      ((Numeral.bounded? left.text).bind fun leftValue =>
        (Numeral.bounded? right.text).bind fun rightValue => some (test leftValue rightValue)) =
          some held →
      (left.integer >>= fun leftValue => right.integer >>= fun rightValue =>
        (.ok (test leftValue rightValue) : Except Diagnostic Bool)) = .ok held := by
    intro test hTest
    obtain ⟨leftValue, hLeftValue, hTest⟩ := Option.bind_eq_some_iff.mp hTest
    obtain ⟨rightValue, hRightValue, hTest⟩ := Option.bind_eq_some_iff.mp hTest
    cases hTest
    rw [integer_eq_ok hLeft hLeftValue, integer_eq_ok hRight hRightValue]
    rfl
  cases comparison with
  | same =>
    cases h
    rfl
  | notSame =>
    cases h
    rfl
  | smaller => exact hIntegers (fun leftValue rightValue => decide (leftValue < rightValue)) h
  | notSmaller =>
    have hNot : ∀ leftValue rightValue : Int,
        decide (rightValue ≤ leftValue) = !decide (leftValue < rightValue) := by
      intro leftValue rightValue
      rw [← decide_not, decide_eq_decide]
      omega
    simp only [Comparison.holds?, hNot] at h
    exact hIntegers (fun leftValue rightValue => !decide (leftValue < rightValue)) h

theorem takes_ofCheck (hScope : Represents names scope) (head : Token) {comparison : Comparison}
    {mark : Token} {left right : Value} {body : List Statement} {leftText rightText : String}
    {held : Bool} (hMark : mark.content = .symbol "?")
    (hContents : stretch.map content =
      left.contents ++ (right.contents ++ block (programContents body)))
    (hLeft : names.value? left = some leftText) (hRight : names.value? right = some rightText)
    (hHolds : comparison.holds? leftText rightText = some held) :
    ∃ tokens, tokens.map content = programContents body ∧
      Takes (Instruction.ofCheck scope comparison head) (mark :: stretch) (.check held tokens) := by
  obtain ⟨leftNumber, rightNumber, tokens, rfl, rfl, hTokens, hLength, hTakes⟩ :=
    takes_twoValues hScope hContents hLeft hRight
  have hCheck : Instruction.guarded comparison leftNumber rightNumber tokens =
      .ok (.check held tokens) := by
    rw [Instruction.guarded,
      holds_eq_ok (hScope.isPlain_value hLeft) (hScope.isPlain_value hRight) hHolds]
    rfl
  refine ⟨tokens, hTokens, ?_⟩
  refine (Construct.check comparison).takes_require head (Nat.succ_le_succ hLength)
    (Takes.afterNext ?_)
  rw [if_pos (Token.isSymbol_iff.mpr hMark)]
  refine hTakes (fun left right body => .ofExcept (Instruction.guarded comparison left right body))
    _ ?_
  rw [hCheck]
  exact Token.takes_pure _

/-- The parameters of a command end at the brace behind them. -/
theorem splitParameters_words (hScope : Represents names scope) (head : Token)
    {parameters : List Word} {words : List Token} {opening : Token}
    (hWords : words.map content = parameters.map fun parameter => .word parameter.val)
    (hOpening : opening.content = .symbol "\x7b")
    (hFresh : ∀ parameter ∈ parameters, names.contains parameter.val = false)
    (rest : List Token) :
    Instruction.splitParameters scope head (words ++ opening :: rest) =
      .ok (parameters.map Subtype.val, opening :: rest) := by
  induction parameters generalizing words with
  | nil =>
    obtain rfl := List.map_eq_nil_iff.mp hWords
    rw [List.nil_append, Instruction.splitParameters, if_pos (Token.isSymbol_iff.mpr hOpening)]
    rfl
  | cons parameter others ih =>
    obtain ⟨word, words, rfl, hWord, hWords⟩ := List.map_eq_cons_iff.mp hWords
    obtain ⟨hParameter, hOthers⟩ := List.forall_mem_cons.mp hFresh
    have hNotOpening : ¬ word.isSymbol "\x7b" = true := by
      rw [Token.isSymbol_iff, hWord]
      simp
    have hKind : word.kind = .word := Token.kind_of_content hWord
    have hText : word.text = parameter.val := Token.text_of_content hWord
    have hNotTaken : ¬ scope.contains parameter.val = true := by
      rw [hScope.contains, hParameter]
      decide
    rw [List.cons_append, Instruction.splitParameters, if_neg hNotOpening, if_neg (by simp [hKind]),
      hText, if_neg hNotTaken, ih hWords hOthers]
    rfl

theorem takes_ofDefinition (hScope : Represents names scope) (head : Token) {name : Token}
    {word : Word} {parameters : List Word} {body : List Statement}
    (hName : name.content = .word word.val)
    (hContents : stretch.map content =
      (parameters.map fun parameter => .word parameter.val) ++ block (programContents body))
    (hKeyword : Keyword.ofText? word.val = none) (hFresh : names.contains word.val = false)
    (hParameters : ∀ parameter ∈ parameters, names.contains parameter.val = false) :
    ∃ tokens, tokens.map content = programContents body ∧
      Takes (Instruction.ofDefinition scope head) (name :: stretch)
        (.bind word.val (.command ⟨word.val, parameters.map Subtype.val, tokens⟩)) := by
  obtain ⟨words, behindWords, rfl, hWords, hBlock⟩ := List.map_eq_append_iff.mp hContents
  obtain ⟨tokens, hTokens, hTakesBlock, hLength⟩ := takes_block hBlock
  -- the block starts with the brace at which the parameters end
  obtain ⟨opening, inner, rfl, hOpening, -⟩ := List.map_eq_cons_iff.mp hBlock
  have hSignature : Takes (Instruction.signature scope head) (words ++ opening :: inner)
      (parameters.map Subtype.val, tokens) := by
    intro last rest
    have hSplit := splitParameters_words hScope head hWords hOpening hParameters (inner ++ rest)
    rw [List.append_assoc, List.cons_append, Instruction.signature, hSplit]
    exact Reader.bind_eq_ok_iff.mpr ⟨tokens, rest, hTakesBlock last rest, rfl⟩
  have hKind : name.kind = .word := Token.kind_of_content hName
  have hText : name.text = word.val := Token.text_of_content hName
  have hNotTaken : ¬ scope.contains word.val = true := by
    rw [hScope.contains, hFresh]
    decide
  refine ⟨tokens, hTokens, ?_⟩
  refine Construct.definition.takes_require head ?_ (Takes.afterNext ?_)
  · simp only [Construct.minimumLength, List.length_cons, List.length_append] at hLength ⊢
    omega
  · rw [if_neg (by simp [hKind]), hText, if_neg (by simp [hKeyword]), if_neg hNotTaken]
    exact hSignature.bind_nil (Token.takes_pure _)

theorem takes_ofCall (hScope : Represents names scope) (head : Token) {command : Command}
    (body : List Token) {trees : List Value} {texts : List String}
    (hContents : stretch.map content = trees.flatMap Value.contents)
    (hCount : trees.length = command.parameters.length)
    (hTexts : List.Forall₂ (fun tree text => names.value? tree = some text) trees texts) :
    ∃ child, Represents (names.withArguments command texts) child ∧
      Takes (Instruction.ofCall scope ⟨command.name, command.parameters, body⟩ head) stretch
        (.call child body) := by
  have hPlain : ∀ text ∈ texts, Numeral.isPlain text = true := by
    clear hContents hCount
    induction hTexts with
    | nil => simp
    | cons hValue _ ih => exact List.forall_mem_cons.mpr ⟨hScope.isPlain_value hValue, ih⟩
  obtain ⟨child, hDerive, hChild⟩ := hScope.withArguments command hPlain
  have hCall : Instruction.callWith scope ⟨command.name, command.parameters, body⟩
      (command.parameters.zip (texts.map DesignByNumbers.Binding.number)) =
        .ok (.call child body) := by
    rw [Instruction.callWith, hDerive]
    rfl
  have hArguments := takes_arguments hScope hContents hCount hTexts
  -- no argument is empty, so that the count which is asked for beforehand is there
  have hLength := (Instruction.isLocal_arguments scope command.parameters).length_le
    (hArguments none [])
  refine ⟨child, hChild, Instruction.takes_requireArguments head ?_ ?_⟩
  · simpa using hLength
  · refine hArguments.bind_nil ?_
    rw [hCall]
    exact Token.takes_pure _

end Statements

end Tree

end DesignByNumbers
