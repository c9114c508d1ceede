import DesignByNumbers.Instruction.Extent
import DesignByNumbers.Proofs.Block
import DesignByNumbers.Proofs.Expression
import DesignByNumbers.Proofs.Report

/-!
# Proofs.Statement — what can be read of a statement

Where all names mean plain numerals, a statement is read as an instruction that can be carried out,
or it is refused at one of its tokens. What an instruction can be is said once and for all: its
numbers can be drawn or bound, its blocks are stretches of the tokens that stand between braces, and
a call runs a command of the scope on numbers. If the numbers in the scope and among the tokens are
of a kind that negation and printing keep to, then so are those of the instruction.

Nothing but the numbers among the tokens has to be well formed for this.

* `Numeral.IsKind` — the kinds of numerals that values keep to.
* `Expression.answers_nextValue` — values are such numerals, at places of tokens.
* `Block.answers_extract` — blocks are stretches of tokens.
* `Instruction.answers_ofStatement` — statements.
-/

namespace DesignByNumbers

open Token (Reader next content)

/-! ## Numbers and operations -/

/-- A text is a plain numeral within the digit limit. -/
def Numeral.IsDrawable (text : String) : Prop :=
  isPlain text = true ∧ digitCount text ≤ digitLimit

namespace DrawOp

/-- The texts of all numbers of an operation. -/
def fields : DrawOp → List String
  | .background colour => [colour]
  | .foreground colour => [colour]
  | .line x0 y0 x1 y1 => [x0, y0, x1, y1]
  | .point x y colour => [x, y, colour]

/-- All numbers of an operation are plain numerals within the digit limit. -/
def IsDrawable (op : DrawOp) : Prop :=
  ∀ field ∈ op.fields, Numeral.IsDrawable field

end DrawOp

/-- A token is not a number, or its text is a plain numeral. -/
def Token.IsNumeral (token : Token) : Prop :=
  token.kind = .number → Numeral.isPlain token.text = true

theorem Token.isNumeral_of_isWellFormed {token : Token} (h : token.isWellFormed = true) :
    token.IsNumeral := by
  intro hKind
  rw [Token.isWellFormed, hKind] at h
  exact Numeral.isPlain_iff.mpr ⟨_, h, .inr String.ofList_toList.symm⟩

/-- The numbers among verified tokens are plain numerals. -/
theorem Token.isNumeral_of_verify {tokens : List Token} (h : Token.verify tokens = .ok ()) :
    ∀ token ∈ tokens, token.IsNumeral :=
  fun token hToken => isNumeral_of_isWellFormed (isWellFormed_of_verify h token hToken)

/-- A kind of texts that all numbers keep to: its texts are plain numerals, and it has the texts of
all integers, the negatives of its texts, and the numbers among the tokens with a property. -/
structure Numeral.IsKind (N : String → Prop) (Q : Token → Prop) : Prop where
  isPlain : ∀ {text}, N text → isPlain text = true
  negate : ∀ {text}, N text → N (negate text)
  decimal : ∀ value, N (decimal value)
  token : ∀ {token}, Q token → token.kind = .number → N token.text

/-- All plain numerals are such a kind. -/
theorem Numeral.isKind_plain {Q : Token → Prop} (hQ : ∀ token, Q token → token.IsNumeral) :
    IsKind (isPlain · = true) Q where
  isPlain hPlain := hPlain
  negate := isPlain_negate
  decimal := isPlain_decimal
  token hToken hKind := hQ _ hToken hKind

/-- All numbers that names mean are of a kind. -/
def Scope.AllNumbers (N : String → Prop) (scope : Scope) : Prop :=
  ∀ name text, (name, .number text) ∈ scope.bindings.toList → N text

/-- A number that was read: a numeral of a kind, at the place of a token with a property. -/
structure IsNumberOf (N : String → Prop) (Q : Token → Prop) (number : Token) : Prop where
  text : N number.text
  placed : ∃ token, Q token ∧ token.location = number.location

/-- A token sequence can stand in a block. -/
def IsBlock (tokens : List Token) : Prop :=
  Block.IsText (tokens.map content)

theorem IsBlock.isWellFormed {block : List Token} (h : IsBlock block) :
    ∀ token ∈ block, token.isWellFormed = true :=
  fun _ hToken => h.wellFormed _ (List.mem_map_of_mem hToken)

/-- A block that was read: tokens with a property, which can stand in a block. -/
structure IsBlockOf (Q : Token → Prop) (block : List Token) : Prop where
  isBlock : IsBlock block
  tokens : ∀ token ∈ block, Q token

section Read

variable {N : String → Prop} {Q : Token → Prop} {count : Nat}

/-! ## Values -/

/-- A problem of the program is reported at the place of a number. -/
theorem IsNumberOf.isReport {number : Token} (h : IsNumberOf N Q number) {problem : Problem}
    (hInput : problem.category = .input) : (Diagnostic.blame number problem).IsReport Q := by
  obtain ⟨token, hToken, hLocation⟩ := h.placed
  have hBlame : Diagnostic.blame number problem = .blame token problem := by
    rw [Diagnostic.blame, Diagnostic.blame, hLocation]
  rw [hBlame]
  exact .input hToken hInput

/-- Another numeral of the kind can take the place of a number. -/
theorem IsNumberOf.withText {number : Token} (h : IsNumberOf N Q number) (kind : Token.Kind)
    {text : String} (hText : N text) : IsNumberOf N Q { number with kind, text } where
  text := hText
  placed := h.placed

theorem isAnswer_integer {number : Token} (h : IsNumberOf N Q number) :
    IsAnswer Q (fun value => number.integer = .ok value) number.integer := by
  cases hInteger : number.integer with
  | ok value => exact .ok rfl
  | error diagnostic =>
    rw [Token.integer] at hInteger
    split at hInteger
    next => cases hInteger
    next =>
      cases hInteger
      exact .error (h.isReport rfl)

/-- A number is checked to be within the digit limit before it is drawn. -/
theorem isAnswer_drawable (hQ : Numeral.IsKind N Q) {number : Token} (h : IsNumberOf N Q number) :
    IsAnswer Q (fun text => Numeral.IsDrawable text ∧ N text) number.drawable := by
  have hPlain := hQ.isPlain h.text
  refine (isAnswer_integer h).bind fun value hValue => .ok ⟨⟨hPlain, ?_⟩, h.text⟩
  exact ((Token.integer_eq_ok_iff hPlain).mp hValue).1

theorem isAnswer_number {scope : Scope} (hScope : scope.AllNumbers N) {head : Token}
    (hHead : Q head) : IsAnswer Q N (scope.number head) := by
  rw [Scope.number]
  cases hGet : scope.get? head.text with
  | none => exact .error (.input hHead rfl)
  | some binding =>
    cases binding with
    | number text => exact .ok (hScope head.text text (NameMap.mem_toList_of_get? hGet))
    | command command => exact .error (.input hHead rfl)

theorem Construct.answers_require (construct : Construct) {head : Token} (hHead : Q head) :
    Answers count Q (fun _ => True) (construct.require head) := by
  intro last rest _ hCount hRest
  rw [Construct.require]
  split
  · exact .error (.input hHead rfl)
  · exact .ok ⟨trivial, hCount, hRest⟩

namespace Expression

theorem isAnswer_evaluate (hQ : Numeral.IsKind N Q) {left operator right : Token} (hLeft : IsNumberOf N Q left)
    (hOperator : Q operator) (hRight : IsNumberOf N Q right) :
    IsAnswer Q (IsNumberOf N Q) (evaluate left operator right) := by
  rw [evaluate]
  cases Operation.ofToken? operator with
  | none => exact .error (.input hOperator rfl)
  | some operation =>
    refine (isAnswer_integer hLeft).bind fun leftValue _ => ?_
    refine (isAnswer_integer hRight).bind fun rightValue _ => ?_
    cases operation.result? leftValue rightValue with
    | none => exact .error (.input hOperator rfl)
    | some value =>
      cases hText : Numeral.print? value with
      | none =>
        simp only [hText]
        exact .error (hLeft.isReport rfl)
      | some text =>
        obtain ⟨-, rfl⟩ := Numeral.print?_eq_some_iff.mp hText
        simp only [hText]
        exact .ok (hLeft.withText .number (hQ.decimal value))

section Inner

variable {inner : Token → Reader Token}
  (hInner : ∀ head, Q head → Answers count Q (IsNumberOf N Q) (inner head))

include hInner

theorem answers_operandWith : Answers (count + 1) Q (IsNumberOf N Q) (operandWith inner) := by
  refine answers_next_bind fun head hHead => ?_
  split
  · exact answers_fail (.input hHead rfl)
  · exact hInner head hHead

theorem answers_calculationWith (hQ : Numeral.IsKind N Q) {opening : Token}
    (hOpening : Q opening) :
    Answers (count + 1) Q (IsNumberOf N Q) (calculationWith inner opening) := by
  refine (Construct.calculation.answers_require hOpening).bind fun _ _ => ?_
  refine (answers_operandWith hInner).bind fun left hLeft => ?_
  refine answers_next.bind fun operator hOperator => ?_
  refine (answers_operandWith hInner).bind fun right hRight => ?_
  refine answers_next.bind fun closing hClosing => ?_
  split
  · exact answers_ofExcept (isAnswer_evaluate hQ hLeft hOperator hRight)
  · exact answers_fail (.input hClosing rfl)

theorem answers_compoundWith (hQ : Numeral.IsKind N Q) {head : Token} (hHead : Q head)
    (hWord : head.kind ≠ .word) (hNumber : head.kind ≠ .number) :
    Answers (count + 1) Q (IsNumberOf N Q) (compoundWith inner head) := by
  unfold compoundWith
  split
  · refine answers_next_bind fun operand hOperand => ?_
    refine (hInner operand hOperand).bind fun number h => answers_pure ?_
    exact h.withText number.kind (hQ.negate h.text)
  next hMinus =>
    split
    · exact answers_calculationWith hInner hQ hHead
    next hOpening =>
      exact answers_fail (.notAValue hHead hWord hNumber (Bool.eq_false_iff.mpr hMinus)
        (Bool.eq_false_iff.mpr hOpening))

theorem answers_valueWith (hQ : Numeral.IsKind N Q) {scope : Scope} (hScope : scope.AllNumbers N)
    {head : Token} (hHead : Q head) :
    Answers (count + 1) Q (IsNumberOf N Q) (valueWith scope inner head) := by
  unfold valueWith
  split
  next hKind => exact answers_pure ⟨hQ.token hHead hKind, head, hHead, rfl⟩
  next =>
    refine (answers_ofExcept (isAnswer_number hScope hHead)).bind fun text hText => ?_
    exact answers_pure ⟨hText, head, hHead, rfl⟩
  next hNumber hWord => exact answers_compoundWith hInner hQ hHead hWord hNumber

end Inner

variable (hQ : Numeral.IsKind N Q) {scope : Scope} (hScope : scope.AllNumbers N)

include hQ hScope

/-- A bound that is longer than what follows is never used up. -/
theorem answers_valueWithin (bound : List Token) {head : Token} (hHead : Q head) :
    Answers bound.length Q (IsNumberOf N Q) (valueWithin scope bound head) := by
  -- every value inside another one starts behind a token, so that a shorter bound does for it
  induction bound generalizing head with
  | nil =>
    intro last rest _ hCount
    exact absurd hCount (Nat.not_lt_zero _)
  | cons _ bound ih =>
    exact answers_valueWith (fun operand hOperand => ih hOperand) hQ hScope hHead

theorem answers_value {head : Token} (hHead : Q head) :
    Answers count Q (IsNumberOf N Q) (value scope head) := by
  intro last rest hLast hCount hRest
  have hAnswer := answers_valueWithin hQ hScope (head :: rest) hHead last rest hLast
    (Nat.lt_succ_self rest.length) hRest
  refine hAnswer.imp fun _ hPair => ⟨hPair.1, ?_, hPair.2.2⟩
  exact Nat.lt_of_le_of_lt (Nat.le_of_lt_succ hPair.2.1) hCount

/-- What is read as a value is a numeral of the kind. -/
theorem answers_nextValue : Answers count Q (IsNumberOf N Q) (nextValue scope) :=
  answers_next.bind fun _ hHead => answers_value hQ hScope hHead

/-- What is read for a drawing can be drawn. -/
theorem answers_nextDrawable :
    Answers count Q (fun text => Numeral.IsDrawable text ∧ N text) (nextDrawable scope) :=
  (answers_nextValue hQ hScope).bind fun _ hNumber => answers_ofExcept (isAnswer_drawable hQ hNumber)

end Expression

/-! ## Blocks -/

theorem isAnswer_verify {tokens : List Token} (h : ∀ token ∈ tokens, Q token) :
    IsAnswer Q (fun _ => ∀ said ∈ tokens.map content, said.isWellFormed = true)
      (Token.verify tokens) := by
  cases hVerify : Token.verify tokens with
  | ok _ => exact .ok (Token.verify_eq_ok_iff.mp hVerify)
  | error diagnostic =>
    rw [Token.verify] at hVerify
    split at hVerify
    next => cases hVerify
    next token hFind =>
      cases hVerify
      have hMalformed : token.isWellFormed = false := by simpa using List.find?_some hFind
      exact .error (.malformed (h token (List.mem_of_find?_eq_some hFind)) hMalformed)

namespace Block

theorem answers_behind {opening : Token} (hOpening : Q opening) :
    Answers count Q (IsBlockOf Q) (behind opening) := by
  intro last rest hLast hCount hRest
  rw [behind]
  cases hSplit : splitAtClose 0 rest with
  | none =>
    -- a block without an end is reported at the last token, or at its brace
    simp only
    split
    · exact .error (.input hOpening rfl)
    · exact .error (.input hLast rfl)
  | some pair =>
    obtain ⟨block, following⟩ := pair
    -- the block, its brace and what follows are all that there was
    obtain ⟨closing, rfl, -⟩ := splitAtClose_local hSplit
    obtain ⟨hBlock, hBehind⟩ := List.forall_mem_append.mp hRest
    have hVerified := isAnswer_verify hBlock
    simp only
    generalize Token.verify block = verified at hVerified
    cases hVerified with
    | error hReport => exact .error hReport
    | ok hText =>
      refine .ok ⟨⟨⟨depthAfter_of_splitAtClose hSplit, hText⟩, hBlock⟩, ?_, ?_⟩
      · show following.length < count
        simp only [List.length_append, List.length_cons] at hCount
        omega
      · exact (List.forall_mem_cons.mp hBehind).2

/-- What is taken out of its braces can stand in a block. -/
theorem answers_extract : Answers count Q (IsBlockOf Q) extract := by
  refine answers_next.bind fun opening hOpening => ?_
  split
  · exact answers_behind hOpening
  · exact answers_fail (.input hOpening rfl)

end Block

/-! ## Statements -/

namespace Instruction

/-- Arguments of a command: numerals of a kind under the names of its parameters. -/
def AreArguments (N : String → Prop) (bindings : List (String × Binding)) : Prop :=
  ∀ parameter binding, (parameter, binding) ∈ bindings → ∃ text, binding = .number text ∧ N text

/-- What a statement of tokens with a property can stand for in a scope whose numbers are of a
kind. -/
inductive IsPossible (N : String → Prop) (Q : Token → Prop) (scope : Scope) : Instruction → Prop
  | draw {op : DrawOp} (hOp : ∀ field ∈ op.fields, Numeral.IsDrawable field ∧ N field) :
      IsPossible N Q scope (.draw op)
  | assign {name text : String} (hText : N text) : IsPossible N Q scope (.bind name (.number text))
  | define (command : Command) (hKeyword : Keyword.ofText? command.name = none)
      (hNew : scope.contains command.name = false) (hBody : IsBlockOf Q command.body) :
      IsPossible N Q scope (.bind command.name (.command command))
  | loop {name : String} {first last : Int} {block : List Token} (hBlock : IsBlockOf Q block) :
      IsPossible N Q scope (.loop name first last block)
  | check {held : Bool} {block : List Token} (hBlock : IsBlockOf Q block) :
      IsPossible N Q scope (.check held block)
  | call {name : String} {command : Command} {bindings : List (String × Binding)} {child : Scope}
      (hCommand : scope.get? name = some (.command command)) (hArguments : AreArguments N bindings)
      (hChild : scope.deriveChild (.ofList bindings) = .ok child) :
      IsPossible N Q scope (.call child command.body)

variable (hQ : Numeral.IsKind N Q) {scope : Scope} (hScope : scope.AllNumbers N) {head : Token}
  (hHead : Q head)

section Checked

variable {left right third : Token} (hLeft : IsNumberOf N Q left) (hRight : IsNumberOf N Q right)

include hLeft hRight

include hQ in
/-- A dot is put together from numbers that can be drawn. -/
theorem isAnswer_dot (hThird : IsNumberOf N Q third) :
    IsAnswer Q (IsPossible N Q scope) (dot left right third) := by
  refine (isAnswer_drawable hQ hLeft).bind fun x hx => ?_
  refine (isAnswer_drawable hQ hRight).bind fun y hy => ?_
  refine (isAnswer_drawable hQ hThird).bind fun colour hColour => .ok (.draw ?_)
  intro field hField
  simp only [DrawOp.fields, List.mem_cons, List.not_mem_nil, or_false] at hField
  rcases hField with rfl | rfl | rfl
  · exact hx
  · exact hy
  · exact hColour

theorem isAnswer_loopBetween {name : String} {block : List Token} (hBlock : IsBlockOf Q block) :
    IsAnswer Q (IsPossible N Q scope) (loopBetween name left right block) := by
  refine (isAnswer_integer hLeft).bind fun _ _ => ?_
  exact (isAnswer_integer hRight).bind fun _ _ => .ok (.loop hBlock)

theorem isAnswer_holds (comparison : Comparison) :
    IsAnswer Q (fun _ => True) (comparison.holds left right) := by
  cases comparison with
  | same => exact .ok trivial
  | notSame => exact .ok trivial
  | smaller =>
    refine (isAnswer_integer hLeft).bind fun _ _ => ?_
    exact (isAnswer_integer hRight).bind fun _ _ => .ok trivial
  | notSmaller =>
    refine (isAnswer_integer hLeft).bind fun _ _ => ?_
    exact (isAnswer_integer hRight).bind fun _ _ => .ok trivial

theorem isAnswer_guarded (comparison : Comparison) {block : List Token} (hBlock : IsBlockOf Q block) :
    IsAnswer Q (IsPossible N Q scope) (guarded comparison left right block) :=
  (isAnswer_holds hLeft hRight comparison).bind fun _ _ => .ok (.check hBlock)

end Checked

include hHead

/-! ### Definitions -/

theorem isAnswer_splitParameters (scope : Scope) {rest : List Token} (hRest : ∀ token ∈ rest, Q token) :
    IsAnswer Q (fun pair => pair.2.length ≤ rest.length ∧ ∀ token ∈ pair.2, Q token)
      (splitParameters scope head rest) := by
  fun_induction splitParameters scope head rest with
  | case1 => exact .error (.input hHead rfl)
  | case2 token rest => exact .ok ⟨Nat.le_refl _, hRest⟩
  | case3 token rest =>
    exact .error (.input (List.forall_mem_cons.mp hRest).1 rfl)
  | case4 token rest =>
    exact .error (.input (List.forall_mem_cons.mp hRest).1 rfl)
  | case5 token rest _ _ _ names following hOthers ih =>
    have hAnswer := ih (List.forall_mem_cons.mp hRest).2
    rw [hOthers] at hAnswer
    cases hAnswer with
    | ok hPair => exact .ok ⟨Nat.le_succ_of_le hPair.1, hPair.2⟩
  | case6 token rest _ _ _ diagnostic hOthers ih =>
    have hAnswer := ih (List.forall_mem_cons.mp hRest).2
    rw [hOthers] at hAnswer
    cases hAnswer with
    | error hReport => exact .error hReport

theorem answers_signature :
    Answers count Q (fun names => IsBlockOf Q names.2) (signature scope head) := by
  intro last rest hLast hCount hRest
  have hSplit := isAnswer_splitParameters hHead scope hRest
  rw [signature]
  generalize splitParameters scope head rest = result at hSplit
  cases hSplit with
  | error hReport => exact .error hReport
  | @ok pair hPair =>
    have hExtract : Answers count Q (fun names => IsBlockOf Q names.2)
        (do return (pair.1, ← Block.extract)) :=
      Block.answers_extract.bind fun _ hBody => answers_pure hBody
    exact hExtract last pair.2 hLast (Nat.lt_of_le_of_lt hPair.1 hCount) hPair.2

theorem answers_ofDefinition : Answers count Q (IsPossible N Q scope) (ofDefinition scope head) := by
  refine (Construct.definition.answers_require hHead).bind fun _ _ => ?_
  refine answers_next.bind fun name hName => ?_
  -- the name is a word, no keyword and not yet in use, or it is refused
  split
  · exact answers_fail (.input hName rfl)
  split
  · exact answers_fail (.input hName rfl)
  next hKeyword =>
    split
    · exact answers_fail (.input hName rfl)
    next hNew =>
      have hFree : Keyword.ofText? name.text = none := by simpa using hKeyword
      refine (answers_signature hHead).bind fun names hBody => answers_pure ?_
      exact .define ⟨name.text, names.1, names.2⟩ hFree (Bool.eq_false_iff.mpr hNew) hBody

/-! ### Drawing and assignment -/

include hQ hScope

theorem answers_ofColour (construct : Construct) {op : String → DrawOp}
    (hOp : ∀ colour, (op colour).fields = [colour]) :
    Answers count Q (IsPossible N Q scope) (ofColour scope construct op head) := by
  refine (construct.answers_require hHead).bind fun _ _ => ?_
  refine (Expression.answers_nextDrawable hQ hScope).bind fun colour hColour => ?_
  refine answers_pure (.draw fun field hField => ?_)
  rw [hOp, List.mem_singleton] at hField
  rwa [hField]

theorem answers_ofLine : Answers count Q (IsPossible N Q scope) (ofLine scope head) := by
  refine (Construct.line.answers_require hHead).bind fun _ _ => ?_
  refine (Expression.answers_nextDrawable hQ hScope).bind fun x0 hx0 => ?_
  refine (Expression.answers_nextDrawable hQ hScope).bind fun y0 hy0 => ?_
  refine (Expression.answers_nextDrawable hQ hScope).bind fun x1 hx1 => ?_
  refine (Expression.answers_nextDrawable hQ hScope).bind fun y1 hy1 => ?_
  refine answers_pure (.draw fun field hField => ?_)
  simp only [DrawOp.fields, List.mem_cons, List.not_mem_nil, or_false] at hField
  rcases hField with rfl | rfl | rfl | rfl
  · exact hx0
  · exact hy0
  · exact hx1
  · exact hy1

theorem answers_ofDot : Answers count Q (IsPossible N Q scope) (ofDot scope head) := by
  refine (Construct.dot.answers_require hHead).bind fun _ _ => ?_
  refine (Expression.answers_nextValue hQ hScope).bind fun x hx => ?_
  refine (Expression.answers_nextValue hQ hScope).bind fun y hy => ?_
  refine answers_next.bind fun closing hClosing => ?_
  split
  · refine (Expression.answers_nextValue hQ hScope).bind fun colour hColour => ?_
    exact answers_ofExcept (isAnswer_dot hQ hx hy hColour)
  · exact answers_fail (.input hClosing rfl)

theorem answers_ofAssignment : Answers count Q (IsPossible N Q scope) (ofAssignment scope head) := by
  refine (Construct.assignment.answers_require hHead).bind fun _ _ => ?_
  refine answers_next.bind fun target hTarget => ?_
  -- a bracket opens a dot, a word is a variable, and nothing else can be assigned to
  split
  · exact answers_ofDot hQ hScope hTarget
  split
  · exact (Expression.answers_nextValue hQ hScope).bind fun number hNumber =>
      answers_pure (.assign hNumber.text)
  · exact answers_fail (.input hTarget rfl)

/-! ### Blocks -/

theorem answers_ofLoop : Answers count Q (IsPossible N Q scope) (ofLoop scope head) := by
  refine (Construct.loop.answers_require hHead).bind fun _ _ => ?_
  refine answers_next.bind fun counter hCounter => ?_
  split
  · refine (Expression.answers_nextValue hQ hScope).bind fun start hStart => ?_
    refine (Expression.answers_nextValue hQ hScope).bind fun finish hFinish => ?_
    refine Block.answers_extract.bind fun block hBlock => ?_
    exact answers_ofExcept (isAnswer_loopBetween hStart hFinish hBlock)
  · exact answers_fail (.input hCounter rfl)

theorem answers_ofCheck (comparison : Comparison) :
    Answers count Q (IsPossible N Q scope) (ofCheck scope comparison head) := by
  refine ((Construct.check comparison).answers_require hHead).bind fun _ _ => ?_
  refine answers_next.bind fun mark hMark => ?_
  split
  · refine (Expression.answers_nextValue hQ hScope).bind fun left hLeft => ?_
    refine (Expression.answers_nextValue hQ hScope).bind fun right hRight => ?_
    refine Block.answers_extract.bind fun block hBlock => ?_
    exact answers_ofExcept (isAnswer_guarded hLeft hRight comparison hBlock)
  · exact answers_fail (.input hMark rfl)

theorem answers_ofKeyword (keyword : Keyword) :
    Answers count Q (IsPossible N Q scope) (ofKeyword scope keyword head) := by
  cases keyword with
  | paper => exact answers_ofColour hQ hScope hHead .paper fun _ => rfl
  | pen => exact answers_ofColour hQ hScope hHead .pen fun _ => rfl
  | line => exact answers_ofLine hQ hScope hHead
  | assign => exact answers_ofAssignment hQ hScope hHead
  | loop => exact answers_ofLoop hQ hScope hHead
  | define => exact answers_ofDefinition hHead
  | check comparison => exact answers_ofCheck hQ hScope hHead comparison

/-! ### Calls -/

omit hHead in
theorem answers_arguments (parameters : List String) :
    Answers count Q (AreArguments N) (arguments scope parameters) := by
  induction parameters with
  | nil => exact answers_pure fun _ _ hEntry => absurd hEntry List.not_mem_nil
  | cons parameter others ih =>
    refine (Expression.answers_nextValue hQ hScope).bind fun number hNumber => ?_
    refine ih.bind fun bindings hBindings => answers_pure fun name binding hEntry => ?_
    rcases List.mem_cons.mp hEntry with hFirst | hOthers
    · cases hFirst
      exact ⟨number.text, rfl, hNumber.text⟩
    · exact hBindings name binding hOthers

omit hHead hQ hScope in
/-- All numbers of the scope of a call are plain numerals, so that it is never refused. -/
theorem exists_deriveChild (hScope : scope.IsPlain) {bindings : List (String × Binding)}
    (hArguments : AreArguments (Numeral.isPlain · = true) bindings) :
    ∃ child, scope.deriveChild (.ofList bindings) = .ok child := by
  have hDefect : Scope.defect? (scope.bindings.insertAll (NameMap.ofList bindings).toList).toList =
      none := by
    refine Scope.defect?_eq_none_iff.mpr fun name text hEntry => ?_
    rcases NameMap.mem_toList_insertAll hEntry with hNew | hOld
    · obtain ⟨text', hText', hPlain⟩ := hArguments name _ (NameMap.mem_toList_ofList hNew)
      cases hText'
      exact hPlain
    · exact hScope name text hOld
  -- the check of the child is passed, so that the child is the copy itself
  refine ⟨⟨scope.bindings.insertAll (NameMap.ofList bindings).toList⟩, ?_⟩
  rw [Scope.deriveChild, Scope.ofBindings, hDefect]

theorem answers_ofCall {name : String} {command : Command}
    (hCommand : scope.get? name = some (.command command)) :
    Answers count Q (IsPossible N Q scope) (ofCall scope command head) := by
  have hRequire : Answers count Q (fun _ => True) (requireArguments command head) := by
    intro last rest _ hCount hRest
    rw [requireArguments]
    simp only
    split
    · exact .error (.input hHead rfl)
    · exact .ok ⟨trivial, hCount, hRest⟩
  refine hRequire.bind fun _ _ => ?_
  refine (answers_arguments hQ hScope command.parameters).bind fun bindings hArguments => ?_
  have hPlain : AreArguments (Numeral.isPlain · = true) bindings :=
    fun parameter binding hEntry => (hArguments parameter binding hEntry).imp fun _ hText =>
      ⟨hText.1, hQ.isPlain hText.2⟩
  obtain ⟨child, hChild⟩ :=
    exists_deriveChild (fun name text hEntry => hQ.isPlain (hScope name text hEntry)) hPlain
  rw [callWith, hChild]
  exact answers_ofExcept (.ok (.call hCommand hArguments hChild))

/-- A statement is read as an instruction that is possible in its scope, or it is refused. -/
theorem answers_ofStatement : Answers count Q (IsPossible N Q scope) (ofStatement scope head) := by
  unfold ofStatement
  -- no word, a keyword, a name without a meaning, a number, or a command
  split
  · exact answers_fail (.input hHead rfl)
  split
  · exact answers_ofKeyword hQ hScope hHead _
  split
  · exact answers_fail (.input hHead rfl)
  · exact answers_fail (.input hHead rfl)
  next command hCommand => exact answers_ofCall hQ hScope hHead hCommand

end Instruction

end Read

end DesignByNumbers
