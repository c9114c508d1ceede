import DesignByNumbers.Instruction
import DesignByNumbers.Proofs.Likeness.Reading

/-!
# Proofs.Likeness.Statement — statements that are alike are read alike

A block ends where the block that is like it ends, and a statement is read as an instruction
that is like that of the other one.

* `readerLike_extract` — blocks are read alike.
* `readerLike_ofStatement` — statements are read alike.
-/

namespace DesignByNumbers.Likeness

open Token (Reader next)
open Expression (nextValue nextDrawable)
open Instruction

variable {κ : Likeness}

/-! ## Blocks -/

/-- A block and what follows it are alike. -/
def SplitLike (κ : Likeness) (pair pair' : List Token × List Token) : Prop :=
  κ.TokensLike pair.1 pair'.1 ∧ κ.TokensLike pair.2 pair'.2

/-- The search for the closing brace ends at the same place in tokens that are alike. -/
theorem splitAtClose_like {tokens tokens' : List Token} (h : κ.TokensLike tokens tokens')
    (depth : Nat) :
    Option.Rel κ.SplitLike (Block.splitAtClose depth tokens)
      (Block.splitAtClose depth tokens') := by
  induction h generalizing depth with
  | nil => cases depth <;> exact .none
  | @cons token token' rest rest' hToken hRest ih =>
    -- a token that does not end the block is the first one of it in both texts
    have hKeep : ∀ depth, Option.Rel κ.SplitLike
        ((Block.splitAtClose depth rest).map fun pair => (token :: pair.1, pair.2))
        ((Block.splitAtClose depth rest').map fun pair => (token' :: pair.1, pair.2)) := by
      intro depth
      have hSplit := ih depth
      generalize Block.splitAtClose depth rest = split at hSplit
      generalize Block.splitAtClose depth rest' = split' at hSplit
      cases hSplit with
      | none => exact .none
      | some hPair => exact .some ⟨.cons hToken hPair.1, hPair.2⟩
    rw [Block.splitAtClose.eq_def, Block.splitAtClose.eq_def]
    simp only [hToken.isSymbol]
    split
    · exact hKeep (depth + 1)
    · split
      · cases depth with
        | zero => exact .some ⟨.nil, hRest⟩
        | succ depth => exact hKeep depth
      · exact hKeep depth

theorem readerLike_behind {opening opening' : Token} (hOpening : κ.TokenLike opening opening') :
    κ.ReaderLike κ.TokensLike (Block.behind opening) (Block.behind opening') := by
  intro last last' rest rest' hLast hRest
  have hSplit := splitAtClose_like hRest 0
  rw [Block.behind, Block.behind]
  generalize Block.splitAtClose 0 rest = split at hSplit
  generalize Block.splitAtClose 0 rest' = split' at hSplit
  cases hSplit with
  | none =>
    -- the opening brace is blamed if it is the last token, which it is in both texts or in none
    cases hRest with
    | nil => exact .error (near_like (.some hOpening) .blockNotClosed)
    | cons _ _ => exact .error (near_like hLast .blockNotClosed)
  | some hPair =>
    have hVerify := TokensLike.verify hPair.1
    simp only
    generalize Token.verify _ = verified at hVerify
    generalize Token.verify _ = verified' at hVerify
    cases hVerify with
    | ok _ => exact .ok hPair
    | error hDiagnostic => exact .error hDiagnostic

/-- Blocks are read alike. -/
theorem readerLike_extract : κ.ReaderLike κ.TokensLike Block.extract Block.extract := by
  refine readerLike_bind readerLike_next fun opening opening' hOpening => ?_
  refine readerLike_ite (by rw [hOpening.isSymbol]) (fun _ => readerLike_behind hOpening) fun _ => ?_
  exact readerLike_fail (hOpening.blameText .blockNotOpened fun _ _ => rfl)

/-! ## Instructions -/

/-- Two instructions that draw the same, or do the same under matching names with blocks that
are alike. -/
inductive InstructionLike (κ : Likeness) : Instruction → Instruction → Prop
  | draw (op : DrawOp) : InstructionLike κ (.draw op) (.draw op)
  | bind {name name' : String} {binding binding' : Binding} (hName : κ.named name name')
      (hBinding : κ.BindingLike binding binding') :
      InstructionLike κ (.bind name binding) (.bind name' binding')
  | loop {name name' : String} {block block' : List Token} (hName : κ.named name name')
      (first last : Int) (hBlock : κ.TokensLike block block') :
      InstructionLike κ (.loop name first last block) (.loop name' first last block')
  | check (held : Bool) {block block' : List Token} (hBlock : κ.TokensLike block block') :
      InstructionLike κ (.check held block) (.check held block')
  | call {scope scope' : Scope} {body body' : List Token} (hScope : κ.ScopeLike scope scope')
      (hBody : κ.TokensLike body body') :
      InstructionLike κ (.call scope body) (.call scope' body')

section Checked

variable {left left' right right' third third' : Token} {block block' : List Token}

theorem exceptLike_dot (hX : κ.NumberLike left left') (hY : κ.NumberLike right right')
    (hColour : κ.NumberLike third third') :
    κ.ExceptLike κ.InstructionLike (dot left right third) (dot left' right' third') := by
  refine hX.drawable.bind fun x x' hX => ?_
  refine hY.drawable.bind fun y y' hY => ?_
  refine hColour.drawable.bind fun colour colour' hColour => ?_
  subst hX hY hColour
  exact .ok (.draw _)

theorem exceptLike_loopBetween {name name' : String} (hName : κ.named name name')
    (hStart : κ.NumberLike left left') (hFinish : κ.NumberLike right right')
    (hBlock : κ.TokensLike block block') :
    κ.ExceptLike κ.InstructionLike (loopBetween name left right block)
      (loopBetween name' left' right' block') := by
  refine hStart.integer.bind fun first first' hFirst => ?_
  refine hFinish.integer.bind fun last last' hLast => ?_
  subst hFirst hLast
  exact .ok (.loop hName first last hBlock)

theorem exceptLike_holds (comparison : Comparison) (hLeft : κ.NumberLike left left')
    (hRight : κ.NumberLike right right') :
    κ.ExceptLike Eq (comparison.holds left right) (comparison.holds left' right') := by
  -- two comparisons convert their operands, and differ in the test alone
  have hIntegers : ∀ test : Int → Int → Bool,
      κ.ExceptLike Eq (do return test (← left.integer) (← right.integer))
        (do return test (← left'.integer) (← right'.integer)) := by
    intro test
    refine hLeft.integer.bind fun leftValue leftValue' hLeftValue => ?_
    refine hRight.integer.bind fun rightValue rightValue' hRightValue => ?_
    subst hLeftValue hRightValue
    exact .ok rfl
  cases comparison with
  | same =>
    rw [Comparison.holds, Comparison.holds, hLeft.text, hRight.text]
    exact .ok rfl
  | notSame =>
    rw [Comparison.holds, Comparison.holds, hLeft.text, hRight.text]
    exact .ok rfl
  | smaller => exact hIntegers fun left right => decide (left < right)
  | notSmaller => exact hIntegers fun left right => !decide (left < right)

theorem exceptLike_guarded (comparison : Comparison) (hLeft : κ.NumberLike left left')
    (hRight : κ.NumberLike right right') (hBlock : κ.TokensLike block block') :
    κ.ExceptLike κ.InstructionLike (guarded comparison left right block)
      (guarded comparison left' right' block') := by
  refine (exceptLike_holds comparison hLeft hRight).bind fun held held' hHeld => ?_
  subst hHeld
  exact .ok (.check held hBlock)

end Checked

/-! ## Statements -/

section Statements

variable {scope scope' : Scope} {head head' : Token}

theorem readerLike_ofColour (hScope : κ.ScopeLike scope scope') (construct : Construct)
    (op : String → DrawOp) (hHead : κ.TokenLike head head') :
    κ.ReaderLike κ.InstructionLike (ofColour scope construct op head)
      (ofColour scope' construct op head') := by
  refine readerLike_bind (readerLike_require construct hHead) fun _ _ _ => ?_
  refine readerLike_bind (readerLike_nextDrawable hScope) fun colour _ hColour => ?_
  subst hColour
  exact readerLike_pure (.draw _)

theorem readerLike_ofLine (hScope : κ.ScopeLike scope scope') (hHead : κ.TokenLike head head') :
    κ.ReaderLike κ.InstructionLike (ofLine scope head) (ofLine scope' head') := by
  refine readerLike_bind (readerLike_require .line hHead) fun _ _ _ => ?_
  refine readerLike_bind (readerLike_nextDrawable hScope) fun x0 _ hX0 => ?_
  refine readerLike_bind (readerLike_nextDrawable hScope) fun y0 _ hY0 => ?_
  refine readerLike_bind (readerLike_nextDrawable hScope) fun x1 _ hX1 => ?_
  refine readerLike_bind (readerLike_nextDrawable hScope) fun y1 _ hY1 => ?_
  subst hX0 hY0 hX1 hY1
  exact readerLike_pure (.draw _)

theorem readerLike_ofDot (hScope : κ.ScopeLike scope scope') (hHead : κ.TokenLike head head') :
    κ.ReaderLike κ.InstructionLike (ofDot scope head) (ofDot scope' head') := by
  refine readerLike_bind (readerLike_require .dot hHead) fun _ _ _ => ?_
  refine readerLike_bind (readerLike_nextValue hScope) fun x x' hX => ?_
  refine readerLike_bind (readerLike_nextValue hScope) fun y y' hY => ?_
  refine readerLike_bind readerLike_next fun closing closing' hClosing => ?_
  refine readerLike_ite (by rw [hClosing.isSymbol]) (fun _ => ?_) fun _ => ?_
  · refine readerLike_bind (readerLike_nextValue hScope) fun colour colour' hColour => ?_
    exact readerLike_ofExcept (exceptLike_dot hX hY hColour)
  · exact readerLike_fail (hClosing.blameText .dotNotClosed fun _ _ => rfl)

theorem readerLike_ofAssignment (hScope : κ.ScopeLike scope scope')
    (hHead : κ.TokenLike head head') :
    κ.ReaderLike κ.InstructionLike (ofAssignment scope head) (ofAssignment scope' head') := by
  refine readerLike_bind (readerLike_require .assignment hHead) fun _ _ _ => ?_
  refine readerLike_bind readerLike_next fun target target' hTarget => ?_
  refine readerLike_ite (by rw [hTarget.isSymbol]) (fun _ => readerLike_ofDot hScope hTarget)
    fun _ => ?_
  refine readerLike_ite (by rw [hTarget.kind]) (fun hWord => ?_) fun _ => ?_
  · refine readerLike_bind (readerLike_nextValue hScope) fun number number' hNumber => ?_
    rw [hNumber.text]
    exact readerLike_pure (.bind (hTarget.word hWord) (.number _))
  · exact readerLike_fail (hTarget.blameText .notAVariable fun _ _ => rfl)

theorem readerLike_ofLoop (hScope : κ.ScopeLike scope scope') (hHead : κ.TokenLike head head') :
    κ.ReaderLike κ.InstructionLike (ofLoop scope head) (ofLoop scope' head') := by
  refine readerLike_bind (readerLike_require .loop hHead) fun _ _ _ => ?_
  refine readerLike_bind readerLike_next fun counter counter' hCounter => ?_
  refine readerLike_ite (by rw [hCounter.kind]) (fun hWord => ?_) fun _ => ?_
  · refine readerLike_bind (readerLike_nextValue hScope) fun start start' hStart => ?_
    refine readerLike_bind (readerLike_nextValue hScope) fun finish finish' hFinish => ?_
    refine readerLike_bind readerLike_extract fun block block' hBlock => ?_
    exact readerLike_ofExcept
      (exceptLike_loopBetween (hCounter.word hWord) hStart hFinish hBlock)
  · exact readerLike_fail (hCounter.blameText .notALoopVariable fun _ _ => rfl)

theorem readerLike_ofCheck (hScope : κ.ScopeLike scope scope') (comparison : Comparison)
    (hHead : κ.TokenLike head head') :
    κ.ReaderLike κ.InstructionLike (ofCheck scope comparison head)
      (ofCheck scope' comparison head') := by
  refine readerLike_bind (readerLike_require (.check comparison) hHead) fun _ _ _ => ?_
  refine readerLike_bind readerLike_next fun mark mark' hMark => ?_
  refine readerLike_ite (by rw [hMark.isSymbol]) (fun _ => ?_) fun _ => ?_
  · refine readerLike_bind (readerLike_nextValue hScope) fun left left' hLeft => ?_
    refine readerLike_bind (readerLike_nextValue hScope) fun right right' hRight => ?_
    refine readerLike_bind readerLike_extract fun block block' hBlock => ?_
    exact readerLike_ofExcept (exceptLike_guarded comparison hLeft hRight hBlock)
  · exact readerLike_fail (hMark.blameText (.missingQuestionMark comparison) fun _ _ => rfl)

/-- Parameters go together one by one, and the tokens behind them are alike. -/
def SignatureLike (κ : Likeness) (pair pair' : List String × List Token) : Prop :=
  List.Forall₂ κ.named pair.1 pair'.1 ∧ κ.TokensLike pair.2 pair'.2

/-- The parameters of a command end before the same brace. -/
theorem splitParameters_like (hScope : κ.ScopeLike scope scope') (hHead : κ.TokenLike head head')
    {tokens tokens' : List Token} (h : κ.TokensLike tokens tokens') :
    κ.ExceptLike κ.SignatureLike (splitParameters scope head tokens)
      (splitParameters scope' head' tokens') := by
  induction h with
  | nil => exact .error (hHead.blame .parametersNotEnded)
  | @cons token token' rest rest' hToken hRest ih =>
    rw [splitParameters, splitParameters, hToken.isSymbol, hToken.kind]
    split
    · exact .ok ⟨.nil, .cons hToken hRest⟩
    · split
      · exact .error (hToken.blameText .unexpectedToken fun _ _ => rfl)
      next hWord =>
        have hName := hToken.word (not_not.mp hWord)
        rw [hScope.contains hName]
        split
        · exact .error (hToken.blameText .parameterTaken fun _ _ => rfl)
        · generalize splitParameters scope head rest = result at ih
          generalize splitParameters scope' head' rest' = result' at ih
          cases ih with
          | ok hPair => exact .ok ⟨.cons hName hPair.1, hPair.2⟩
          | error hDiagnostic => exact .error hDiagnostic

theorem readerLike_signature (hScope : κ.ScopeLike scope scope') (hHead : κ.TokenLike head head') :
    κ.ReaderLike κ.SignatureLike (signature scope head) (signature scope' head') := by
  intro last last' rest rest' hLast hRest
  have hSplit := splitParameters_like hScope hHead hRest
  rw [signature, signature]
  generalize splitParameters scope head rest = result at hSplit
  generalize splitParameters scope' head' rest' = result' at hSplit
  cases hSplit with
  | error hDiagnostic => exact .error hDiagnostic
  | @ok pair pair' hPair =>
    obtain ⟨names, between⟩ := pair
    obtain ⟨names', between'⟩ := pair'
    have hBody : κ.ReaderLike κ.SignatureLike (do return (names, ← Block.extract))
        (do return (names', ← Block.extract)) :=
      readerLike_bind readerLike_extract fun _ _ hBlock => readerLike_pure ⟨hPair.1, hBlock⟩
    exact hBody last last' between between' hLast hPair.2

theorem readerLike_ofDefinition (hScope : κ.ScopeLike scope scope')
    (hHead : κ.TokenLike head head') :
    κ.ReaderLike κ.InstructionLike (ofDefinition scope head) (ofDefinition scope' head') := by
  refine readerLike_bind (readerLike_require .definition hHead) fun _ _ _ => ?_
  refine readerLike_bind readerLike_next fun name name' hName => ?_
  refine readerLike_ite (by rw [hName.kind]) (fun _ => ?_) fun hWord => ?_
  · exact readerLike_fail (hName.blameText .notACommandName fun _ _ => rfl)
  have hNamed := hName.word (not_not.mp hWord)
  refine readerLike_ite (by rw [κ.keyword hNamed]) (fun _ => ?_) fun _ => ?_
  · exact readerLike_fail (hName.blameText .keywordRedefined fun _ _ => rfl)
  refine readerLike_ite (by rw [hScope.contains hNamed]) (fun _ => ?_) fun _ => ?_
  · exact readerLike_fail (hName.blameText .nameTaken fun _ _ => rfl)
  refine readerLike_bind (readerLike_signature hScope hHead) fun pair pair' hPair => ?_
  exact readerLike_pure (.bind hNamed (.command hNamed hPair.1 hPair.2))

theorem readerLike_arguments (hScope : κ.ScopeLike scope scope') {names names' : List String}
    (h : List.Forall₂ κ.named names names') :
    κ.ReaderLike (NameMap.EntriesRelated κ.named κ.BindingLike) (arguments scope names)
      (arguments scope' names') := by
  induction h with
  | nil => exact readerLike_pure .nil
  | cons hName _ ih =>
    refine readerLike_bind (readerLike_nextValue hScope) fun number number' hNumber => ?_
    refine readerLike_bind ih fun bindings bindings' hBindings => ?_
    rw [hNumber.text]
    exact readerLike_pure (.cons ⟨hName, .number _⟩ hBindings)

/-- The call of a command whose body is alike, on arguments that are. -/
theorem exceptLike_callWith (hScope : κ.ScopeLike scope scope') {command command' : Command}
    (hBody : κ.TokensLike command.body command'.body)
    {bindings bindings' : List (String × Binding)}
    (hBindings : NameMap.EntriesRelated κ.named κ.BindingLike bindings bindings') :
    κ.ExceptLike κ.InstructionLike (callWith scope command bindings)
      (callWith scope' command' bindings') :=
  (hScope.deriveChild hBindings).bind fun _ _ hChild => .ok (.call hChild hBody)

theorem readerLike_requireArguments {command command' : Command} (hHead : κ.TokenLike head head')
    (hName : κ.named command.name command'.name)
    (hParameters : List.Forall₂ κ.named command.parameters command'.parameters) :
    κ.ReaderLike (fun _ _ => True) (requireArguments command head)
      (requireArguments command' head') := by
  intro last last' rest rest' _ hRest
  simp only [requireArguments, hParameters.length_eq.symm, fewerThan_like hRest]
  split
  · refine .error { problem := ⟨rfl, fun hNames => ?_⟩, located := .some hHead.located }
    show Problem.tooFewArguments _ _ _ = .tooFewArguments _ _ _
    rw [hNames _ _ hName, hRest.length_eq]
  · exact .ok ⟨trivial, hRest⟩

theorem readerLike_ofCall (hScope : κ.ScopeLike scope scope') (hHead : κ.TokenLike head head')
    {command command' : Command} (hName : κ.named command.name command'.name)
    (hParameters : List.Forall₂ κ.named command.parameters command'.parameters)
    (hBody : κ.TokensLike command.body command'.body) :
    κ.ReaderLike κ.InstructionLike (ofCall scope command head) (ofCall scope' command' head') := by
  refine readerLike_bind (readerLike_requireArguments hHead hName hParameters) fun _ _ _ => ?_
  refine readerLike_bind (readerLike_arguments hScope hParameters) fun bindings bindings' h => ?_
  exact readerLike_ofExcept (exceptLike_callWith hScope hBody h)

theorem readerLike_ofKeyword (hScope : κ.ScopeLike scope scope') (keyword : Keyword)
    (hHead : κ.TokenLike head head') :
    κ.ReaderLike κ.InstructionLike (ofKeyword scope keyword head)
      (ofKeyword scope' keyword head') := by
  cases keyword with
  | paper => exact readerLike_ofColour hScope .paper .background hHead
  | pen => exact readerLike_ofColour hScope .pen .foreground hHead
  | line => exact readerLike_ofLine hScope hHead
  | assign => exact readerLike_ofAssignment hScope hHead
  | loop => exact readerLike_ofLoop hScope hHead
  | define => exact readerLike_ofDefinition hScope hHead
  | check comparison => exact readerLike_ofCheck hScope comparison hHead

/-- Statements are read alike. -/
theorem readerLike_ofStatement (hScope : κ.ScopeLike scope scope')
    (hHead : κ.TokenLike head head') :
    κ.ReaderLike κ.InstructionLike (ofStatement scope head) (ofStatement scope' head') := by
  refine readerLike_ite (by rw [hHead.kind]) (fun _ => ?_) fun hWord => ?_
  · exact readerLike_fail (hHead.blameText .unexpectedToken fun _ _ => rfl)
  -- a word goes together with one that is the same keyword, or none either
  have hNamed := hHead.word (not_not.mp hWord)
  have hGet := hScope.get? hNamed
  rw [κ.keyword hNamed]
  split
  next keyword _ => exact readerLike_ofKeyword hScope keyword hHead
  next =>
    generalize scope.get? head.text = meaning at hGet
    generalize scope'.get? head'.text = meaning' at hGet
    cases hGet with
    | none => exact readerLike_fail (hHead.blameText .unknownKeyword fun _ _ => rfl)
    | some hBinding =>
      cases hBinding with
      | number text => exact readerLike_fail (hHead.blameText .variableAsStatement fun _ _ => rfl)
      | command hName hParameters hBody =>
        exact readerLike_ofCall hScope hHead hName hParameters hBody

end Statements

end DesignByNumbers.Likeness
