import DesignByNumbers.Proofs.Block.Matching
import DesignByNumbers.Proofs.Consistency
import DesignByNumbers.Proofs.Run

/-!
# Proofs.Block.Closed — runs that miss no end of a block

In a block that was extracted every block is closed. What follows a statement is a rest of the tokens
in front of it, in which again every block is closed, and the blocks of statements and the bodies of
commands were extracted themselves. So a run that starts with such a block never complains of a block
without an end, whatever else is wrong with the block, and whatever the numbers in scope are.

* `Settles.bind`, `settles_extract` — readers of tokens in which all blocks are closed.
* `settles_ofStatement` — statements.
* `findsEnds_run` — whole runs.
* `extract_closes` — where extraction ends, in a text and in blocks, and what that spares a run.
-/

namespace DesignByNumbers

open Token (Reader next content)

namespace Block

/-- Every block that is opened in a sequence of tokens is closed in it. -/
def AllClosed (tokens : List Token) : Prop :=
  ∀ before opening rest, tokens = before ++ opening :: rest → opening.isSymbol "\x7b" = true →
    ∃ block following, splitAtClose 0 rest = some (block, following)

/-- The rest of such a sequence is such a sequence. -/
theorem AllClosed.of_append {stretch following : List Token} (h : AllClosed (stretch ++ following)) :
    AllClosed following := by
  rintro before opening rest rfl hOpening
  exact h (stretch ++ before) opening rest (List.append_assoc ..).symm hOpening

theorem AllClosed.of_cons {token : Token} {rest : List Token} (h : AllClosed (token :: rest)) :
    AllClosed rest :=
  AllClosed.of_append (show AllClosed ([token] ++ rest) from h)

theorem IsBalanced.allClosed {block : List Token} (h : IsBalanced (block.map content)) :
    AllClosed block := by
  rintro before opening rest rfl hOpening
  exact h.exists_splitAtClose hOpening

end Block

open Block (AllClosed IsBalanced)

/-! ## Readers -/

/-- Whether a problem is that of a block without an end. -/
def Problem.isUnclosedBlock : Problem → Bool
  | .blockNotClosed => true
  | _ => false

/-- A result is a value with a property, or a problem other than a block without an end. -/
inductive IsSettled {α : Type} (P : α → Prop) : Except Diagnostic α → Prop
  | ok {value : α} (h : P value) : IsSettled P (.ok value)
  | error {diagnostic : Diagnostic} (h : diagnostic.problem.isUnclosedBlock = false) :
      IsSettled P (.error diagnostic)

/-- From tokens in which all blocks are closed a reader reads a value with a property and leaves such
tokens behind, or it reports a problem other than a block without an end. -/
def Settles {α : Type} (P : α → Prop) (reader : Reader α) : Prop :=
  ∀ last rest, AllClosed rest → IsSettled (fun pair => P pair.1 ∧ AllClosed pair.2) (reader last rest)

section Settles

variable {α β : Type} {P : α → Prop} {R : β → Prop}

theorem IsSettled.bind {first : Except Diagnostic α} {second : α → Except Diagnostic β}
    (hFirst : IsSettled P first) (hSecond : ∀ value, P value → IsSettled R (second value)) :
    IsSettled R (first >>= second) := by
  cases hFirst with
  | ok hValue => exact hSecond _ hValue
  | error hOther => exact .error hOther

theorem settles_pure {value : α} (h : P value) : Settles P (pure value) :=
  fun _ _ hRest => .ok ⟨h, hRest⟩

theorem settles_fail {diagnostic : Diagnostic} (h : diagnostic.problem.isUnclosedBlock = false) :
    Settles P (Reader.fail diagnostic) :=
  fun _ _ _ => .error h

theorem settles_ofExcept {result : Except Diagnostic α} (h : IsSettled P result) :
    Settles P (Reader.ofExcept result) := by
  cases h with
  | ok hValue => exact settles_pure hValue
  | error hOther => exact settles_fail hOther

theorem settles_next : Settles (fun _ => True) next := by
  intro last rest hRest
  cases rest with
  | nil => exact .error rfl
  | cons token rest => exact .ok ⟨trivial, hRest.of_cons⟩

/-- What is read second is read from tokens in which all blocks are closed as well. -/
theorem Settles.bind {first : Reader α} {second : α → Reader β} (hFirst : Settles P first)
    (hSecond : ∀ value, P value → Settles R (second value)) : Settles R (first >>= second) := by
  intro last rest hRest
  have hSettled := hFirst last rest hRest
  show IsSettled _ (Reader.bind first second last rest)
  rw [Reader.bind]
  generalize first last rest = result at hSettled
  cases hSettled with
  | ok hPair => exact hSecond _ hPair.1 last _ hPair.2
  | error hOther => exact .error hOther

end Settles

/-! ### Values -/

theorem Construct.settles_require (construct : Construct) (head : Token) :
    Settles (fun _ => True) (construct.require head) := by
  intro last rest hRest
  rw [Construct.require]
  split
  · exact .error rfl
  · exact .ok ⟨trivial, hRest⟩

theorem isSettled_integer (token : Token) : IsSettled (fun _ => True) token.integer := by
  rw [Token.integer]
  split
  · exact .ok trivial
  · exact .error rfl

theorem isSettled_drawable (token : Token) : IsSettled (fun _ => True) token.drawable :=
  (isSettled_integer token).bind fun _ _ => .ok trivial

theorem isSettled_number (scope : Scope) (token : Token) :
    IsSettled (fun _ => True) (scope.number token) := by
  rw [Scope.number]
  split
  · exact .error rfl
  · exact .error rfl
  · exact .ok trivial

namespace Expression

theorem isSettled_evaluate (left operator right : Token) :
    IsSettled (fun _ => True) (evaluate left operator right) := by
  rw [evaluate]
  cases Operation.ofToken? operator with
  | none => exact .error rfl
  | some operation =>
    refine (isSettled_integer left).bind fun leftValue _ => ?_
    refine (isSettled_integer right).bind fun rightValue _ => ?_
    cases operation.result? leftValue rightValue with
    | none => exact .error rfl
    | some value =>
      cases hText : Numeral.print? value with
      | none =>
        simp only [hText]
        exact .error rfl
      | some text =>
        simp only [hText]
        exact .ok trivial

section Inner

variable {inner : Token → Reader Token} (hInner : ∀ head, Settles (fun _ => True) (inner head))

include hInner

theorem settles_operandWith : Settles (fun _ => True) (operandWith inner) := by
  refine settles_next.bind fun head _ => ?_
  split
  · exact settles_fail rfl
  · exact hInner head

theorem settles_calculationWith (opening : Token) :
    Settles (fun _ => True) (calculationWith inner opening) := by
  refine (Construct.calculation.settles_require opening).bind fun _ _ => ?_
  refine (settles_operandWith hInner).bind fun left _ => ?_
  refine settles_next.bind fun operator _ => ?_
  refine (settles_operandWith hInner).bind fun right _ => ?_
  refine settles_next.bind fun closing _ => ?_
  split
  · exact settles_ofExcept (isSettled_evaluate left operator right)
  · exact settles_fail rfl

theorem settles_compoundWith (head : Token) : Settles (fun _ => True) (compoundWith inner head) := by
  unfold compoundWith
  split
  · exact settles_next.bind fun operand _ => (hInner operand).bind fun _ _ => settles_pure trivial
  · split
    · exact settles_calculationWith hInner head
    · exact settles_fail rfl

theorem settles_valueWith (scope : Scope) (head : Token) :
    Settles (fun _ => True) (valueWith scope inner head) := by
  unfold valueWith
  split
  · exact settles_pure trivial
  · exact (settles_ofExcept (isSettled_number scope head)).bind fun _ _ => settles_pure trivial
  · exact settles_compoundWith hInner head

end Inner

variable (scope : Scope)

theorem settles_valueWithin (bound : List Token) (head : Token) :
    Settles (fun _ => True) (valueWithin scope bound head) := by
  induction bound generalizing head with
  | nil => exact settles_fail rfl
  | cons _ bound ih => exact settles_valueWith ih scope head

theorem settles_nextValue : Settles (fun _ => True) (nextValue scope) :=
  settles_next.bind fun head _ last rest => settles_valueWithin scope (head :: rest) head last rest

theorem settles_nextDrawable : Settles (fun _ => True) (nextDrawable scope) :=
  (settles_nextValue scope).bind fun number _ => settles_ofExcept (isSettled_drawable number)

end Expression

/-! ### Blocks -/

namespace Block

/-- A block is found closed, and in it as in what follows it all blocks are closed. -/
theorem settles_extract : Settles (fun block => IsBalanced (block.map content)) extract := by
  intro last rest hRest
  cases rest with
  | nil => exact .error rfl
  | cons opening rest =>
    rw [extract, Reader.bind_apply_of_ok _ rfl]
    split
    next hOpening =>
      obtain ⟨block, following, hSplit⟩ := hRest [] opening rest rfl hOpening
      obtain ⟨closing, rfl, -⟩ := exists_closing_of_splitAtClose hSplit
      simp only [behind, hSplit]
      split
      next => exact .ok ⟨depthAfter_of_splitAtClose hSplit, hRest.of_cons.of_append.of_cons⟩
      next diagnostic hVerify =>
        -- a block that is closed is refused for one of its tokens
        refine .error ?_
        rw [Token.verify] at hVerify
        split at hVerify
        next => cases hVerify
        next token _ =>
          cases hVerify
          rw [Diagnostic.blame, Token.defect]
          split <;> rfl
    next => exact .error rfl

end Block

/-! ## Statements -/

/-- The braces in the body of a command come in pairs. -/
def Binding.IsBalanced : Binding → Prop
  | .number _ => True
  | .command definition => Block.IsBalanced (definition.body.map content)

/-- The braces in the bodies of all commands come in pairs. -/
def Scope.IsBalanced (scope : Scope) : Prop :=
  scope.All fun _ binding => binding.IsBalanced

theorem Scope.isUnclosedBlock_of_defect? {entries : List (String × Binding)} {problem : Problem}
    (h : defect? entries = some problem) : problem.isUnclosedBlock = false := by
  fun_induction defect? entries with
  | case1 => cases h
  | case2 name text rest hPlain ih => exact ih h
  | case3 name text rest hPlain =>
    cases h
    rfl
  | case4 name command rest ih => exact ih h

namespace Instruction

open Expression (settles_nextValue settles_nextDrawable)

/-- The braces in what an instruction binds or runs come in pairs. -/
def IsBalanced : Instruction → Prop
  | .draw _ => True
  | .bind _ binding => binding.IsBalanced
  | .loop _ _ _ block => Block.IsBalanced (block.map content)
  | .check _ block => Block.IsBalanced (block.map content)
  | .call scope body => scope.IsBalanced ∧ Block.IsBalanced (body.map content)

section Checked

variable (left right third : Token)

theorem isSettled_dot : IsSettled IsBalanced (dot left right third) := by
  refine (isSettled_drawable left).bind fun _ _ => ?_
  refine (isSettled_drawable right).bind fun _ _ => ?_
  exact (isSettled_drawable third).bind fun _ _ => .ok trivial

variable {block : List Token} (hBlock : Block.IsBalanced (block.map content))

include hBlock

theorem isSettled_loopBetween (name : String) :
    IsSettled IsBalanced (loopBetween name left right block) := by
  refine (isSettled_integer left).bind fun _ _ => ?_
  exact (isSettled_integer right).bind fun _ _ => .ok hBlock

theorem isSettled_guarded (comparison : Comparison) :
    IsSettled IsBalanced (guarded comparison left right block) := by
  have hHolds : IsSettled (fun _ => True) (comparison.holds left right) := by
    cases comparison with
    | same => exact .ok trivial
    | notSame => exact .ok trivial
    | smaller | notSmaller =>
      refine (isSettled_integer left).bind fun _ _ => ?_
      exact (isSettled_integer right).bind fun _ _ => .ok trivial
  exact hHolds.bind fun _ _ => .ok hBlock

end Checked

variable (scope : Scope)

theorem settles_ofColour (construct : Construct) (op : String → DrawOp) (head : Token) :
    Settles IsBalanced (ofColour scope construct op head) := by
  refine (construct.settles_require head).bind fun _ _ => ?_
  exact (settles_nextDrawable scope).bind fun _ _ => settles_pure trivial

theorem settles_ofLine (head : Token) : Settles IsBalanced (ofLine scope head) := by
  refine (Construct.line.settles_require head).bind fun _ _ => ?_
  refine (settles_nextDrawable scope).bind fun _ _ => (settles_nextDrawable scope).bind fun _ _ => ?_
  refine (settles_nextDrawable scope).bind fun _ _ => (settles_nextDrawable scope).bind fun _ _ => ?_
  exact settles_pure trivial

theorem settles_ofDot (opening : Token) : Settles IsBalanced (ofDot scope opening) := by
  refine (Construct.dot.settles_require opening).bind fun _ _ => ?_
  refine (settles_nextValue scope).bind fun x _ => (settles_nextValue scope).bind fun y _ => ?_
  refine settles_next.bind fun closing _ => ?_
  split
  · exact (settles_nextValue scope).bind fun colour _ => settles_ofExcept (isSettled_dot x y colour)
  · exact settles_fail rfl

theorem settles_ofAssignment (head : Token) : Settles IsBalanced (ofAssignment scope head) := by
  refine (Construct.assignment.settles_require head).bind fun _ _ => ?_
  refine settles_next.bind fun target _ => ?_
  split
  · exact settles_ofDot scope target
  · split
    · exact (settles_nextValue scope).bind fun _ _ => settles_pure trivial
    · exact settles_fail rfl

theorem settles_ofLoop (head : Token) : Settles IsBalanced (ofLoop scope head) := by
  refine (Construct.loop.settles_require head).bind fun _ _ => ?_
  refine settles_next.bind fun counter _ => ?_
  split
  · refine (settles_nextValue scope).bind fun start _ => (settles_nextValue scope).bind fun finish _ => ?_
    refine Block.settles_extract.bind fun block hBlock => ?_
    exact settles_ofExcept (isSettled_loopBetween start finish hBlock counter.text)
  · exact settles_fail rfl

theorem settles_ofCheck (comparison : Comparison) (head : Token) :
    Settles IsBalanced (ofCheck scope comparison head) := by
  refine ((Construct.check comparison).settles_require head).bind fun _ _ => ?_
  refine settles_next.bind fun mark _ => ?_
  split
  · refine (settles_nextValue scope).bind fun left _ => (settles_nextValue scope).bind fun right _ => ?_
    refine Block.settles_extract.bind fun block hBlock => ?_
    exact settles_ofExcept (isSettled_guarded left right hBlock comparison)
  · exact settles_fail rfl

theorem isSettled_splitParameters (head : Token) {rest : List Token} (hRest : AllClosed rest) :
    IsSettled (fun pair => AllClosed pair.2) (splitParameters scope head rest) := by
  fun_induction splitParameters scope head rest with
  | case1 => exact .error rfl
  | case2 token rest => exact .ok hRest
  | case3 token rest => exact .error rfl
  | case4 token rest => exact .error rfl
  | case5 token rest _ _ _ names following hOthers ih =>
    have hSettled := ih hRest.of_cons
    rw [hOthers] at hSettled
    cases hSettled with
    | ok hPair => exact .ok hPair
  | case6 token rest _ _ _ diagnostic hOthers ih =>
    have hSettled := ih hRest.of_cons
    rw [hOthers] at hSettled
    cases hSettled with
    | error hOther => exact .error hOther

theorem settles_signature (head : Token) :
    Settles (fun names => Block.IsBalanced (names.2.map content)) (signature scope head) := by
  intro last rest hRest
  have hSettled := isSettled_splitParameters scope head hRest
  rw [signature]
  generalize splitParameters scope head rest = result at hSettled
  cases hSettled with
  | @ok pair hPair =>
    have hBody : Settles (fun names => Block.IsBalanced (names.2.map content))
        (do return (pair.1, ← Block.extract)) :=
      Block.settles_extract.bind fun _ hBody => settles_pure hBody
    exact hBody last pair.2 hPair
  | error hOther => exact .error hOther

theorem settles_ofDefinition (head : Token) : Settles IsBalanced (ofDefinition scope head) := by
  refine (Construct.definition.settles_require head).bind fun _ _ => ?_
  refine settles_next.bind fun name _ => ?_
  split
  · exact settles_fail rfl
  split
  · exact settles_fail rfl
  split
  · exact settles_fail rfl
  exact (settles_signature scope head).bind fun _ hBody => settles_pure hBody

theorem settles_ofKeyword (keyword : Keyword) (head : Token) :
    Settles IsBalanced (ofKeyword scope keyword head) := by
  cases keyword with
  | paper => exact settles_ofColour scope .paper .background head
  | pen => exact settles_ofColour scope .pen .foreground head
  | line => exact settles_ofLine scope head
  | assign => exact settles_ofAssignment scope head
  | loop => exact settles_ofLoop scope head
  | define => exact settles_ofDefinition scope head
  | check comparison => exact settles_ofCheck scope comparison head

theorem settles_arguments (parameters : List String) :
    Settles (AreArguments fun _ => True) (arguments scope parameters) := by
  induction parameters with
  | nil => exact settles_pure fun _ _ hEntry => absurd hEntry List.not_mem_nil
  | cons parameter others ih =>
    refine (settles_nextValue scope).bind fun number _ => ih.bind fun bindings hBindings => ?_
    refine settles_pure fun name binding hEntry => ?_
    rcases List.mem_cons.mp hEntry with hFirst | hOthers
    · cases hFirst
      exact ⟨number.text, rfl, trivial⟩
    · exact hBindings name binding hOthers

/-- What is refused of a scope is a number. -/
theorem isSettled_deriveChild {scope : Scope} (hScope : scope.IsBalanced)
    {bindings : List (String × Binding)} (hBindings : AreArguments (fun _ => True) bindings) :
    IsSettled Scope.IsBalanced (scope.deriveChild (.ofList bindings)) := by
  cases hChild : scope.deriveChild (.ofList bindings) with
  | ok child => exact .ok (hScope.deriveChild (fun _ _ _ => trivial) hBindings hChild)
  | error diagnostic =>
    rw [Scope.deriveChild, Scope.ofBindings] at hChild
    split at hChild
    next => cases hChild
    next problem hDefect =>
      cases hChild
      exact .error (Scope.isUnclosedBlock_of_defect? hDefect)

/-- The scope of a call knows the commands of the scope around it, and numbers. -/
theorem settles_ofCall {scope : Scope} (hScope : scope.IsBalanced) {name : String} {command : Command}
    (hCommand : scope.get? name = some (.command command)) (head : Token) :
    Settles IsBalanced (ofCall scope command head) := by
  have hRequire : Settles (fun _ => True) (requireArguments command head) := by
    intro last rest hRest
    simp only [requireArguments]
    split
    · exact .error rfl
    · exact .ok ⟨trivial, hRest⟩
  refine hRequire.bind fun _ _ => (settles_arguments scope _).bind fun bindings hBindings => ?_
  refine settles_ofExcept ?_
  exact (isSettled_deriveChild hScope hBindings).bind fun _ hChild => .ok ⟨hChild, hScope.get? hCommand⟩

/-- Where all blocks are closed, a statement is read as one whose blocks are closed, or refused for
another reason. -/
theorem settles_ofStatement {scope : Scope} (hScope : scope.IsBalanced) (head : Token) :
    Settles IsBalanced (ofStatement scope head) := by
  unfold ofStatement
  split
  · exact settles_fail rfl
  split
  next keyword _ => exact settles_ofKeyword scope keyword head
  next =>
    split
    · exact settles_fail rfl
    · exact settles_fail rfl
    next command hCommand => exact settles_ofCall hScope hCommand head

end Instruction

/-! ## Runs -/

namespace Program

/-- A run leaves commands behind whose braces come in pairs, and did not miss the end of a block. -/
structure MissesNoEnd (outcome : Outcome) : Prop where
  scope : outcome.state.scope.IsBalanced
  problem : ∀ diagnostic, outcome.failure? = some (.diagnosed diagnostic) →
    diagnostic.problem.isUnclosedBlock = false

theorem missesNoEnd_done {state : State} (h : state.scope.IsBalanced) : MissesNoEnd (.done state) where
  scope := h
  problem _ hFailure := by cases hFailure

theorem MissesNoEnd.andThen {first outcome : Outcome} {next : State → Option Outcome}
    (h : MissesNoEnd first)
    (hNext : ∀ between, between.scope.IsBalanced → next between = some outcome → MissesNoEnd outcome)
    (hOutcome : first.andThen next = some outcome) : MissesNoEnd outcome := by
  cases first with
  | done between => exact hNext between h.scope hOutcome
  | failed failure state =>
    cases hOutcome
    exact h

/-- Runs of tokens in which all blocks are closed miss no end of a block. -/
def FindsEnds (nested : Runner) : Prop :=
  ∀ tokens state outcome, AllClosed tokens → state.scope.IsBalanced →
    nested tokens state = some outcome → MissesNoEnd outcome

section Nested

variable {nested : Runner} (hNested : FindsEnds nested)

include hNested

theorem missesNoEnd_of_rounds {name : String} {block : List Token}
    (hBlock : IsBalanced (block.map content)) {step : Int} {count : Nat} {index : Int} {state : State}
    {outcome : Outcome} (hState : state.scope.IsBalanced)
    (hOutcome : rounds nested name block step count index state = some outcome) :
    MissesNoEnd outcome := by
  induction count generalizing index state with
  | zero =>
    cases hOutcome
    exact missesNoEnd_done hState
  | succ count ih =>
    rw [rounds] at hOutcome
    split at hOutcome
    next =>
      -- an index that has no text is no diagnostic
      cases hOutcome
      exact ⟨hState, by rintro _ ⟨⟩⟩
    next text _ =>
      obtain ⟨round, hRound, hRest⟩ := Option.bind_eq_some_iff.mp hOutcome
      have hBound : (state.bind name (.number text)).scope.IsBalanced := hState.bind trivial
      exact (hNested block _ round hBlock.allClosed hBound hRound).andThen (fun _ => ih) hRest

/-- An instruction whose blocks are closed runs blocks that are closed. -/
theorem missesNoEnd_of_execute {instruction : Instruction} (hInstruction : instruction.IsBalanced)
    {state : State} {outcome : Outcome} (hState : state.scope.IsBalanced)
    (hOutcome : execute nested instruction state = some outcome) : MissesNoEnd outcome := by
  cases instruction with
  | draw op =>
    cases hOutcome
    exact missesNoEnd_done hState
  | bind name binding =>
    cases hOutcome
    exact missesNoEnd_done (hState.bind hInstruction)
  | loop name first last block => exact missesNoEnd_of_rounds hNested hInstruction hState hOutcome
  | check held block =>
    cases held with
    | true => exact hNested block state outcome (IsBalanced.allClosed hInstruction) hState hOutcome
    | false =>
      cases hOutcome
      exact missesNoEnd_done hState
  | call scope body =>
    obtain ⟨hScope, hBody⟩ := hInstruction
    obtain ⟨inner, hInner, hEnd⟩ := Option.bind_eq_some_iff.mp hOutcome
    cases hEnd
    have hMisses := hNested body { state with scope } inner (IsBalanced.allClosed hBody) hScope hInner
    -- the scope of the caller is back at the end
    cases inner with
    | done between => exact missesNoEnd_done hState
    | failed failure between => exact ⟨hState, hMisses.problem⟩

theorem missesNoEnd_of_statements {last : Option Token} {tokens : List Token} {state : State}
    {outcome : Outcome} (hTokens : AllClosed tokens) (hState : state.scope.IsBalanced)
    (hOutcome : statements nested last tokens state = some outcome) : MissesNoEnd outcome := by
  fun_induction statements nested last tokens state with
  | case1 state =>
    cases hOutcome
    exact missesNoEnd_done hState
  | case2 state head rest diagnostic hRead =>
    have hSettled := Instruction.settles_ofStatement hState head last rest hTokens.of_cons
    rw [hRead] at hSettled
    cases hSettled with
    | error hOther =>
      cases hOutcome
      refine ⟨hState, ?_⟩
      rintro _ ⟨⟩
      exact hOther
  | case3 state head rest instruction following hRead ih =>
    have hSettled := Instruction.settles_ofStatement hState head last rest hTokens.of_cons
    rw [hRead] at hSettled
    cases hSettled with
    | ok hPair =>
      obtain ⟨first, hFirst, hRest⟩ := Option.bind_eq_some_iff.mp hOutcome
      exact (missesNoEnd_of_execute hNested hPair.1 hState hFirst).andThen
        (fun between hBetween hNext => ih between hPair.2 hBetween hNext) hRest

end Nested

/-- A run misses no end of a block, by induction on how deep blocks are nested in a run that ends. -/
theorem findsEnds_run : FindsEnds run := by
  intro tokens state outcome hTokens hState hRun
  refine run.partial_correctness
    (fun tokens state outcome => AllClosed tokens → state.scope.IsBalanced → MissesNoEnd outcome) ?_
    tokens state outcome hRun hTokens hState
  intro nested hNested tokens state outcome hRun hTokens hState
  refine missesNoEnd_of_statements (fun block inner outcome hBlock hInner hNestedRun => ?_) hTokens
    hState hRun
  exact hNested block inner outcome hNestedRun hBlock hInner

end Program

/-! ## Extracted blocks -/

/-- A block was extracted from verified tokens. -/
def Block.IsExtracted (block : List Token) : Prop :=
  ∃ tokens position cursor, Token.verify tokens = .ok () ∧
    (Cursor.mk tokens position).read Block.extract = .ok (block, cursor)

/-- The body of a command was extracted. -/
def Binding.IsExtracted : Binding → Prop
  | .number _ => True
  | .command definition => Block.IsExtracted definition.body

/-- The bodies of all commands were extracted. -/
def Scope.IsExtracted (scope : Scope) : Prop :=
  scope.All fun _ binding => binding.IsExtracted

theorem Block.IsExtracted.isBalanced {block : List Token} (h : IsExtracted block) :
    IsBalanced (block.map content) := by
  obtain ⟨tokens, position, cursor, hTokens, hRead⟩ := h
  obtain ⟨finish, hCloses, rfl, -⟩ := (read_extract_eq_ok_iff hTokens).mp hRead
  exact isMatched_iff_isBalanced.mp hCloses.isMatched

theorem Scope.IsExtracted.isBalanced {scope : Scope} (h : scope.IsExtracted) : scope.IsBalanced := by
  intro name binding hEntry
  have hBinding := h name binding hEntry
  cases binding with
  | number text => exact trivial
  | command command => exact Block.IsExtracted.isBalanced hBinding

namespace Block

/-- In verified tokens a block is read at a position just when a brace opens one there that a later
brace closes; what is read are the tokens between the two, which are determined by the count of
braces, and reading goes on behind the second brace. Every block in that block is read as the same
tokens from the block alone. A run that starts with an extracted block, and with commands whose
bodies were extracted too, never complains of a block that does not end. -/
theorem extract_closes {tokens : List Token} (hTokens : Token.verify tokens = .ok ()) (start : Nat) :
    (∀ block cursor, (Cursor.mk tokens start).read extract = .ok (block, cursor) ↔
      ∃ finish, Closes tokens start finish ∧ block = between tokens start finish ∧
        cursor = ⟨tokens, finish + 1⟩) ∧
    (∀ finish finish', Closes tokens start finish → Closes tokens start finish' → finish = finish') ∧
    (∀ finish, Closes tokens start finish →
      ∀ position, start < position → position < finish → HasAt tokens "\x7b" position →
        ∃ inner < finish,
          (Cursor.mk tokens position).read extract =
            .ok (between tokens position inner, ⟨tokens, inner + 1⟩) ∧
          (Cursor.mk (between tokens start finish) (position - start - 1)).read extract =
            .ok (between tokens position inner, ⟨between tokens start finish, inner - start⟩)) ∧
    ∀ block cursor, (Cursor.mk tokens start).read extract = .ok (block, cursor) →
      ∀ state outcome diagnostic, state.scope.IsExtracted →
        Program.run block state = some outcome →
        outcome.failure? = some (.diagnosed diagnostic) → diagnostic.problem ≠ .blockNotClosed := by
  refine ⟨fun _ _ => read_extract_eq_ok_iff hTokens, fun _ _ hCloses => hCloses.unique, ?_, ?_⟩
  · intro finish hCloses position hStart hFinish hOpening
    obtain ⟨inner, hInner, hOuter, hAlone, hSame⟩ := hCloses.within hStart hFinish hOpening
    refine ⟨inner, hInner, (read_extract_eq_ok_iff hTokens).mpr ⟨inner, hOuter, rfl, rfl⟩, ?_⟩
    have hBlock : Token.verify (between tokens start finish) = .ok () := by
      refine Token.verify_eq_ok_iff.mpr (List.forall_mem_map.mpr fun token hToken => ?_)
      exact Token.isWellFormed_of_verify hTokens token
        (List.mem_of_mem_take (List.mem_of_mem_drop hToken))
    refine (read_extract_eq_ok_iff hBlock).mpr ⟨inner - start - 1, hAlone, hSame.symm, ?_⟩
    -- the closing brace stands behind the opening one, and that behind the start of the block
    have hLess := hOuter.lt
    rw [Cursor.mk.injEq]
    exact ⟨rfl, by omega⟩
  · intro block cursor hRead state outcome diagnostic hScope hRun hFailure hProblem
    have hBlock : IsExtracted block := ⟨tokens, start, cursor, hTokens, hRead⟩
    have hOther := (Program.findsEnds_run block state outcome hBlock.isBalanced.allClosed
      hScope.isBalanced hRun).problem diagnostic hFailure
    rw [hProblem] at hOther
    cases hOther

/-- A block in a block, and a run of the outer one that comes to a line with too few numbers. -/
theorem extract_closes_line :
    let tokens := Token.ofSource "\x7b Same? 1 2 \x7b Pen X \x7d Line 1 \x7d \x7d"
    let state := State.initial ⟨⟨[("Dim", .command ⟨"Dim", ["X"], between tokens 5 8⟩)]⟩⟩
    Token.verify tokens = .ok () ∧ Closes tokens 0 11 ∧
      (Cursor.mk (between tokens 0 11) 4).read extract =
        .ok (between tokens 5 8, ⟨between tokens 0 11, 8⟩) ∧
      state.scope.IsExtracted ∧
      ∃ diagnostic, Program.run (between tokens 0 11) state =
        some (.failed (.diagnosed diagnostic) state) ∧ diagnostic.problem ≠ .blockNotClosed := by
  intro tokens state
  have hTokens : Token.verify tokens = .ok () := by decide +kernel
  have hRead : (Cursor.mk tokens 0).read extract = .ok (between tokens 0 11, ⟨tokens, 12⟩) := by
    decide +kernel
  have hReadInner : (Cursor.mk tokens 5).read extract = .ok (between tokens 5 8, ⟨tokens, 9⟩) := by
    decide +kernel
  have hOpening : HasAt tokens "\x7b" 5 := ⟨tokens[5]!, by decide +kernel⟩
  have hExtracted : state.scope.IsExtracted := by
    intro name binding hEntry
    cases List.mem_singleton.mp hEntry
    exact ⟨tokens, 5, ⟨tokens, 9⟩, hTokens, hReadInner⟩
  obtain ⟨hExactly, -, hWithin, hQuiet⟩ := extract_closes hTokens 0
  -- the cursor tells which braces close the two blocks
  obtain ⟨finish, hCloses, -, hFinish⟩ := (hExactly _ _).mp hRead
  obtain rfl : finish = 11 := by
    rw [Cursor.mk.injEq] at hFinish
    omega
  obtain ⟨inner, -, hSame, hAlone⟩ := hWithin 11 hCloses 5 (by decide) (by decide) hOpening
  obtain rfl : inner = 8 := by
    rw [hReadInner, Except.ok.injEq, Prod.mk.injEq, Cursor.mk.injEq] at hSame
    omega
  refine ⟨hTokens, hCloses, hAlone, hExtracted, ?_⟩
  obtain ⟨head, rest, line, others, diagnostic, hBlock, hCheck, hLine⟩ :
      ∃ head rest line others diagnostic, between tokens 0 11 = head :: rest ∧
        Instruction.ofStatement state.scope head (head :: rest).getLast? rest =
          .ok (.check false (between tokens 5 8), line :: others) ∧
        Instruction.ofStatement state.scope line (head :: rest).getLast? others = .error diagnostic :=
    ⟨(between tokens 0 11).head!, (between tokens 0 11).tail, tokens[9]!, [tokens[10]!],
      ⟨.tooFewTokens .line, some tokens[9]!.location⟩, by decide +kernel⟩
  have hRun : Program.run (between tokens 0 11) state =
      some (.failed (.diagnosed diagnostic) state) := by
    have hPassed : Program.execute Program.run (.check false (between tokens 5 8)) state =
        some (.done state) := rfl
    rw [hBlock, Program.run_eq, Program.statements_of_done hCheck hPassed,
      Program.statements_of_error _ hLine]
  exact ⟨diagnostic, hRun, hQuiet _ _ hRead state _ diagnostic hExtracted hRun rfl⟩

end Block

end DesignByNumbers
