import DesignByNumbers.Proofs.Demands

/-!
# Proofs.Demands.Reading — what is asked for is needed

A construct never asks for more tokens than it takes. Where too few follow, it would be refused
further on in any case, and reading changes nothing before that. Whichever demands are made, the
same is read then or something is refused, perhaps another thing at another token.

* `Alike.ask` — a demand in front of a reader that takes as many tokens.
* `alike_valueWithin`, `alike_ofStatement` — values and statements.
* `value_eq` — the equation of reading a value, without a bound.
-/

namespace DesignByNumbers.Demands

open Token (Reader next fewerThan IsLocal isLocal_next isLocal_pure isLocal_ofExcept)

/-! ## Readers that take the same -/

section Readers

variable {α β : Type} {count : Nat}

/-- Two results of reading a text are the same, and at least a number of tokens was taken, or both
are refusals. -/
inductive Agree (count : Nat) (rest : List Token) :
    Except Diagnostic (α × List Token) → Except Diagnostic (α × List Token) → Prop
  | ok {value : α} {following : List Token} (hCount : count + following.length ≤ rest.length) :
      Agree count rest (.ok (value, following)) (.ok (value, following))
  | error (diagnostic diagnostic' : Diagnostic) : Agree count rest (.error diagnostic) (.error diagnostic')

/-- Two readers read the same from every text, at least a number of tokens, or both refuse it. -/
def Alike (count : Nat) (reader reader' : Reader α) : Prop :=
  ∀ last rest, Agree count rest (reader last rest) (reader' last rest)

theorem alike_of_isLocal {reader : Reader α} (h : IsLocal count reader) :
    Alike count reader reader := by
  intro last rest
  cases hRead : reader last rest with
  | error diagnostic => exact .error diagnostic diagnostic
  | ok pair => exact .ok (h.length_le hRead)

theorem alike_fail (count : Nat) (diagnostic diagnostic' : Diagnostic) :
    Alike count (Reader.fail (α := α) diagnostic) (Reader.fail diagnostic') :=
  fun _ _ => .error diagnostic diagnostic'

theorem Alike.mono {m n : Nat} {reader reader' : Reader α} (h : Alike m reader reader')
    (hLe : n ≤ m) : Alike n reader reader' := by
  intro last rest
  have hBoth := h last rest
  generalize reader last rest = result at hBoth
  generalize reader' last rest = result' at hBoth
  cases hBoth with
  | error diagnostic diagnostic' => exact .error diagnostic diagnostic'
  | ok hCount => exact .ok (by omega)

theorem Alike.length_le {reader reader' : Reader α} (h : Alike count reader reader')
    {last : Option Token} {rest following : List Token} {value : α}
    (hRead : reader' last rest = .ok (value, following)) : count + following.length ≤ rest.length := by
  have hBoth := h last rest
  rw [hRead] at hBoth
  generalize reader last rest = result at hBoth
  cases hBoth with
  | ok hCount => exact hCount

theorem Alike.bind {m n : Nat} {first first' : Reader α} {second second' : α → Reader β}
    (hFirst : Alike m first first') (hSecond : ∀ value, Alike n (second value) (second' value)) :
    Alike (m + n) (first >>= second) (first' >>= second') := by
  intro last rest
  have hBoth := hFirst last rest
  cases hRead : first last rest with
  | error diagnostic =>
    rw [hRead] at hBoth
    generalize hRead' : first' last rest = result' at hBoth
    cases hBoth with
    | error =>
      rw [Reader.bind_apply_of_error _ hRead, Reader.bind_apply_of_error _ hRead']
      exact .error _ _
  | ok pair =>
    obtain ⟨value, between⟩ := pair
    rw [hRead] at hBoth
    generalize hRead' : first' last rest = result' at hBoth
    cases hBoth with
    | ok hTaken =>
      rw [Reader.bind_apply_of_ok _ hRead, Reader.bind_apply_of_ok _ hRead']
      -- both took the same so far, and go on from there
      have hRest := hSecond value last between
      generalize second value last between = result at hRest
      generalize second' value last between = result' at hRest
      cases hRest with
      | error diagnostic diagnostic' => exact .error diagnostic diagnostic'
      | ok hCount => exact .ok (by omega)

/-- Readers that are chosen by the same condition. -/
theorem alike_ite {c : Prop} [Decidable c] {yes yes' no no' : Reader α}
    (hYes : c → Alike count yes yes') (hNo : ¬ c → Alike count no no') :
    Alike count (if c then yes else no) (if c then yes' else no') := by
  by_cases h : c
  · rw [if_pos h, if_pos h]
    exact hYes h
  · rw [if_neg h, if_neg h]
    exact hNo h

/-! ## Demands in front of readers -/

/-- A reader takes nothing, and refuses a text only if fewer tokens than a number follow. -/
def Asks (count : Nat) (ask : Reader Unit) : Prop :=
  ∀ last rest, ask last rest = .ok ((), rest) ∨
    rest.length < count ∧ ∃ diagnostic, ask last rest = .error diagnostic

theorem asks_pure (count : Nat) : Asks count (pure ()) :=
  fun _ _ => .inl rfl

theorem asks_of_fewerThan {ask : Reader Unit} {diagnostic : List Token → Diagnostic}
    (h : ∀ last rest, ask last rest =
      if fewerThan count rest then .error (diagnostic rest) else .ok ((), rest)) : Asks count ask := by
  intro last rest
  rw [h]
  split
  next hFewer => exact .inr ⟨Token.fewerThan_iff.mp hFewer, _, rfl⟩
  next => exact .inl rfl

/-- Whether a demand is made or not, a reader that takes as many tokens reads the same. -/
theorem Alike.ask {asked : Nat} {ask ask' : Reader Unit} {reader reader' : Reader α}
    (hAsk : Asks asked ask) (hAsk' : Asks asked ask') (hEnough : asked ≤ count)
    (h : Alike count reader reader') :
    Alike count (ask >>= fun _ => reader) (ask' >>= fun _ => reader') := by
  intro last rest
  have hBoth := h last rest
  -- where fewer tokens follow than are asked for, both readers refuse the text on their own
  have hRefused : rest.length < asked → ∃ diagnostic diagnostic',
      reader last rest = .error diagnostic ∧ reader' last rest = .error diagnostic' := by
    intro hFewer
    generalize reader last rest = result at hBoth
    generalize reader' last rest = result' at hBoth
    cases hBoth with
    | error diagnostic diagnostic' => exact ⟨diagnostic, diagnostic', rfl, rfl⟩
    | ok hCount => omega
  rcases hAsk last rest with hOk | ⟨hFewer, diagnostic, hError⟩
  · rw [Reader.bind_apply_of_ok _ hOk]
    rcases hAsk' last rest with hOk' | ⟨hFewer, diagnostic', hError'⟩
    · rw [Reader.bind_apply_of_ok _ hOk']
      exact hBoth
    · obtain ⟨diagnostic, -, hReader, -⟩ := hRefused hFewer
      rw [Reader.bind_apply_of_error _ hError', hReader]
      exact .error _ _
  · rw [Reader.bind_apply_of_error _ hError]
    rcases hAsk' last rest with hOk' | ⟨-, diagnostic', hError'⟩
    · obtain ⟨-, diagnostic', -, hReader'⟩ := hRefused hFewer
      rw [Reader.bind_apply_of_ok _ hOk', hReader']
      exact .error _ _
    · rw [Reader.bind_apply_of_error _ hError']
      exact .error _ _

end Readers

variable (demands : Demands)

theorem asks_require (construct : Construct) (head : Token) :
    Asks construct.minimumLength (construct.require head) ∧
      Asks construct.minimumLength (demands.require construct head) := by
  have hAsks : Asks construct.minimumLength (construct.require head) :=
    asks_of_fewerThan fun _ _ => rfl
  refine ⟨hAsks, ?_⟩
  rw [require]
  split
  · exact hAsks
  · exact asks_pure _

theorem asks_requireArguments (command : Command) (head : Token) :
    Asks command.parameters.length (Instruction.requireArguments command head) ∧
      Asks command.parameters.length (demands.requireArguments command head) := by
  have hAsks : Asks command.parameters.length (Instruction.requireArguments command head) :=
    asks_of_fewerThan fun _ _ => rfl
  refine ⟨hAsks, ?_⟩
  rw [requireArguments]
  split
  · exact hAsks
  · exact asks_pure _

/-- A construct whose demand is made or left out reads the same if it takes as many tokens. -/
theorem alike_require {α : Type} {count : Nat} {reader reader' : Reader α} (construct : Construct)
    (head : Token) (hEnough : construct.minimumLength ≤ count) (h : Alike count reader reader') :
    Alike count (construct.require head >>= fun _ => reader)
      (demands.require construct head >>= fun _ => reader') :=
  .ask (demands.asks_require construct head).1 (demands.asks_require construct head).2 hEnough h

/-! ## Values -/

section Inner

variable {inner inner' : Token → Reader Token}

theorem alike_operandWith (h : ∀ head, Alike 0 (inner head) (inner' head)) :
    Alike 1 (Expression.operandWith inner) (Expression.operandWith inner') := by
  refine Alike.bind (m := 1) (n := 0) (alike_of_isLocal isLocal_next) fun head => ?_
  exact alike_ite (fun _ => alike_fail 0 _ _) fun _ => h head

/-- A calculation takes its two operands, the operator between them and its closing parenthesis. -/
theorem alike_calculationWith (h : ∀ head, Alike 0 (inner head) (inner' head)) (opening : Token) :
    Alike 4 (Expression.calculationWith inner opening) (demands.calculationWith inner' opening) := by
  refine demands.alike_require .calculation opening (Nat.le_refl 4) ?_
  refine Alike.bind (m := 1) (n := 3) (alike_operandWith h) fun left => ?_
  refine Alike.bind (m := 1) (n := 2) (alike_of_isLocal isLocal_next) fun operator => ?_
  refine Alike.bind (m := 1) (n := 1) (alike_operandWith h) fun right => ?_
  refine Alike.bind (m := 1) (n := 0) (alike_of_isLocal isLocal_next) fun closing => ?_
  exact alike_ite (fun _ => alike_of_isLocal (isLocal_ofExcept _)) fun _ => alike_fail 0 _ _

theorem alike_compoundWith (h : ∀ head, Alike 0 (inner head) (inner' head)) (head : Token) :
    Alike 0 (Expression.compoundWith inner head) (demands.compoundWith inner' head) := by
  refine alike_ite (fun _ => ?_) fun _ => alike_ite (fun _ => ?_) fun _ => alike_fail 0 _ _
  · refine Alike.mono (m := 1) ?_ (Nat.zero_le 1)
    refine Alike.bind (m := 1) (n := 0) (alike_of_isLocal isLocal_next) fun operand => ?_
    exact Alike.bind (m := 0) (n := 0) (h operand) fun _ => alike_of_isLocal (isLocal_pure _)
  · exact (demands.alike_calculationWith h head).mono (Nat.zero_le 4)

end Inner

variable (scope : Scope)

theorem alike_valueWithin (bound : List Token) (head : Token) :
    Alike 0 (Expression.valueWithin scope bound head) (demands.valueWithin scope bound head) := by
  induction bound generalizing head with
  | nil => exact alike_fail 0 _ _
  | cons _ bound ih =>
    rw [Expression.valueWithin, valueWithin, Expression.valueWith, valueWith]
    cases head.kind with
    | number => exact alike_of_isLocal (isLocal_pure head)
    | word =>
      refine alike_of_isLocal ?_
      exact IsLocal.bind (m := 0) (n := 0) (isLocal_ofExcept _) fun _ => isLocal_pure _
    | symbol => exact demands.alike_compoundWith ih head
    | unknown name => exact demands.alike_compoundWith ih head

/-! The bound on the nesting of values is not felt under any demands, as it is not under all. -/

section Bound

open Expression (bind_congr operandWith_congr)

variable {demands} {scope} {asked bounded bounded' : Token → Reader Token} {last : Option Token}
  {rest : List Token}

theorem calculationWith_congr (hAlike : ∀ head, Alike 0 (asked head) (bounded head)) (opening : Token)
    (h : ∀ head (shorter : List Token), shorter.length < rest.length →
      bounded head last shorter = bounded' head last shorter) :
    demands.calculationWith bounded opening last rest =
      demands.calculationWith bounded' opening last rest := by
  refine bind_congr rfl fun _ between hRequire => ?_
  obtain rfl : between = rest := by
    rcases (demands.asks_require .calculation opening).2 last rest with hOk | ⟨-, _, hError⟩
    · rw [hOk] at hRequire
      cases hRequire
      rfl
    · rw [hError] at hRequire
      cases hRequire
  refine bind_congr (operandWith_congr h) fun left afterLeft hLeft => ?_
  have hLeftLength := (alike_operandWith hAlike).length_le hLeft
  refine bind_congr rfl fun operator afterOperator hOperator => ?_
  have hOperatorLength := isLocal_next.length_le hOperator
  refine bind_congr (operandWith_congr fun head shorter hShorter => ?_) fun _ _ _ => rfl
  exact h head shorter (by omega)

theorem valueWith_congr (hAlike : ∀ head, Alike 0 (asked head) (bounded head)) (head : Token)
    (h : ∀ head (shorter : List Token), shorter.length < rest.length →
      bounded head last shorter = bounded' head last shorter) :
    demands.valueWith scope bounded head last rest =
      demands.valueWith scope bounded' head last rest := by
  have hCompound : demands.compoundWith bounded head last rest =
      demands.compoundWith bounded' head last rest := by
    unfold compoundWith
    split
    · refine bind_congr rfl fun operand between hRead => ?_
      have hShorter := isLocal_next.length_le hRead
      exact bind_congr (h operand between (by omega)) fun _ _ _ => rfl
    · split
      · exact calculationWith_congr hAlike head h
      · rfl
  unfold valueWith
  cases head.kind with
  | number => rfl
  | word => rfl
  | symbol => exact hCompound
  | unknown _ => exact hCompound

theorem valueWithin_congr {bound bound' : List Token} (hBound : rest.length < bound.length)
    (hBound' : rest.length < bound'.length) (head : Token) :
    demands.valueWithin scope bound head last rest =
      demands.valueWithin scope bound' head last rest := by
  induction bound generalizing bound' head rest with
  | nil => simp at hBound
  | cons token bound ih =>
    cases bound' with
    | nil => simp at hBound'
    | cons token' bound' =>
      simp only [List.length_cons] at hBound hBound'
      refine valueWith_congr (demands.alike_valueWithin scope bound) head ?_
      intro head shorter hShorter
      exact ih (by omega) (by omega) head

end Bound

/-- The equation of reading a value under demands, in which no bound is left. -/
theorem value_eq (head : Token) :
    demands.value scope head = demands.valueWith scope (demands.value scope) head := by
  funext last rest
  show demands.valueWith scope (demands.valueWithin scope rest) head last rest = _
  refine valueWith_congr (demands.alike_valueWithin scope rest) head ?_
  intro head shorter hShorter
  have hOwn : shorter.length < (head :: shorter).length := Nat.lt_succ_self shorter.length
  exact valueWithin_congr hShorter hOwn head

theorem alike_nextValue : Alike 1 (Expression.nextValue scope) (demands.nextValue scope) := by
  refine Alike.bind (m := 1) (n := 0) (alike_of_isLocal isLocal_next) fun head => ?_
  exact fun last rest => demands.alike_valueWithin scope (head :: rest) head last rest

theorem alike_nextDrawable : Alike 1 (Expression.nextDrawable scope) (demands.nextDrawable scope) := by
  refine Alike.bind (m := 1) (n := 0) (demands.alike_nextValue scope) fun number => ?_
  exact alike_of_isLocal (isLocal_ofExcept _)

/-! ## Statements -/

theorem alike_ofColour (construct : Construct) (hLength : construct.minimumLength ≤ 1)
    (op : String → DrawOp) (head : Token) :
    Alike 1 (Instruction.ofColour scope construct op head) (demands.ofColour scope construct op head) := by
  refine demands.alike_require construct head hLength ?_
  refine Alike.bind (m := 1) (n := 0) (demands.alike_nextDrawable scope) fun colour => ?_
  exact alike_of_isLocal (isLocal_pure _)

theorem alike_ofLine (head : Token) :
    Alike 4 (Instruction.ofLine scope head) (demands.ofLine scope head) := by
  refine demands.alike_require .line head (Nat.le_refl 4) ?_
  refine Alike.bind (m := 1) (n := 3) (demands.alike_nextDrawable scope) fun x0 => ?_
  refine Alike.bind (m := 1) (n := 2) (demands.alike_nextDrawable scope) fun y0 => ?_
  refine Alike.bind (m := 1) (n := 1) (demands.alike_nextDrawable scope) fun x1 => ?_
  refine Alike.bind (m := 1) (n := 0) (demands.alike_nextDrawable scope) fun y1 => ?_
  exact alike_of_isLocal (isLocal_pure _)

theorem alike_ofDot (opening : Token) :
    Alike 4 (Instruction.ofDot scope opening) (demands.ofDot scope opening) := by
  refine demands.alike_require .dot opening (Nat.le_refl 4) ?_
  refine Alike.bind (m := 1) (n := 3) (demands.alike_nextValue scope) fun x => ?_
  refine Alike.bind (m := 1) (n := 2) (demands.alike_nextValue scope) fun y => ?_
  refine Alike.bind (m := 1) (n := 1) (alike_of_isLocal isLocal_next) fun closing => ?_
  refine alike_ite (fun _ => ?_) fun _ => alike_fail 1 _ _
  refine Alike.bind (m := 1) (n := 0) (demands.alike_nextValue scope) fun colour => ?_
  exact alike_of_isLocal (isLocal_ofExcept _)

/-- A dot takes more than is asked for an assignment, which takes its target and a value. -/
theorem alike_ofAssignment (head : Token) :
    Alike 2 (Instruction.ofAssignment scope head) (demands.ofAssignment scope head) := by
  refine demands.alike_require .assignment head (Nat.le_refl 2) ?_
  refine Alike.bind (m := 1) (n := 1) (alike_of_isLocal isLocal_next) fun target => ?_
  refine alike_ite (fun _ => ?_) fun _ => alike_ite (fun _ => ?_) fun _ => alike_fail 1 _ _
  · exact (demands.alike_ofDot scope target).mono (by omega)
  · refine Alike.bind (m := 1) (n := 0) (demands.alike_nextValue scope) fun number => ?_
    exact alike_of_isLocal (isLocal_pure _)

/-- Two values and a block take at least four tokens, two of which are the braces. -/
theorem alike_twoValues {finish : Token → Token → List Token → Except Diagnostic Instruction} :
    Alike 4
      (do
        let left ← Expression.nextValue scope
        let right ← Expression.nextValue scope
        let block ← Block.extract
        .ofExcept (finish left right block) : Reader Instruction)
      (do
        let left ← demands.nextValue scope
        let right ← demands.nextValue scope
        let block ← Block.extract
        .ofExcept (finish left right block)) := by
  refine Alike.bind (m := 1) (n := 3) (demands.alike_nextValue scope) fun left => ?_
  refine Alike.bind (m := 1) (n := 2) (demands.alike_nextValue scope) fun right => ?_
  refine Alike.bind (m := 2) (n := 0) (alike_of_isLocal Block.isLocal_extract) fun block => ?_
  exact alike_of_isLocal (isLocal_ofExcept _)

theorem alike_ofLoop (head : Token) :
    Alike 5 (Instruction.ofLoop scope head) (demands.ofLoop scope head) := by
  refine demands.alike_require .loop head (Nat.le_refl 5) ?_
  refine Alike.bind (m := 1) (n := 4) (alike_of_isLocal isLocal_next) fun counter => ?_
  exact alike_ite (fun _ => demands.alike_twoValues scope) fun _ => alike_fail 4 _ _

theorem alike_ofCheck (comparison : Comparison) (head : Token) :
    Alike 5 (Instruction.ofCheck scope comparison head) (demands.ofCheck scope comparison head) := by
  refine demands.alike_require (.check comparison) head (Nat.le_refl 5) ?_
  refine Alike.bind (m := 1) (n := 4) (alike_of_isLocal isLocal_next) fun mark => ?_
  exact alike_ite (fun _ => demands.alike_twoValues scope) fun _ => alike_fail 4 _ _

/-- A definition takes a name and the braces of its body, if it has no parameter. -/
theorem alike_ofDefinition (head : Token) :
    Alike 3 (Instruction.ofDefinition scope head) (demands.ofDefinition scope head) := by
  refine demands.alike_require .definition head (Nat.le_refl 3) ?_
  refine Alike.bind (m := 1) (n := 2) (alike_of_isLocal isLocal_next) fun name => ?_
  refine alike_ite (fun _ => alike_fail 2 _ _) fun _ => ?_
  refine alike_ite (fun _ => alike_fail 2 _ _) fun _ => ?_
  refine alike_ite (fun _ => alike_fail 2 _ _) fun _ => ?_
  have hSignature := alike_of_isLocal (Instruction.isLocal_signature scope head)
  exact Alike.bind (m := 2) (n := 0) hSignature fun _ => alike_of_isLocal (isLocal_pure _)

theorem alike_arguments (parameters : List String) :
    Alike parameters.length (Instruction.arguments scope parameters)
      (demands.arguments scope parameters) := by
  induction parameters with
  | nil => exact alike_of_isLocal (isLocal_pure _)
  | cons parameter others ih =>
    rw [List.length_cons, Nat.add_comm]
    refine Alike.bind (demands.alike_nextValue scope) fun number => ?_
    exact Alike.bind (n := 0) ih fun _ => alike_of_isLocal (isLocal_pure _)

/-- A call takes at least one token for each of its arguments. -/
theorem alike_ofCall (command : Command) (head : Token) :
    Alike command.parameters.length (Instruction.ofCall scope command head)
      (demands.ofCall scope command head) := by
  obtain ⟨hAsk, hAsk'⟩ := demands.asks_requireArguments command head
  refine .ask hAsk hAsk' (Nat.le_refl _) ?_
  refine Alike.bind (n := 0) (demands.alike_arguments scope command.parameters) fun _ => ?_
  exact alike_of_isLocal (isLocal_ofExcept _)

theorem alike_ofKeyword (keyword : Keyword) (head : Token) :
    Alike 1 (Instruction.ofKeyword scope keyword head) (demands.ofKeyword scope keyword head) := by
  cases keyword with
  | paper => exact demands.alike_ofColour scope .paper (Nat.le_refl 1) .background head
  | pen => exact demands.alike_ofColour scope .pen (Nat.le_refl 1) .foreground head
  | line => exact (demands.alike_ofLine scope head).mono (by omega)
  | assign => exact (demands.alike_ofAssignment scope head).mono (by omega)
  | loop => exact (demands.alike_ofLoop scope head).mono (by omega)
  | define => exact (demands.alike_ofDefinition scope head).mono (by omega)
  | check comparison => exact (demands.alike_ofCheck scope comparison head).mono (by omega)

/-- Whichever demands are made, a statement is read as it is, or refused if it is. -/
theorem alike_ofStatement (head : Token) :
    Alike 0 (Instruction.ofStatement scope head) (demands.ofStatement scope head) := by
  refine alike_ite (fun _ => alike_fail 0 _ _) fun _ => ?_
  cases Keyword.ofText? head.text with
  | some keyword => exact (demands.alike_ofKeyword scope keyword head).mono (Nat.zero_le 1)
  | none =>
    cases scope.get? head.text with
    | none => exact alike_fail 0 _ _
    | some binding =>
      cases binding with
      | number text => exact alike_fail 0 _ _
      | command command => exact (demands.alike_ofCall scope command head).mono (Nat.zero_le _)

end DesignByNumbers.Demands
