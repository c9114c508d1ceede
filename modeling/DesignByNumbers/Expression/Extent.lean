import DesignByNumbers.Expression

/-!
# Expression.Extent — how far a value reaches

A value that is read ends where its text ends, whatever follows it, and the bound on its
nesting is never felt.

* `valueWithin_congr` — bounds longer than what follows are all alike.
* `value_eq` — the equation of `value`, without a bound.
* `isLocal_value`, `isLocal_nextValue` — a value takes its own tokens and no others.
-/

namespace DesignByNumbers

open Token (Reader next fewerThan Takes IsLocal isLocal_next isLocal_pure isLocal_fail
  isLocal_ofExcept takes_next)

namespace Construct

/-- A request for tokens that succeeds takes none. -/
theorem eq_of_require {construct : Construct} {head : Token} {last : Option Token}
    {rest between : List Token} (h : construct.require head last rest = .ok ((), between)) :
    between = rest := by
  rw [Construct.require] at h
  split at h
  · cases h
  · cases h
    rfl

/-- The request for tokens changes nothing where a construct takes enough of them. -/
theorem takes_require {α : Type} {reader : Reader α} {stretch : List Token} {value : α}
    (construct : Construct) (head : Token) (hEnough : construct.minimumLength ≤ stretch.length)
    (h : Takes reader stretch value) :
    Takes (construct.require head >>= fun _ => reader) stretch value := by
  intro last rest
  have hNotFewer : fewerThan construct.minimumLength (stretch ++ rest) = false := by
    rw [Bool.eq_false_iff, ne_eq, Token.fewerThan_iff, List.length_append]
    omega
  have hRequire : construct.require head last (stretch ++ rest) = .ok ((), stretch ++ rest) := by
    rw [Construct.require, hNotFewer]
    rfl
  rw [Reader.bind_apply_of_ok _ hRequire]
  exact h last rest

theorem isLocal_require {α : Type} {count : Nat} {reader : Reader α} (construct : Construct)
    (head : Token) (hEnough : construct.minimumLength ≤ count) (h : IsLocal count reader) :
    IsLocal count (construct.require head >>= fun _ => reader) := by
  intro last rest value following hRead
  obtain ⟨_, between, hRequire, hBehind⟩ := Reader.bind_eq_ok_iff.mp hRead
  rw [eq_of_require hRequire] at hBehind
  obtain ⟨stretch, hCount, hRest, hTakes⟩ := h last rest value following hBehind
  exact ⟨stretch, hCount, hRest, construct.takes_require head (by omega) hTakes⟩

end Construct

namespace Expression

/-! ## Readers with a given reader of values -/

section Inner

variable {inner : Token → Reader Token}

theorem isLocal_operandWith (h : ∀ head, IsLocal 0 (inner head)) :
    IsLocal 1 (operandWith inner) := by
  refine IsLocal.bind (m := 1) (n := 0) isLocal_next fun head => ?_
  split
  · exact isLocal_fail 0 _
  · exact h head

theorem isLocal_calculationWith (h : ∀ head, IsLocal 0 (inner head)) (opening : Token) :
    IsLocal 4 (calculationWith inner opening) := by
  refine Construct.calculation.isLocal_require opening (Nat.le_refl 4) ?_
  refine IsLocal.bind (m := 1) (n := 3) (isLocal_operandWith h) fun left => ?_
  refine IsLocal.bind (m := 1) (n := 2) isLocal_next fun operator => ?_
  refine IsLocal.bind (m := 1) (n := 1) (isLocal_operandWith h) fun right => ?_
  refine IsLocal.bind (m := 1) (n := 0) isLocal_next fun closing => ?_
  split
  · exact isLocal_ofExcept _
  · exact isLocal_fail 0 _

theorem isLocal_compoundWith (h : ∀ head, IsLocal 0 (inner head)) (head : Token) :
    IsLocal 0 (compoundWith inner head) := by
  unfold compoundWith
  split
  · refine IsLocal.mono (m := 1) ?_ (Nat.zero_le 1)
    refine IsLocal.bind (m := 1) (n := 0) isLocal_next fun operand => ?_
    exact IsLocal.bind (m := 0) (n := 0) (h operand) fun number => isLocal_pure _
  · split
    · exact (isLocal_calculationWith h head).mono (Nat.zero_le 4)
    · exact isLocal_fail 0 _

theorem isLocal_valueWith (h : ∀ head, IsLocal 0 (inner head)) (scope : Scope) (head : Token) :
    IsLocal 0 (valueWith scope inner head) := by
  unfold valueWith
  split
  · exact isLocal_pure head
  · exact IsLocal.bind (m := 0) (n := 0) (isLocal_ofExcept _) fun text => isLocal_pure _
  · exact isLocal_compoundWith h head

end Inner

/-! ## The bound -/

theorem isLocal_valueWithin (scope : Scope) (bound : List Token) (head : Token) :
    IsLocal 0 (valueWithin scope bound head) := by
  induction bound generalizing head with
  | nil => exact isLocal_fail 0 _
  | cons _ bound ih => exact isLocal_valueWith ih scope head

/-- Two readers agree on a text when they agree at first and behind what was read first. -/
theorem bind_congr {α β : Type} {first first' : Reader α} {second second' : α → Reader β}
    {last : Option Token} {rest : List Token} (hFirst : first last rest = first' last rest)
    (hSecond : ∀ value between, first last rest = .ok (value, between) →
      second value last between = second' value last between) :
    (first >>= second) last rest = (first' >>= second') last rest := by
  cases hRead : first last rest with
  | error diagnostic =>
    rw [Reader.bind_apply_of_error _ hRead, Reader.bind_apply_of_error _ (hFirst ▸ hRead)]
  | ok pair =>
    obtain ⟨value, between⟩ := pair
    rw [Reader.bind_apply_of_ok _ hRead, Reader.bind_apply_of_ok _ (hFirst ▸ hRead)]
    exact hSecond value between hRead

section Agreement

variable {inner inner' : Token → Reader Token} {last : Option Token} {rest : List Token}

/-- Operands agree where the readers of values do on shorter texts. -/
theorem operandWith_congr
    (h : ∀ head (shorter : List Token), shorter.length < rest.length →
      inner head last shorter = inner' head last shorter) :
    operandWith inner last rest = operandWith inner' last rest := by
  refine bind_congr rfl fun head between hRead => ?_
  have hShorter : 1 + between.length ≤ rest.length := isLocal_next.length_le hRead
  split
  · rfl
  · exact h head between (by omega)

theorem calculationWith_congr (hLocal : ∀ head, IsLocal 0 (inner head)) (opening : Token)
    (h : ∀ head (shorter : List Token), shorter.length < rest.length →
      inner head last shorter = inner' head last shorter) :
    calculationWith inner opening last rest = calculationWith inner' opening last rest := by
  refine bind_congr rfl fun _ afterRequire hRequire => ?_
  rw [Construct.eq_of_require hRequire]
  refine bind_congr (operandWith_congr h) fun left afterLeft hLeft => ?_
  have hLeftLength := (isLocal_operandWith hLocal).length_le hLeft
  refine bind_congr rfl fun operator afterOperator hOperator => ?_
  have hOperatorLength := isLocal_next.length_le hOperator
  refine bind_congr (operandWith_congr fun head shorter hShorter => ?_) fun _ _ _ => rfl
  exact h head shorter (by omega)

theorem compoundWith_congr (hLocal : ∀ head, IsLocal 0 (inner head)) (head : Token)
    (h : ∀ head (shorter : List Token), shorter.length < rest.length →
      inner head last shorter = inner' head last shorter) :
    compoundWith inner head last rest = compoundWith inner' head last rest := by
  unfold compoundWith
  split
  · refine bind_congr rfl fun operand between hRead => ?_
    have hShorter := isLocal_next.length_le hRead
    exact bind_congr (h operand between (by omega)) fun _ _ _ => rfl
  · split
    · exact calculationWith_congr hLocal head h
    · rfl

theorem valueWith_congr (hLocal : ∀ head, IsLocal 0 (inner head)) (scope : Scope) (head : Token)
    (h : ∀ head (shorter : List Token), shorter.length < rest.length →
      inner head last shorter = inner' head last shorter) :
    valueWith scope inner head last rest = valueWith scope inner' head last rest := by
  have hCompound := compoundWith_congr hLocal head h
  unfold valueWith
  cases head.kind with
  | number => rfl
  | word => rfl
  | symbol => exact hCompound
  | unknown _ => exact hCompound

end Agreement

/-- Bounds longer than what follows are all alike. -/
theorem valueWithin_congr (scope : Scope) {bound bound' : List Token} {rest : List Token}
    (hBound : rest.length < bound.length) (hBound' : rest.length < bound'.length)
    (head : Token) (last : Option Token) :
    valueWithin scope bound head last rest = valueWithin scope bound' head last rest := by
  induction bound generalizing bound' head rest with
  | nil => simp at hBound
  | cons token bound ih =>
    cases bound' with
    | nil => simp at hBound'
    | cons token' bound' =>
      simp only [List.length_cons] at hBound hBound'
      refine valueWith_congr (isLocal_valueWithin scope bound) scope head ?_
      intro head shorter hShorter
      exact ih (by omega) (by omega) head

/-- The equation of reading a value, in which no bound is left. -/
theorem value_eq (scope : Scope) (head : Token) :
    value scope head = valueWith scope (value scope) head := by
  funext last rest
  show valueWith scope (valueWithin scope rest) head last rest = _
  refine valueWith_congr (isLocal_valueWithin scope rest) scope head ?_
  intro head shorter hShorter
  have hOwn : shorter.length < (head :: shorter).length := Nat.lt_succ_self shorter.length
  exact valueWithin_congr scope hShorter hOwn head last

/-! ## Extent of values -/

theorem isLocal_value (scope : Scope) (head : Token) : IsLocal 0 (value scope head) := by
  intro last rest number following hRead
  obtain ⟨stretch, hCount, rfl, hTakes⟩ :=
    isLocal_valueWithin scope (head :: rest) head last rest number following hRead
  refine ⟨stretch, hCount, rfl, fun last' rest' => ?_⟩
  -- a bound that is long enough for the whole of another text, on the stretch alone
  have hStretch : valueWithin scope (head :: (stretch ++ rest')) head last (stretch ++ []) =
      .ok (number, []) := by
    have hLong : (stretch ++ []).length < (head :: (stretch ++ rest')).length := by
      simp only [List.length_cons, List.length_append, List.length_nil]
      omega
    have hWhole : (stretch ++ []).length < (head :: (stretch ++ following)).length := by
      simp only [List.length_cons, List.length_append, List.length_nil]
      omega
    rw [← hTakes last []]
    exact valueWithin_congr scope hLong hWhole head last
  obtain ⟨taken, -, hTaken, hTakes'⟩ :=
    isLocal_valueWithin scope (head :: (stretch ++ rest')) head last _ number [] hStretch
  rw [List.append_cancel_right hTaken]
  rw [List.append_cancel_right hTaken] at hTakes'
  exact hTakes' last' rest'

theorem isLocal_calculation (scope : Scope) (opening : Token) :
    IsLocal 4 (calculation scope opening) :=
  isLocal_calculationWith (isLocal_value scope) opening

theorem isLocal_nextValue (scope : Scope) : IsLocal 1 (nextValue scope) :=
  IsLocal.bind (m := 1) (n := 0) isLocal_next (isLocal_value scope)

theorem isLocal_nextDrawable (scope : Scope) : IsLocal 1 (nextDrawable scope) :=
  IsLocal.bind (m := 1) (n := 0) (isLocal_nextValue scope) fun _ => isLocal_ofExcept _

end Expression

end DesignByNumbers
