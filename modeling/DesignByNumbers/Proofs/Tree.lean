import DesignByNumbers.Proofs.Content
import DesignByNumbers.Proofs.Numeral
import DesignByNumbers.Scope
import DesignByNumbers.Expression

/-!
# Proofs.Tree — values as trees

A value has a tree: a number, a name, a negated tree, or an operation between two trees. The
tree is written as tokens whose places do not matter, and evaluated without reading anything:
a negation edits a text, a calculation goes through the integers of its operands.

* `Value.append_injective` — no tree is written as a proper prefix of another.
* `Value.isPlain_of_eval` — what a tree evaluates to is a plain numeral.
* `Value.integer?_of_eval` — it stands for the integer of the tree.
-/

namespace DesignByNumbers

/-- The symbol of an operation. -/
def Operation.symbol : Operation → String
  | .add => "+"
  | .subtract => "-"
  | .multiply => "*"
  | .divide => "/"

namespace Scope

/-- The number that a name means. -/
def numberText? (scope : Scope) (name : String) : Option String :=
  match scope.get? name with
  | some (.number text) => some text
  | _ => none

/-- The numbers of a scope are plain numerals. -/
def IsPlain (scope : Scope) : Prop :=
  ∀ name text, (name, Binding.number text) ∈ scope.bindings.toList → Numeral.isPlain text = true

end Scope

namespace Tree

open Token (Content)

/-- The text of a word. -/
abbrev Word := { text : String // Token.isWord text.toList = true }

/-- The text of an unsigned number. -/
abbrev Digits := { text : String // Numeral.isDigits text.toList = true }

/-- The tree of a value. -/
inductive Value
  | number (digits : Digits)
  | name (word : Word)
  | negation (operand : Value)
  | calculation (left : Value) (operation : Operation) (right : Value)
deriving DecidableEq

/-- The text of an operation between two plain numerals: that of the exact result, where the
operands and the result keep within the digit limit and nothing is divided by zero. -/
def calculate (operation : Operation) (left right : String) : Option String :=
  if Numeral.digitCount left ≤ Numeral.digitLimit ∧ Numeral.digitCount right ≤ Numeral.digitLimit then
    match operation.result? (Numeral.integer left) (Numeral.integer right) with
    | some result =>
      if Numeral.digitCount (Numeral.decimal result) ≤ Numeral.digitLimit then
        some (Numeral.decimal result)
      else none
    | none => none
  else none

namespace Value

/-- The tokens of a tree, wherever they stand. -/
def contents : Value → List Content
  | .number digits => [.number digits.val]
  | .name word => [.word word.val]
  | .negation operand => .symbol "-" :: operand.contents
  | .calculation left operation right =>
    .symbol "(" :: (left.contents ++ .symbol operation.symbol :: (right.contents ++ [.symbol ")"]))

variable (numbers : String → Option String)

/-- The text that a tree evaluates to, given the numbers that names mean. -/
def eval : Value → Option String
  | .number digits => some digits.val
  | .name word => numbers word.val
  | .negation operand => do
    let text ← operand.eval
    return Numeral.negate text
  | .calculation left operation right => do
    let leftText ← left.eval
    let rightText ← right.eval
    calculate operation leftText rightText

/-- The integer of a tree, in which nothing has a limit. -/
def integer? : Value → Option Int
  | .number digits => some (Numeral.integer digits.val)
  | .name word => (numbers word.val).map Numeral.integer
  | .negation operand => do
    let value ← operand.integer?
    return -value
  | .calculation left operation right => do
    let leftValue ← left.integer?
    let rightValue ← right.integer?
    operation.result? leftValue rightValue

/-! ## Written form -/

theorem contents_ne_nil (tree : Value) : tree.contents ≠ [] := by
  cases tree <;> simp [contents]

theorem symbol_injective {operation operation' : Operation}
    (h : operation.symbol = operation'.symbol) : operation = operation' := by
  cases operation <;> cases operation' <;> first | rfl | exact absurd h (by decide)

/-- No tree is written as a proper prefix of another, so a text starts with at most one. -/
theorem append_injective {tree tree' : Value} {rest rest' : List Content}
    (h : tree.contents ++ rest = tree'.contents ++ rest') : tree = tree' ∧ rest = rest' := by
  -- the first token tells the four forms apart
  induction tree generalizing tree' rest rest' with
  | number digits =>
    cases tree' with
    | number digits' =>
      simp only [contents, List.cons_append, List.nil_append, List.cons.injEq,
        Content.mk.injEq] at h
      exact ⟨by rw [Subtype.ext h.1.2], h.2⟩
    | name word => simp [contents] at h
    | negation operand => simp [contents] at h
    | calculation left operation right => simp [contents] at h
  | name word =>
    cases tree' with
    | number digits => simp [contents] at h
    | name word' =>
      simp only [contents, List.cons_append, List.nil_append, List.cons.injEq,
        Content.mk.injEq] at h
      exact ⟨by rw [Subtype.ext h.1.2], h.2⟩
    | negation operand => simp [contents] at h
    | calculation left operation right => simp [contents] at h
  | negation operand ih =>
    cases tree' with
    | number digits => simp [contents] at h
    | name word => simp [contents] at h
    | negation operand' =>
      simp only [contents, List.cons_append, List.cons.injEq, true_and] at h
      obtain ⟨rfl, hRest⟩ := ih h
      exact ⟨rfl, hRest⟩
    | calculation left operation right => simp [contents] at h
  | calculation left operation right ihLeft ihRight =>
    cases tree' with
    | number digits => simp [contents] at h
    | name word => simp [contents] at h
    | negation operand => simp [contents] at h
    | calculation left' operation' right' =>
      simp only [contents, List.cons_append, List.append_assoc, List.cons.injEq,
        true_and] at h
      -- equal left operands leave equal operators and right operands behind them
      obtain ⟨rfl, hBehindLeft⟩ := ihLeft h
      simp only [List.cons.injEq, Content.mk.injEq, true_and] at hBehindLeft
      obtain rfl := symbol_injective hBehindLeft.1
      obtain ⟨rfl, hBehindRight⟩ := ihRight hBehindLeft.2
      simp only [List.nil_append, List.cons.injEq, true_and] at hBehindRight
      exact ⟨rfl, hBehindRight⟩

/-! ## Value -/

variable {numbers}

theorem isPlain_of_isDigits {text : String} (h : Numeral.isDigits text.toList = true) :
    Numeral.isPlain text = true :=
  Numeral.isPlain_iff.mpr ⟨text.toList, h, .inr String.ofList_toList.symm⟩

theorem calculate_eq_some_iff {operation : Operation} {left right text : String} :
    calculate operation left right = some text ↔
      Numeral.digitCount left ≤ Numeral.digitLimit ∧ Numeral.digitCount right ≤ Numeral.digitLimit ∧
        ∃ result, operation.result? (Numeral.integer left) (Numeral.integer right) = some result ∧
          Numeral.digitCount (Numeral.decimal result) ≤ Numeral.digitLimit ∧
          text = Numeral.decimal result := by
  rw [calculate]
  constructor
  · intro h
    split at h
    next hOperands =>
      split at h
      next result hResult =>
        split at h
        next hDigits => exact ⟨hOperands.1, hOperands.2, result, hResult, hDigits, by cases h; rfl⟩
        next => cases h
      next => cases h
    next => cases h
  · rintro ⟨hLeft, hRight, result, hResult, hDigits, rfl⟩
    simp [hLeft, hRight, hResult, hDigits]

/-- A tree evaluates to a plain numeral where the names mean plain numerals. -/
theorem isPlain_of_eval (hNumbers : ∀ name text, numbers name = some text →
      Numeral.isPlain text = true) {tree : Value} {text : String}
    (h : tree.eval numbers = some text) : Numeral.isPlain text = true := by
  induction tree generalizing text with
  | number digits =>
    cases h
    exact isPlain_of_isDigits digits.property
  | name word => exact hNumbers word.val text h
  | negation operand ih =>
    obtain ⟨inner, hInner, hText⟩ := Option.bind_eq_some_iff.mp h
    cases hText
    exact Numeral.isPlain_negate (ih hInner)
  | calculation left operation right ihLeft ihRight =>
    -- the result is printed, whatever the operands are
    obtain ⟨leftText, -, h⟩ := Option.bind_eq_some_iff.mp h
    obtain ⟨rightText, -, h⟩ := Option.bind_eq_some_iff.mp h
    obtain ⟨-, -, result, -, -, rfl⟩ := calculate_eq_some_iff.mp h
    exact Numeral.isPlain_decimal result

/-- What a tree evaluates to stands for the integer of the tree. -/
theorem integer?_of_eval (hNumbers : ∀ name text, numbers name = some text →
      Numeral.isPlain text = true) {tree : Value} {text : String}
    (h : tree.eval numbers = some text) : tree.integer? numbers = some (Numeral.integer text) := by
  induction tree generalizing text with
  | number digits =>
    cases h
    rfl
  | name word =>
    rw [integer?, show numbers word.val = some text from h, Option.map_some]
  | negation operand ih =>
    obtain ⟨inner, hInner, hText⟩ := Option.bind_eq_some_iff.mp h
    cases hText
    rw [integer?, ih hInner, Numeral.integer_negate (isPlain_of_eval hNumbers hInner)]
    rfl
  | calculation left operation right ihLeft ihRight =>
    obtain ⟨leftText, hLeft, h⟩ := Option.bind_eq_some_iff.mp h
    obtain ⟨rightText, hRight, h⟩ := Option.bind_eq_some_iff.mp h
    obtain ⟨-, -, result, hResult, -, rfl⟩ := calculate_eq_some_iff.mp h
    rw [integer?, ihLeft hLeft, ihRight hRight, Numeral.integer_decimal]
    exact hResult

end Value

end Tree

end DesignByNumbers
