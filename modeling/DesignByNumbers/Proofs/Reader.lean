import DesignByNumbers.Cursor

/-!
# Proofs.Reader — what readers yield

A reader yields values with a property when every value that it reads has it. Such properties
are passed on by the ways in which readers are put together, so that a proof follows the text
of a reader.

* `Yields.bind`, `yields_bind` — two readers one after the other.
-/

namespace DesignByNumbers

/-- Two results one after the other are there when both are. -/
theorem Except.bind_eq_ok_iff {ε α β : Type} {first : Except ε α} {second : α → Except ε β}
    {result : β} :
    first >>= second = .ok result ↔ ∃ value, first = .ok value ∧ second value = .ok result := by
  cases first with
  | error failure => simp [bind, Except.bind]
  | ok value => simp [bind, Except.bind]

open Token (Reader)

namespace Token

theorem next_eq_ok_iff {token : Token} {last : Option Token} {rest following : List Token} :
    next last rest = .ok (token, following) ↔ rest = token :: following := by
  cases rest with
  | nil => simp [next]
  | cons head rest => simp [next]

theorem ofExcept_eq_ok_iff {α : Type} {result : Except Diagnostic α} {value : α}
    {last : Option Token} {rest following : List Token} :
    Reader.ofExcept result last rest = .ok (value, following) ↔
      result = .ok value ∧ rest = following := by
  cases result with
  | error diagnostic => simp
  | ok value' => simp

section Yields

variable {α β : Type} {P : β → Prop}

/-- Every value that a reader reads has a property. -/
def Yields (P : α → Prop) (reader : Reader α) : Prop :=
  ∀ last rest value following, reader last rest = .ok (value, following) → P value

theorem yields_pure {value : β} (h : P value) : Yields P (pure value) := by
  intro last rest result following hRead
  cases hRead
  exact h

theorem yields_fail (diagnostic : Diagnostic) : Yields P (Reader.fail diagnostic) := by
  intro last rest value following hRead
  cases hRead

theorem yields_ofExcept {result : Except Diagnostic β} (h : ∀ value, result = .ok value → P value) :
    Yields P (Reader.ofExcept result) := by
  cases result with
  | error diagnostic => exact yields_fail diagnostic
  | ok value => exact yields_pure (h value rfl)

/-- What is read second depends on what was read first. -/
theorem Yields.bind {R : α → Prop} {first : Reader α} {second : α → Reader β}
    (hFirst : Yields R first) (hSecond : ∀ value, R value → Yields P (second value)) :
    Yields P (first >>= second) := by
  intro last rest value following hRead
  obtain ⟨middle, between, hMiddle, hLast⟩ := Reader.bind_eq_ok_iff.mp hRead
  exact hSecond middle (hFirst last rest middle between hMiddle) last between value following hLast

/-- What is read last decides, whatever was read first. -/
theorem yields_bind {first : Reader α} {second : α → Reader β} (h : ∀ value, Yields P (second value)) :
    Yields P (first >>= second) := by
  have hFirst : Yields (fun _ => True) first := fun _ _ _ _ _ => trivial
  exact hFirst.bind fun value _ => h value

end Yields

end Token

end DesignByNumbers
