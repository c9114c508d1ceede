import DesignByNumbers.Expression
import DesignByNumbers.Proofs.Content

/-!
# Proofs.Report — what readers answer

From tokens with a property a reader answers with a value of which something is known, or it
reports a problem at the place of one of those tokens. What a reader answers follows from the way
in which it is put together, so that a proof follows the text of the reader.

A reader is given a number that the tokens in front of it fall short of. This is how a reader that
calls itself on what follows a token is known to come to an end.

* `Diagnostic.IsReport` — the problems that reading can report, with their places.
* `Answers.bind`, `answers_next_bind` — two readers one after the other.
-/

namespace DesignByNumbers

open Token (Reader next)

/-- A problem at the place of a token with a property: one of the program, a token with which no
value starts, or a token whose text does not have the shape of its kind. -/
inductive Diagnostic.IsReport (Q : Token → Prop) : Diagnostic → Prop
  | input {problem : Problem} {token : Token} (hToken : Q token) (h : problem.category = .input) :
      IsReport Q (.blame token problem)
  | notAValue {token : Token} (hToken : Q token) (hWord : token.kind ≠ .word)
      (hNumber : token.kind ≠ .number) (hMinus : token.isSymbol "-" = false)
      (hOpening : token.isSymbol "(" = false) : IsReport Q (.blame token (.notAValue token.text))
  | malformed {token : Token} (hToken : Q token) (h : token.isWellFormed = false) :
      IsReport Q (.blame token token.defect)

/-- Whatever is reported stands at one of the tokens. -/
theorem Diagnostic.IsReport.exists_location {Q : Token → Prop} {diagnostic : Diagnostic}
    (h : diagnostic.IsReport Q) : ∃ token, Q token ∧ diagnostic.location = some token.location := by
  cases h with
  | input hToken => exact ⟨_, hToken, rfl⟩
  | notAValue hToken => exact ⟨_, hToken, rfl⟩
  | malformed hToken => exact ⟨_, hToken, rfl⟩

/-- A result is a value with a property or a report. -/
inductive IsAnswer {α : Type} (Q : Token → Prop) (P : α → Prop) : Except Diagnostic α → Prop
  | ok {value : α} (h : P value) : IsAnswer Q P (.ok value)
  | error {diagnostic : Diagnostic} (h : diagnostic.IsReport Q) : IsAnswer Q P (.error diagnostic)

/-- From fewer than `count` tokens with a property, and more of them up to a last one, a reader
reads a value with a property and leaves such tokens behind, or it reports a problem. -/
def Answers {α : Type} (count : Nat) (Q : Token → Prop) (P : α → Prop) (reader : Reader α) : Prop :=
  ∀ last rest, Q last → rest.length < count → (∀ token ∈ rest, Q token) →
    IsAnswer Q (fun pair => P pair.1 ∧ pair.2.length < count ∧ ∀ token ∈ pair.2, Q token)
      (reader (some last) rest)

section Answers

variable {α β : Type} {Q : Token → Prop} {P : α → Prop} {R : β → Prop} {count : Nat}

theorem IsAnswer.bind {first : Except Diagnostic α} {second : α → Except Diagnostic β}
    (hFirst : IsAnswer Q P first) (hSecond : ∀ value, P value → IsAnswer Q R (second value)) :
    IsAnswer Q R (first >>= second) := by
  cases hFirst with
  | ok hValue => exact hSecond _ hValue
  | error hReport => exact .error hReport

theorem IsAnswer.imp {P' : α → Prop} {result : Except Diagnostic α} (h : IsAnswer Q P result)
    (hImp : ∀ value, P value → P' value) : IsAnswer Q P' result := by
  cases h with
  | ok hValue => exact .ok (hImp _ hValue)
  | error hReport => exact .error hReport

theorem answers_pure {value : α} (h : P value) : Answers count Q P (pure value) :=
  fun _ _ _ hCount hRest => .ok ⟨h, hCount, hRest⟩

theorem answers_fail {diagnostic : Diagnostic} (h : diagnostic.IsReport Q) :
    Answers count Q P (Reader.fail diagnostic) :=
  fun _ _ _ _ _ => .error h

theorem answers_ofExcept {result : Except Diagnostic α} (h : IsAnswer Q P result) :
    Answers count Q P (Reader.ofExcept result) := by
  cases h with
  | ok hValue => exact answers_pure hValue
  | error hReport => exact answers_fail hReport

theorem answers_next : Answers count Q Q next := by
  intro last rest hLast hCount hRest
  cases rest with
  | nil => exact .error (.input hLast rfl)
  | cons token rest =>
    obtain ⟨hToken, hRest⟩ := List.forall_mem_cons.mp hRest
    exact .ok ⟨hToken, Nat.lt_of_succ_lt hCount, hRest⟩

/-- What is read second depends on what was read first. -/
theorem Answers.bind {first : Reader α} {second : α → Reader β} (hFirst : Answers count Q P first)
    (hSecond : ∀ value, P value → Answers count Q R (second value)) :
    Answers count Q R (first >>= second) := by
  intro last rest hLast hCount hRest
  have hAnswer := hFirst last rest hLast hCount hRest
  -- the second reader starts where the first one stopped, or is never asked
  show IsAnswer Q _ (Reader.bind first second (some last) rest)
  rw [Reader.bind]
  generalize first (some last) rest = result at hAnswer
  cases hAnswer with
  | ok hPair => exact hSecond _ hPair.1 last _ hLast hPair.2.1 hPair.2.2
  | error hReport => exact .error hReport

/-- Fewer tokens are left for what is read behind a token. -/
theorem answers_next_bind {reader : Token → Reader α}
    (h : ∀ token, Q token → Answers count Q P (reader token)) :
    Answers (count + 1) Q P (next >>= reader) := by
  intro last rest hLast hCount hRest
  cases rest with
  | nil => exact .error (.input hLast rfl)
  | cons token rest =>
    obtain ⟨hToken, hRest⟩ := List.forall_mem_cons.mp hRest
    have hAnswer := h token hToken last rest hLast (Nat.lt_of_succ_lt_succ hCount) hRest
    exact hAnswer.imp fun _ hPair => ⟨hPair.1, Nat.lt_succ_of_lt hPair.2.1, hPair.2.2⟩

end Answers

end DesignByNumbers
