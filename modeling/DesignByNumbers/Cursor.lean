import DesignByNumbers.Diagnostic

/-!
# Cursor — a read position in a token sequence

Reading never changes a cursor: it yields what was read and the cursor behind it. What
lies behind a position is forgotten by every reader, except for the last token of the
whole sequence, which is where an unexpected end is reported.

A reader that succeeds has looked at nothing but the stretch of tokens it took: this is
`Token.IsLocal`, with a lower bound on the length of that stretch, and the lemmas about it
follow the ways in which readers are put together.
-/

namespace DesignByNumbers

namespace Token

/-- A way to read a value from the tokens that follow, given the last token of the whole
sequence: it yields the value and the tokens behind it. -/
def Reader (α : Type) := Option Token → List Token → Except Diagnostic (α × List Token)

namespace Reader

variable {α β : Type}

/-- Reads nothing. -/
@[inline]
protected def pure (value : α) : Reader α := fun _ rest => .ok (value, rest)

/-- Reads one thing after another. -/
@[inline]
protected def bind (first : Reader α) (second : α → Reader β) : Reader β := fun last rest =>
  match first last rest with
  | .ok (value, rest) => second value last rest
  | .error diagnostic => .error diagnostic

instance : Monad Reader where
  pure := Reader.pure
  bind := Reader.bind

/-- Fails whatever follows. -/
@[inline]
def fail (diagnostic : Diagnostic) : Reader α := fun _ _ => .error diagnostic

/-- A result that does not depend on the tokens. -/
@[inline]
def ofExcept (result : Except Diagnostic α) : Reader α := fun _ rest =>
  match result with
  | .ok value => .ok (value, rest)
  | .error diagnostic => .error diagnostic

instance : MonadLift (Except Diagnostic) Reader := ⟨ofExcept⟩

@[simp]
theorem pure_apply (value : α) (last : Option Token) (rest : List Token) :
    (pure value : Reader α) last rest = .ok (value, rest) := rfl

@[simp]
theorem fail_apply (diagnostic : Diagnostic) (last : Option Token) (rest : List Token) :
    (fail diagnostic : Reader α) last rest = .error diagnostic := rfl

@[simp]
theorem ofExcept_ok (value : α) : ofExcept (.ok value) = (pure value : Reader α) := rfl

@[simp]
theorem ofExcept_error (diagnostic : Diagnostic) :
    ofExcept (.error diagnostic) = (fail diagnostic : Reader α) := rfl

/-- Two readers one after the other succeed when both do. -/
theorem bind_eq_ok_iff {first : Reader α} {second : α → Reader β} {last : Option Token}
    {rest : List Token} {result : β × List Token} :
    (first >>= second) last rest = .ok result ↔
      ∃ value between, first last rest = .ok (value, between) ∧
        second value last between = .ok result := by
  show Reader.bind first second last rest = .ok result ↔ _
  rw [Reader.bind]
  cases first last rest with
  | error diagnostic => simp
  | ok pair =>
    constructor
    · intro hSecond
      exact ⟨pair.1, pair.2, rfl, hSecond⟩
    · rintro ⟨value, between, hPair, hSecond⟩
      cases hPair
      exact hSecond

/-- Where the first of two readers succeeds, the second one goes on. -/
theorem bind_apply_of_ok {first : Reader α} (second : α → Reader β) {last : Option Token}
    {rest between : List Token} {value : α} (h : first last rest = .ok (value, between)) :
    (first >>= second) last rest = second value last between := by
  show Reader.bind first second last rest = _
  rw [Reader.bind, h]

/-- Where the first of two readers fails, both do. -/
theorem bind_apply_of_error {first : Reader α} (second : α → Reader β) {last : Option Token}
    {rest : List Token} {diagnostic : Diagnostic} (h : first last rest = .error diagnostic) :
    (first >>= second) last rest = .error diagnostic := by
  show Reader.bind first second last rest = _
  rw [Reader.bind, h]

end Reader

/-- The first of the tokens that follow. Where none does, the end is reported at the last
token of the sequence. -/
def next : Reader Token := fun last rest =>
  match rest with
  | [] => .error (.near last .unexpectedEnd)
  | token :: rest => .ok (token, rest)

/-- Whether fewer tokens than a number follow. No more than that number are looked at. -/
def fewerThan : Nat → List Token → Bool
  | 0, _ => false
  | _ + 1, [] => true
  | count + 1, _ :: rest => fewerThan count rest

theorem fewerThan_iff {count : Nat} {rest : List Token} :
    fewerThan count rest = true ↔ rest.length < count := by
  fun_induction fewerThan count rest <;> simp_all

/-! ## Extent -/

section Extent

variable {α β : Type}

/-- A reader takes a stretch of tokens and yields a value, whatever follows the stretch and
whichever token is the last of the sequence. -/
def Takes (reader : Reader α) (stretch : List Token) (value : α) : Prop :=
  ∀ last rest, reader last (stretch ++ rest) = .ok (value, rest)

/-- Where a reader succeeds it takes a stretch of at least `count` tokens. -/
def IsLocal (count : Nat) (reader : Reader α) : Prop :=
  ∀ last rest value following, reader last rest = .ok (value, following) →
    ∃ stretch, count ≤ stretch.length ∧ rest = stretch ++ following ∧
      Takes reader stretch value

theorem takes_pure (value : α) : Takes (pure value) [] value :=
  fun _ _ => rfl

theorem takes_next (token : Token) : Takes next [token] token :=
  fun _ _ => rfl

/-- What is taken one after the other is taken together. -/
theorem Takes.bind {first : Reader α} {second : α → Reader β} {left right : List Token}
    {middle : α} {value : β} (hFirst : Takes first left middle)
    (hSecond : Takes (second middle) right value) :
    Takes (first >>= second) (left ++ right) value := by
  intro last rest
  rw [List.append_assoc, Reader.bind_apply_of_ok second (hFirst last (right ++ rest))]
  exact hSecond last rest

/-- A second reader that takes no tokens leaves the stretch of the first one. -/
theorem Takes.bind_nil {first : Reader α} {second : α → Reader β} {stretch : List Token}
    {middle : α} {value : β} (hFirst : Takes first stretch middle)
    (hSecond : Takes (second middle) [] value) : Takes (first >>= second) stretch value := by
  rw [← List.append_nil stretch]
  exact hFirst.bind hSecond

/-- A token that is read first stands in front of what is taken behind it. -/
theorem Takes.afterNext {token : Token} {reader : Token → Reader α} {stretch : List Token}
    {value : α} (h : Takes (reader token) stretch value) :
    Takes (next >>= reader) (token :: stretch) value :=
  (takes_next token).bind h

theorem isLocal_pure (value : α) : IsLocal 0 (pure value) := by
  intro last rest result following hRead
  cases hRead
  exact ⟨[], Nat.le_refl 0, rfl, takes_pure value⟩

theorem isLocal_fail (count : Nat) (diagnostic : Diagnostic) :
    IsLocal count (Reader.fail (α := α) diagnostic) := by
  intro last rest value following hRead
  cases hRead

theorem isLocal_next : IsLocal 1 next := by
  intro last rest value following hRead
  cases rest with
  | nil => cases hRead
  | cons token rest =>
    cases hRead
    exact ⟨[value], Nat.le_refl 1, rfl, takes_next value⟩

theorem isLocal_ofExcept (result : Except Diagnostic α) :
    IsLocal 0 (Reader.ofExcept result) := by
  cases result with
  | error diagnostic => exact isLocal_fail 0 diagnostic
  | ok value => exact isLocal_pure value

theorem IsLocal.mono {m n : Nat} {reader : Reader α} (h : IsLocal m reader) (hLe : n ≤ m) :
    IsLocal n reader := by
  intro last rest value following hRead
  obtain ⟨stretch, hCount, hRest, hTakes⟩ := h last rest value following hRead
  exact ⟨stretch, Nat.le_trans hLe hCount, hRest, hTakes⟩

theorem IsLocal.bind {m n : Nat} {first : Reader α} {second : α → Reader β}
    (hFirst : IsLocal m first) (hSecond : ∀ value, IsLocal n (second value)) :
    IsLocal (m + n) (first >>= second) := by
  intro last rest value following hRead
  obtain ⟨middle, between, hMiddle, hLast⟩ := Reader.bind_eq_ok_iff.mp hRead
  obtain ⟨before, hBefore, rfl, hTakesBefore⟩ := hFirst last rest middle between hMiddle
  obtain ⟨behind, hBehind, rfl, hTakesBehind⟩ := hSecond middle last between value following hLast
  refine ⟨before ++ behind, ?_, (List.append_assoc ..).symm, hTakesBefore.bind hTakesBehind⟩
  rw [List.length_append]
  omega

/-- What is left behind a local reader is shorter by what it took. -/
theorem IsLocal.length_le {count : Nat} {reader : Reader α} (h : IsLocal count reader)
    {last : Option Token} {rest following : List Token} {value : α}
    (hRead : reader last rest = .ok (value, following)) :
    count + following.length ≤ rest.length := by
  obtain ⟨stretch, hCount, rfl, -⟩ := h last rest value following hRead
  rw [List.length_append]
  omega

end Extent

end Token

/-- A read position in a token sequence, which may lie behind its end. -/
structure Cursor where
  tokens : List Token
  position : Nat
deriving Repr, DecidableEq

namespace Cursor

def rest (cursor : Cursor) : List Token :=
  cursor.tokens.drop cursor.position

def last (cursor : Cursor) : Option Token :=
  cursor.tokens.getLast?

/-- How many tokens follow; negative behind the end. -/
def remaining (cursor : Cursor) : Int :=
  cursor.tokens.length - cursor.position

def isExhausted (cursor : Cursor) : Bool :=
  cursor.rest.isEmpty

def peek (cursor : Cursor) : Option Token :=
  cursor.rest.head?

/-- The cursor over the same sequence that is followed by the given number of tokens. -/
def before (cursor : Cursor) (count : Nat) : Cursor :=
  { cursor with position := cursor.tokens.length - count }

/-- Reads at the position, and moves behind what was read. -/
def read {α : Type} (cursor : Cursor) (reader : Token.Reader α) :
    Except Diagnostic (α × Cursor) :=
  match reader cursor.last cursor.rest with
  | .ok (value, rest) => .ok (value, cursor.before rest.length)
  | .error diagnostic => .error diagnostic

def take (cursor : Cursor) : Except Diagnostic (Token × Cursor) :=
  cursor.read Token.next

end Cursor

end DesignByNumbers
