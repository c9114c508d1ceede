import DesignByNumbers.Cursor

/-!
# Block — stretches of tokens between braces

A block is taken out of a token sequence as it stands, without its outer braces, to be
run later and any number of times.
-/

namespace DesignByNumbers.Block

/-- Splits a sequence at the closing brace that ends an open block, the given number of
inner blocks being open too. -/
def splitAtClose : Nat → List Token → Option (List Token × List Token)
  | _, [] => none
  | depth, token :: rest =>
    if token.isSymbol "\x7b" then
      (splitAtClose (depth + 1) rest).map fun (block, rest) => (token :: block, rest)
    else if token.isSymbol "\x7d" then
      match depth with
      | 0 => some ([], rest)
      | depth + 1 => (splitAtClose depth rest).map fun (block, rest) => (token :: block, rest)
    else (splitAtClose depth rest).map fun (block, rest) => (token :: block, rest)

/-- Reads a block behind its opening brace. Its tokens are verified once it is known to end;
a block that does not end is reported at the last token of the sequence, or at its brace if
that is the last. -/
def behind (opening : Token) : Token.Reader (List Token) := fun last rest =>
  match splitAtClose 0 rest with
  | some (block, rest) =>
    match Token.verify block with
    | .ok () => .ok (block, rest)
    | .error diagnostic => .error diagnostic
  | none => .error (.near (if rest.isEmpty then some opening else last) .blockNotClosed)

/-- Reads a block. -/
def extract : Token.Reader (List Token) := do
  let opening ← Token.next
  if opening.isSymbol "\x7b" then behind opening
  else .fail (.blame opening (.blockNotOpened opening.text))

/-! ## Extent -/

/-- A token either ends the block or belongs to it, whatever follows. -/
theorem splitAtClose_cons (depth : Nat) (token : Token) :
    (∀ rest, splitAtClose depth (token :: rest) = some ([], rest)) ∨
      ∃ depth', ∀ rest, splitAtClose depth (token :: rest) =
        (splitAtClose depth' rest).map fun pair => (token :: pair.1, pair.2) := by
  by_cases hOpen : token.isSymbol "\x7b"
  · exact .inr ⟨depth + 1, fun rest => by cases depth <;> simp [splitAtClose, hOpen]⟩
  · by_cases hClose : token.isSymbol "\x7d"
    · cases depth with
      | zero => exact .inl fun rest => by simp [splitAtClose, hOpen, hClose]
      | succ depth => exact .inr ⟨depth, fun rest => by simp [splitAtClose, hOpen, hClose]⟩
    · exact .inr ⟨depth, fun rest => by cases depth <;> simp [splitAtClose, hOpen, hClose]⟩

/-- The split at the closing brace depends on nothing behind that brace. -/
theorem splitAtClose_local {depth : Nat} {tokens block following : List Token}
    (h : splitAtClose depth tokens = some (block, following)) :
    ∃ closing, tokens = block ++ closing :: following ∧
      ∀ rest, splitAtClose depth (block ++ closing :: rest) = some (block, rest) := by
  induction tokens generalizing depth block following with
  | nil => simp [splitAtClose] at h
  | cons token tokens ih =>
    rcases splitAtClose_cons depth token with hEnd | ⟨depth', hKeep⟩
    · rw [hEnd] at h
      cases h
      exact ⟨token, rfl, hEnd⟩
    · rw [hKeep] at h
      obtain ⟨⟨inner, beyond⟩, hInner, hPair⟩ := Option.map_eq_some_iff.mp h
      cases hPair
      obtain ⟨closing, hTokens, hRest⟩ := ih hInner
      refine ⟨closing, by rw [hTokens, List.cons_append], fun rest => ?_⟩
      rw [List.cons_append, hKeep, hRest, Option.map_some]

theorem isLocal_behind (opening : Token) : Token.IsLocal 1 (behind opening) := by
  intro last rest value following hRead
  cases hSplit : splitAtClose 0 rest with
  | none => simp [behind, hSplit] at hRead
  | some pair =>
    obtain ⟨block, beyond⟩ := pair
    cases hVerify : Token.verify block with
    | error diagnostic => simp [behind, hSplit, hVerify] at hRead
    | ok _ =>
      simp only [behind, hSplit, hVerify, Except.ok.injEq, Prod.mk.injEq] at hRead
      obtain ⟨rfl, rfl⟩ := hRead
      obtain ⟨closing, hRest, hLocal⟩ := splitAtClose_local hSplit
      refine ⟨block ++ [closing], by simp, by simp [hRest], fun last rest => ?_⟩
      simp [behind, hLocal, hVerify]

theorem isLocal_extract : Token.IsLocal 2 extract := by
  refine Token.IsLocal.bind (m := 1) (n := 1) Token.isLocal_next fun opening => ?_
  split
  · exact isLocal_behind opening
  · exact Token.isLocal_fail 1 _

end DesignByNumbers.Block
