import DesignByNumbers.Block
import DesignByNumbers.Proofs.Content

/-!
# Proofs.Block — braces in pairs

A text whose braces come in pairs passes through the search for a closing brace at any depth,
so that a block with such a text ends at its own brace.

* `depthAfter_append`, `IsBalanced.depthAfter_eq` — the number of open blocks behind a text.
* `splitAtClose_append` — the search behind a text goes on at that depth.
* `depthAfter_of_splitAtClose` — the braces of a block that was split off come in pairs.
* `takes_extract` — a text that can stand in a block is taken out of its braces as it stands.
-/

namespace DesignByNumbers.Block

open Token (Content content Takes)

/-- The number of open blocks behind a text, from the number of those in front of it. There
is none where the text closes more blocks than are open. -/
def depthAfter : Nat → List Content → Option Nat
  | depth, [] => some depth
  | depth, said :: rest =>
    if said = .symbol "\x7b" then depthAfter (depth + 1) rest
    else if said = .symbol "\x7d" then
      match depth with
      | 0 => none
      | depth + 1 => depthAfter depth rest
    else depthAfter depth rest

/-- Every block that a text opens is closed in it, and no other one. -/
def IsBalanced (contents : List Content) : Prop :=
  depthAfter 0 contents = some 0

instance (contents : List Content) : Decidable (IsBalanced contents) :=
  inferInstanceAs (Decidable (depthAfter 0 contents = some 0))

/-! ## Depth -/

@[simp]
theorem depthAfter_nil (depth : Nat) : depthAfter depth [] = some depth := by
  rw [depthAfter]

theorem depthAfter_opening (depth : Nat) (rest : List Content) :
    depthAfter depth (.symbol "\x7b" :: rest) = depthAfter (depth + 1) rest := by
  cases depth <;> simp [depthAfter]

theorem depthAfter_closing (depth : Nat) (rest : List Content) :
    depthAfter (depth + 1) (.symbol "\x7d" :: rest) = depthAfter depth rest := by
  rw [depthAfter, if_neg (by decide), if_pos rfl]

/-- A token that is no brace leaves the depth alone. -/
theorem depthAfter_other {said : Content} (hOpen : said ≠ .symbol "\x7b")
    (hClose : said ≠ .symbol "\x7d") (depth : Nat) (rest : List Content) :
    depthAfter depth (said :: rest) = depthAfter depth rest := by
  cases depth <;> simp [depthAfter, hOpen, hClose]

theorem depthAfter_append (depth : Nat) (left right : List Content) :
    depthAfter depth (left ++ right) =
      (depthAfter depth left).bind fun depth => depthAfter depth right := by
  fun_induction depthAfter depth left with
  | case1 depth => rfl
  | case2 depth rest ih => rw [List.cons_append, depthAfter_opening, ih]
  | case3 rest => rfl
  | case4 rest depth _ ih => rw [List.cons_append, depthAfter_closing, ih]
  | case5 depth said rest hOpen hClose ih =>
    rw [List.cons_append, depthAfter_other hOpen hClose, ih]

/-- Blocks that are open all around a text stay open. -/
theorem depthAfter_add {depth after : Nat} {contents : List Content}
    (h : depthAfter depth contents = some after) (around : Nat) :
    depthAfter (depth + around) contents = some (after + around) := by
  fun_induction depthAfter depth contents with
  | case1 depth =>
    cases h
    rw [depthAfter_nil]
  | case2 depth rest ih =>
    rw [depthAfter_opening, ← ih h]
    congr 1
    omega
  | case3 rest => cases h
  | case4 rest depth _ ih =>
    have hOne : depth + 1 + around = depth + around + 1 := by omega
    rw [hOne, depthAfter_closing, ih h]
  | case5 depth said rest hOpen hClose ih => rw [depthAfter_other hOpen hClose, ih h]

namespace IsBalanced

theorem depthAfter_eq {contents : List Content} (h : IsBalanced contents) (depth : Nat) :
    depthAfter depth contents = some depth := by
  have hAdd := depthAfter_add h depth
  rwa [Nat.zero_add] at hAdd

theorem nil : IsBalanced [] :=
  depthAfter_nil 0

/-- A token that is no brace can stand in front of a balanced text. -/
theorem cons {said : Content} {contents : List Content} (hOpen : said ≠ .symbol "\x7b")
    (hClose : said ≠ .symbol "\x7d") (h : IsBalanced contents) : IsBalanced (said :: contents) := by
  rw [IsBalanced, depthAfter_other hOpen hClose]
  exact h

theorem append {left right : List Content} (hLeft : IsBalanced left) (hRight : IsBalanced right) :
    IsBalanced (left ++ right) := by
  rw [IsBalanced, depthAfter_append, hLeft]
  exact hRight

theorem braces {contents : List Content} (h : IsBalanced contents) :
    IsBalanced (.symbol "\x7b" :: (contents ++ [.symbol "\x7d"])) := by
  rw [IsBalanced, depthAfter_opening, depthAfter_append, h.depthAfter_eq, Option.bind_some,
    depthAfter_closing, depthAfter_nil]

end IsBalanced

/-- A text that can stand in a block: balanced, and of well-formed tokens. -/
structure IsText (contents : List Content) : Prop where
  balanced : IsBalanced contents
  wellFormed : ∀ said ∈ contents, said.isWellFormed = true

namespace IsText

theorem nil : IsText [] where
  balanced := IsBalanced.nil
  wellFormed := by simp

theorem cons {said : Content} {contents : List Content} (hWellFormed : said.isWellFormed = true)
    (hOpen : said ≠ .symbol "\x7b") (hClose : said ≠ .symbol "\x7d") (h : IsText contents) :
    IsText (said :: contents) where
  balanced := h.balanced.cons hOpen hClose
  wellFormed := List.forall_mem_cons.mpr ⟨hWellFormed, h.wellFormed⟩

theorem word {text : String} {contents : List Content} (hWord : Token.isWord text.toList = true)
    (h : IsText contents) : IsText (.word text :: contents) :=
  h.cons hWord (by simp) (by simp)

theorem append {left right : List Content} (hLeft : IsText left) (hRight : IsText right) :
    IsText (left ++ right) where
  balanced := hLeft.balanced.append hRight.balanced
  wellFormed := List.forall_mem_append.mpr ⟨hLeft.wellFormed, hRight.wellFormed⟩

theorem braces {contents : List Content} (h : IsText contents) :
    IsText (.symbol "\x7b" :: (contents ++ [.symbol "\x7d"])) where
  balanced := h.balanced.braces
  wellFormed := by
    have hOpening : (Content.symbol "\x7b").isWellFormed = true := by decide +kernel
    have hClosing : ∀ said ∈ [Content.symbol "\x7d"], said.isWellFormed = true := by decide +kernel
    exact List.forall_mem_cons.mpr ⟨hOpening, List.forall_mem_append.mpr ⟨h.wellFormed, hClosing⟩⟩

end IsText

/-! ## Splitting -/

theorem splitAtClose_opening {token : Token} (h : token.content = .symbol "\x7b") (depth : Nat)
    (rest : List Token) :
    splitAtClose depth (token :: rest) =
      (splitAtClose (depth + 1) rest).map fun pair => (token :: pair.1, pair.2) := by
  cases depth <;> simp [splitAtClose, Token.isSymbol_iff.mpr h]

theorem splitAtClose_closing {token : Token} (h : token.content = .symbol "\x7d") (depth : Nat)
    (rest : List Token) :
    splitAtClose (depth + 1) (token :: rest) =
      (splitAtClose depth rest).map fun pair => (token :: pair.1, pair.2) := by
  simp [splitAtClose, Token.isSymbol, Token.kind_of_content h, Token.text_of_content h]

theorem splitAtClose_last {token : Token} (h : token.content = .symbol "\x7d")
    (rest : List Token) : splitAtClose 0 (token :: rest) = some ([], rest) := by
  simp [splitAtClose, Token.isSymbol, Token.kind_of_content h, Token.text_of_content h]

theorem splitAtClose_other {token : Token} (hOpen : token.content ≠ .symbol "\x7b")
    (hClose : token.content ≠ .symbol "\x7d") (depth : Nat) (rest : List Token) :
    splitAtClose depth (token :: rest) =
      (splitAtClose depth rest).map fun pair => (token :: pair.1, pair.2) := by
  have hNotOpen := mt Token.isSymbol_iff.mp hOpen
  have hNotClose := mt Token.isSymbol_iff.mp hClose
  cases depth <;> simp [splitAtClose, hNotOpen, hNotClose]

/-- The search for the closing brace passes a text, and goes on at the depth behind it. -/
theorem splitAtClose_append {depth after : Nat} {stretch : List Token}
    (h : depthAfter depth (stretch.map content) = some after) (rest : List Token) :
    splitAtClose depth (stretch ++ rest) =
      (splitAtClose after rest).map fun (block, beyond) => (stretch ++ block, beyond) := by
  induction stretch generalizing depth with
  | nil =>
    cases h
    simp
  | cons token stretch ih =>
    rw [List.map_cons] at h
    rw [List.cons_append]
    -- whatever the token does to the depth, it is the first one of the block
    by_cases hOpen : token.content = .symbol "\x7b"
    · rw [hOpen, depthAfter_opening] at h
      rw [splitAtClose_opening hOpen, ih h, Option.map_map]
      rfl
    · by_cases hClose : token.content = .symbol "\x7d"
      · cases depth with
        | zero =>
          -- it would end the block around the text
          simp [hClose, depthAfter] at h
        | succ depth =>
          rw [hClose, depthAfter_closing] at h
          rw [splitAtClose_closing hClose, ih h, Option.map_map]
          rfl
      · rw [depthAfter_other hOpen hClose] at h
        rw [splitAtClose_other hOpen hClose, ih h, Option.map_map]
        rfl

/-- The blocks that are open where the search starts are all closed in front of the brace that it
finds. -/
theorem depthAfter_of_splitAtClose {depth : Nat} {tokens block following : List Token}
    (h : splitAtClose depth tokens = some (block, following)) :
    depthAfter depth (block.map content) = some 0 := by
  induction tokens generalizing depth block with
  | nil => simp [splitAtClose] at h
  | cons token rest ih =>
    by_cases hOpen : token.content = .symbol "\x7b"
    · rw [splitAtClose_opening hOpen] at h
      obtain ⟨⟨inner, beyond⟩, hInner, hPair⟩ := Option.map_eq_some_iff.mp h
      cases hPair
      rw [List.map_cons, hOpen, depthAfter_opening]
      exact ih hInner
    · by_cases hClose : token.content = .symbol "\x7d"
      · cases depth with
        | zero =>
          rw [splitAtClose_last hClose] at h
          cases h
          rfl
        | succ depth =>
          rw [splitAtClose_closing hClose] at h
          obtain ⟨⟨inner, beyond⟩, hInner, hPair⟩ := Option.map_eq_some_iff.mp h
          cases hPair
          rw [List.map_cons, hClose, depthAfter_closing]
          exact ih hInner
      · rw [splitAtClose_other hOpen hClose] at h
        obtain ⟨⟨inner, beyond⟩, hInner, hPair⟩ := Option.map_eq_some_iff.mp h
        cases hPair
        rw [List.map_cons, depthAfter_other hOpen hClose]
        exact ih hInner

/-- The search for the closing brace of a balanced block ends behind the block. -/
theorem splitAtClose_block {block : List Token} {closing : Token} (hBlock : IsBalanced (block.map content))
    (hClosing : closing.content = .symbol "\x7d") (following : List Token) :
    splitAtClose 0 (block ++ closing :: following) = some (block, following) := by
  rw [splitAtClose_append hBlock, splitAtClose_last hClosing, Option.map_some]
  simp

/-- A text that can stand in a block is taken out of its braces as it stands. -/
theorem takes_extract {opening closing : Token} {block : List Token}
    (hOpening : opening.content = .symbol "\x7b") (hClosing : closing.content = .symbol "\x7d")
    (hText : IsText (block.map content)) :
    Takes extract (opening :: (block ++ [closing])) block := by
  refine Takes.afterNext ?_
  rw [if_pos (Token.isSymbol_iff.mpr hOpening)]
  intro last rest
  have hSplit := splitAtClose_block hText.balanced hClosing rest
  rw [List.append_assoc, List.singleton_append]
  simp only [behind, hSplit, Token.verify_eq_ok_iff.mpr hText.wellFormed]

end DesignByNumbers.Block
