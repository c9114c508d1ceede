import DesignByNumbers.Proofs.Block
import DesignByNumbers.Proofs.Reader

/-!
# Proofs.Block.Matching — the brace that closes a block

Which brace closes a block can be told by counting: between the two braces no beginning has more
closing braces than opening ones, and in all there are as many of both. At most one brace closes a
block in this sense, it is the one at which extraction ends, and it is the same one wherever a stretch
of the text that holds the block is looked at on its own.

* `isMatched_iff_isBalanced` — counting braces and following the depth come to the same.
* `Closes.unique` — at most one brace closes a block.
* `read_extract_eq_ok_iff` — extraction ends at that brace.
* `Closes.within` — the blocks in a block, looked at in the block alone.
-/

namespace DesignByNumbers.Block

open Token (content Reader)

/-! ## Counting braces -/

def openings (tokens : List Token) : Nat :=
  tokens.countP (·.isSymbol "\x7b")

def closings (tokens : List Token) : Nat :=
  tokens.countP (·.isSymbol "\x7d")

/-- No beginning of a stretch of tokens has more closing braces than opening ones, and the whole of
it has as many of both. -/
structure IsMatched (stretch : List Token) : Prop where
  initial : ∀ initial, initial <+: stretch → closings initial ≤ openings initial
  whole : openings stretch = closings stretch

section Count

variable {token : Token}

theorem openings_cons_of_opening (h : token.content = .symbol "\x7b") (rest : List Token) :
    openings (token :: rest) = openings rest + 1 :=
  List.countP_cons_of_pos (Token.isSymbol_iff.mpr h)

theorem openings_cons_of_ne (h : token.content ≠ .symbol "\x7b") (rest : List Token) :
    openings (token :: rest) = openings rest :=
  List.countP_cons_of_neg (mt Token.isSymbol_iff.mp h)

theorem closings_cons_of_closing (h : token.content = .symbol "\x7d") (rest : List Token) :
    closings (token :: rest) = closings rest + 1 :=
  List.countP_cons_of_pos (Token.isSymbol_iff.mpr h)

theorem closings_cons_of_ne (h : token.content ≠ .symbol "\x7d") (rest : List Token) :
    closings (token :: rest) = closings rest :=
  List.countP_cons_of_neg (mt Token.isSymbol_iff.mp h)

/-- What holds of all beginnings holds of the empty one and of those that have the first token. -/
theorem forall_prefix_cons {P : List Token → Prop} {rest : List Token} :
    (∀ initial, initial <+: token :: rest → P initial) ↔
      P [] ∧ ∀ initial, initial <+: rest → P (token :: initial) := by
  constructor
  · intro h
    exact ⟨h [] List.nil_prefix, fun initial hInitial =>
      h (token :: initial) ((List.prefix_cons_inj token).mpr hInitial)⟩
  · rintro ⟨hNil, hCons⟩ initial hInitial
    rcases List.prefix_cons_iff.mp hInitial with rfl | ⟨others, rfl, hOthers⟩
    · exact hNil
    · exact hCons others hOthers

/-- The depth behind a stretch is known if no beginning of it closes more blocks than are open, and
then it is what the braces of the stretch make of the depth in front of it. -/
theorem depthAfter_eq_some_iff {depth after : Nat} {stretch : List Token} :
    depthAfter depth (stretch.map content) = some after ↔
      (∀ initial, initial <+: stretch → closings initial ≤ depth + openings initial) ∧
        depth + openings stretch = after + closings stretch := by
  induction stretch generalizing depth with
  | nil => simp [openings, closings]
  | cons token rest ih =>
    have hNil : closings [] ≤ depth + openings [] := Nat.zero_le _
    rw [List.map_cons, forall_prefix_cons]
    simp only [hNil, true_and]
    by_cases hOpen : token.content = .symbol "\x7b"
    · have hClose : token.content ≠ .symbol "\x7d" := by simp [hOpen]
      rw [hOpen, depthAfter_opening, ih]
      simp only [openings_cons_of_opening hOpen, closings_cons_of_ne hClose, Nat.add_right_comm depth 1,
        Nat.add_assoc]
    · by_cases hClose : token.content = .symbol "\x7d"
      · simp only [openings_cons_of_ne hOpen, closings_cons_of_closing hClose]
        cases depth with
        | zero =>
          -- a beginning of one token closes a block that is not open
          have hFirst : ¬ ∀ initial, initial <+: rest → closings initial + 1 ≤ 0 + openings initial :=
            fun h => absurd (h [] List.nil_prefix) (by decide)
          rw [hClose, depthAfter, if_neg (by decide), if_pos rfl]
          exact iff_of_false (by rintro ⟨⟩) fun h => hFirst h.1
        | succ depth =>
          rw [hClose, depthAfter_closing, ih]
          refine and_congr (forall₂_congr fun initial _ => ?_) ?_ <;> omega
      · rw [depthAfter_other hOpen hClose, ih]
        simp only [openings_cons_of_ne hOpen, closings_cons_of_ne hClose]

/-- Counting braces and following the depth come to the same. -/
theorem isMatched_iff_isBalanced {stretch : List Token} :
    IsMatched stretch ↔ IsBalanced (stretch.map content) := by
  rw [IsBalanced, depthAfter_eq_some_iff]
  simp only [Nat.zero_add]
  exact ⟨fun h => ⟨h.initial, h.whole⟩, fun h => ⟨h.1, h.2⟩⟩

end Count

/-! ## Braces at positions -/

/-- A symbol stands at a position of a sequence. -/
def HasAt (tokens : List Token) (text : String) (position : Nat) : Prop :=
  ∃ token, tokens[position]? = some token ∧ token.isSymbol text = true

/-- The tokens between two positions, without those at the positions. -/
def between (tokens : List Token) (start finish : Nat) : List Token :=
  (tokens.take finish).drop (start + 1)

/-- The brace at the second position closes the block that the brace at the first one opens. -/
structure Closes (tokens : List Token) (start finish : Nat) : Prop where
  opening : HasAt tokens "\x7b" start
  closing : HasAt tokens "\x7d" finish
  lt : start < finish
  isMatched : IsMatched (between tokens start finish)

section Position

variable {tokens before block following : List Token} {opening closing : Token} {start finish : Nat}

theorem hasAt_append (h : opening.isSymbol "\x7b" = true) (rest : List Token) :
    HasAt (before ++ opening :: rest) "\x7b" before.length :=
  ⟨opening, by simp, h⟩

/-- A position at which a symbol stands parts the sequence. -/
theorem HasAt.exists_append {text : String} (h : HasAt tokens text start) :
    ∃ before token rest, tokens = before ++ token :: rest ∧ before.length = start ∧
      token.isSymbol text = true := by
  obtain ⟨token, hToken, hSymbol⟩ := h
  obtain ⟨hLess, rfl⟩ := List.getElem?_eq_some_iff.mp hToken
  refine ⟨tokens.take start, tokens[start], tokens.drop (start + 1), ?_, ?_, hSymbol⟩
  · rw [← List.drop_eq_getElem_cons hLess, List.take_append_drop]
  · rw [List.length_take, Nat.min_eq_left (Nat.le_of_lt hLess)]

theorem between_append :
    between (before ++ opening :: (block ++ closing :: following)) before.length
      (before.length + 1 + block.length) = block := by
  have hTake : (before ++ opening :: (block ++ closing :: following)).take
      (before.length + 1 + block.length) = before ++ opening :: block := by
    rw [Nat.add_assoc, List.take_length_add_append, Nat.add_comm 1, List.take_succ_cons,
      List.take_left]
  rw [between, hTake, List.drop_length_add_append, List.drop_succ_cons, List.drop_zero]

/-- A block between braces is closed by the second one. -/
theorem closes_append (hOpening : opening.isSymbol "\x7b" = true)
    (hClosing : closing.isSymbol "\x7d" = true) (hBlock : IsMatched block) :
    Closes (before ++ opening :: (block ++ closing :: following)) before.length
      (before.length + 1 + block.length) where
  opening := hasAt_append hOpening _
  closing := by
    refine ⟨closing, ?_, hClosing⟩
    rw [Nat.add_assoc, List.getElem?_append_right (Nat.le_add_right ..), Nat.add_sub_cancel_left,
      Nat.add_comm 1, List.getElem?_cons_succ, List.getElem?_append_right (Nat.le_refl _),
      Nat.sub_self, List.getElem?_cons_zero]
  lt := by omega
  isMatched := by
    rw [between_append]
    exact hBlock

/-- A block that a brace closes stands between braces. -/
theorem Closes.exists_append (h : Closes tokens start finish) :
    ∃ before opening block closing following,
      tokens = before ++ opening :: (block ++ closing :: following) ∧ before.length = start ∧
      start + 1 + block.length = finish ∧ between tokens start finish = block ∧
      opening.isSymbol "\x7b" = true ∧ closing.isSymbol "\x7d" = true ∧ IsMatched block := by
  obtain ⟨initial, closing, following, rfl, rfl, hClosing⟩ := h.closing.exists_append
  have hMatched := h.isMatched
  obtain ⟨opening, hGet, hOpening⟩ := h.opening
  -- the first brace stands in front of the second one
  rw [List.getElem?_append_left h.lt] at hGet
  obtain ⟨before, opening, block, rfl, rfl, hOpening⟩ :=
    HasAt.exists_append ⟨opening, hGet, hOpening⟩
  have hBetween : between (before ++ opening :: block ++ closing :: following) before.length
      (before ++ opening :: block).length = block := by
    rw [between, List.take_left, List.drop_length_add_append, List.drop_succ_cons, List.drop_zero]
  rw [hBetween] at hMatched
  refine ⟨before, opening, block, closing, following, ?_, rfl, ?_, hBetween, hOpening, hClosing, hMatched⟩
  · rw [List.append_assoc, List.cons_append]
  · rw [List.length_append, List.length_cons]
    omega

end Position

/-! ## Extraction -/

/-- The search for a closing brace ends at one. -/
theorem exists_closing_of_splitAtClose {depth : Nat} {tokens block following : List Token}
    (h : splitAtClose depth tokens = some (block, following)) :
    ∃ closing, tokens = block ++ closing :: following ∧ closing.isSymbol "\x7d" = true := by
  obtain ⟨closing, rfl, hLocal⟩ := splitAtClose_local h
  -- all blocks are closed in front of that token, which ends the search by itself
  have hEnd := hLocal []
  rw [splitAtClose_append (depthAfter_of_splitAtClose h)] at hEnd
  have hClosing : closing.isSymbol "\x7b" = false ∧ closing.isSymbol "\x7d" = true := by
    simpa [splitAtClose] using hEnd
  exact ⟨closing, rfl, hClosing.2⟩

/-- Of well-formed tokens a block is read when they start with one between its braces. -/
theorem extract_eq_ok_iff {last : Option Token} {rest block following : List Token}
    (hRest : ∀ token ∈ rest, token.isWellFormed = true) :
    extract last rest = .ok (block, following) ↔
      ∃ opening closing, rest = opening :: (block ++ closing :: following) ∧
        opening.isSymbol "\x7b" = true ∧ closing.isSymbol "\x7d" = true ∧ IsMatched block := by
  constructor
  · intro h
    obtain ⟨opening, between, hNext, hBehind⟩ := Reader.bind_eq_ok_iff.mp h
    obtain rfl := Token.next_eq_ok_iff.mp hNext
    split at hBehind
    next hOpening =>
      rw [behind] at hBehind
      split at hBehind
      next hSplit =>
        split at hBehind
        next =>
          cases hBehind
          obtain ⟨closing, rfl, hClosing⟩ := exists_closing_of_splitAtClose hSplit
          have hBalanced : IsBalanced (block.map content) := depthAfter_of_splitAtClose hSplit
          exact ⟨opening, closing, rfl, hOpening, hClosing, isMatched_iff_isBalanced.mpr hBalanced⟩
        next => cases hBehind
      next => cases hBehind
    next => cases hBehind
  · rintro ⟨opening, closing, rfl, hOpening, hClosing, hMatched⟩
    have hText : IsText (block.map content) :=
      { balanced := isMatched_iff_isBalanced.mp hMatched
        wellFormed := List.forall_mem_map.mpr fun token hToken => hRest token (by simp [hToken]) }
    have hTakes := takes_extract (Token.isSymbol_iff.mp hOpening) (Token.isSymbol_iff.mp hClosing)
      hText last following
    rwa [List.cons_append, List.append_assoc, List.singleton_append] at hTakes

/-- A cursor that reads moves to where the tokens behind it start. -/
theorem read_eq_ok_iff {α : Type} {reader : Reader α} {cursor cursor' : Cursor} {value : α} :
    cursor.read reader = .ok (value, cursor') ↔
      ∃ following, reader cursor.last cursor.rest = .ok (value, following) ∧
        cursor' = cursor.before following.length := by
  rw [Cursor.read]
  cases reader cursor.last cursor.rest with
  | error diagnostic => simp
  | ok pair =>
    obtain ⟨value', following⟩ := pair
    simp [eq_comm, and_assoc]

section Read

variable {tokens : List Token} {start finish : Nat}

/-- In verified tokens the block that is read at a position is the one that a brace closes, and the
cursor moves behind that brace. -/
theorem read_extract_eq_ok_iff (hTokens : Token.verify tokens = .ok ()) {block : List Token}
    {cursor : Cursor} :
    (Cursor.mk tokens start).read extract = .ok (block, cursor) ↔
      ∃ finish, Closes tokens start finish ∧ block = between tokens start finish ∧
        cursor = ⟨tokens, finish + 1⟩ := by
  have hRest : ∀ token ∈ tokens.drop start, token.isWellFormed = true :=
    fun token hToken => Token.isWellFormed_of_verify hTokens token (List.mem_of_mem_drop hToken)
  rw [read_eq_ok_iff]
  simp only [Cursor.rest, extract_eq_ok_iff hRest]
  constructor
  · rintro ⟨following, ⟨opening, closing, hDrop, hOpening, hClosing, hMatched⟩, rfl⟩
    have hAppend := List.take_append_drop start tokens
    have hLength : (tokens.take start).length = start := by
      have hSome : 0 < (tokens.drop start).length := by simp [hDrop]
      rw [List.length_drop] at hSome
      rw [List.length_take]
      omega
    rw [hDrop] at hAppend
    generalize tokens.take start = before at hAppend hLength
    subst hAppend hLength
    refine ⟨_, closes_append hOpening hClosing hMatched, between_append.symm, ?_⟩
    -- as many tokens are left as follow the closing brace
    simp only [Cursor.before, List.length_append, List.length_cons, Cursor.mk.injEq, true_and]
    omega
  · rintro ⟨finish, hCloses, rfl, rfl⟩
    obtain ⟨before, opening, block, closing, following, rfl, rfl, rfl, hBetween, hOpening, hClosing,
      hMatched⟩ := hCloses.exists_append
    rw [hBetween, List.drop_left]
    refine ⟨following, ⟨opening, closing, rfl, hOpening, hClosing, hMatched⟩, ?_⟩
    simp only [Cursor.before, List.length_append, List.length_cons, Cursor.mk.injEq, true_and]
    omega

end Read

/-! ## Blocks in blocks -/

/-- A search ends in tokens that leave no more blocks open than there are around the search. -/
theorem exists_splitAtClose {around depth after : Nat} {tokens : List Token}
    (h : depthAfter (around + depth + 1) (tokens.map content) = some after) (hLe : after ≤ around) :
    ∃ block following, splitAtClose depth tokens = some (block, following) := by
  induction tokens generalizing depth with
  | nil =>
    rw [List.map_nil, depthAfter_nil, Option.some.injEq] at h
    omega
  | cons token rest ih =>
    -- a token that belongs to the block stands in front of what is found behind it
    have hCons : ∀ depth', depthAfter (around + depth' + 1) (rest.map content) = some after →
        splitAtClose depth (token :: rest) =
          (splitAtClose depth' rest).map (fun pair => (token :: pair.1, pair.2)) →
        ∃ block following, splitAtClose depth (token :: rest) = some (block, following) := by
      intro depth' hAfter hSplit
      obtain ⟨block, following, hRest⟩ := ih hAfter
      exact ⟨token :: block, following, by rw [hSplit, hRest, Option.map_some]⟩
    rw [List.map_cons] at h
    by_cases hOpen : token.content = .symbol "\x7b"
    · rw [hOpen, depthAfter_opening] at h
      exact hCons (depth + 1) h (splitAtClose_opening hOpen depth rest)
    · by_cases hClose : token.content = .symbol "\x7d"
      · cases depth with
        | zero => exact ⟨[], rest, splitAtClose_last hClose rest⟩
        | succ depth =>
          rw [hClose, depthAfter_closing] at h
          exact hCons depth h (splitAtClose_closing hClose depth rest)
      · rw [depthAfter_other hOpen hClose] at h
        exact hCons depth h (splitAtClose_other hOpen hClose depth rest)

/-- A block that is opened in a balanced text is closed in it. -/
theorem IsBalanced.exists_splitAtClose {before rest : List Token} {opening : Token}
    (h : IsBalanced ((before ++ opening :: rest).map content)) (hOpening : opening.isSymbol "\x7b" = true) :
    ∃ block following, splitAtClose 0 rest = some (block, following) := by
  rw [IsBalanced, List.map_append, List.map_cons, Token.isSymbol_iff.mp hOpening,
    depthAfter_append] at h
  obtain ⟨depth, -, hRest⟩ := Option.bind_eq_some_iff.mp h
  rw [depthAfter_opening] at hRest
  exact Block.exists_splitAtClose hRest (Nat.zero_le depth)

namespace Closes

variable {tokens : List Token} {start finish : Nat}

/-- The search for a closing brace ends behind the block. -/
theorem splitAtClose_eq (h : Closes tokens start finish) :
    splitAtClose 0 (tokens.drop (start + 1)) =
        some (between tokens start finish, tokens.drop (finish + 1)) ∧
      start + 1 + (between tokens start finish).length = finish := by
  obtain ⟨before, opening, block, closing, following, rfl, rfl, rfl, hBetween, -, hClosing,
    hMatched⟩ := h.exists_append
  have hBlock := splitAtClose_block (isMatched_iff_isBalanced.mp hMatched)
    (Token.isSymbol_iff.mp hClosing) following
  refine ⟨?_, by rw [hBetween]⟩
  have hFollowing : (before ++ opening :: (block ++ closing :: following)).drop
      (before.length + 1 + block.length + 1) = following := by
    rw [Nat.add_assoc, Nat.add_assoc, List.drop_length_add_append, Nat.add_comm 1,
      List.drop_succ_cons, List.drop_length_add_append, List.drop_succ_cons, List.drop_zero]
  rw [hBetween, hFollowing, List.drop_length_add_append, List.drop_succ_cons, List.drop_zero, hBlock]

/-- At most one brace closes a block. -/
theorem unique (h : Closes tokens start finish) {finish' : Nat} (h' : Closes tokens start finish') :
    finish = finish' := by
  obtain ⟨hSplit, hLength⟩ := h.splitAtClose_eq
  obtain ⟨hSplit', hLength'⟩ := h'.splitAtClose_eq
  -- the search ends once, so that the blocks are as long as each other
  have hBlocks : between tokens start finish = between tokens start finish' := by
    rw [hSplit] at hSplit'
    exact (Prod.mk.inj (Option.some.inj hSplit')).1
  rw [← hLength, ← hLength', hBlocks]

/-- A block that is opened in another one is closed in it, and its tokens are the same where the
other one is looked at alone. -/
theorem within (h : Closes tokens start finish) {position : Nat} (hStart : start < position)
    (hFinish : position < finish) (hOpening : HasAt tokens "\x7b" position) :
    ∃ inner < finish, Closes tokens position inner ∧
      Closes (between tokens start finish) (position - start - 1) (inner - start - 1) ∧
      between (between tokens start finish) (position - start - 1) (inner - start - 1) =
        between tokens position inner := by
  obtain ⟨before, outer, block, closing, following, rfl, rfl, rfl, hBetween, -, -, hMatched⟩ :=
    h.exists_append
  rw [hBetween]
  -- the brace stands in the block
  obtain ⟨k, rfl⟩ : ∃ k, position = before.length + (k + 1) := ⟨position - before.length - 1, by omega⟩
  have hPosition : before.length + (k + 1) - before.length - 1 = k := by omega
  obtain ⟨token, hGet, hToken⟩ := hOpening
  rw [List.getElem?_append_right (Nat.le_add_right ..), Nat.add_sub_cancel_left,
    List.getElem?_cons_succ, List.getElem?_append_left (by omega)] at hGet
  obtain ⟨initial, opening, rest, rfl, rfl, hOpening⟩ := HasAt.exists_append ⟨token, hGet, hToken⟩
  obtain ⟨inner, beyond, hSplit⟩ :=
    (isMatched_iff_isBalanced.mp hMatched).exists_splitAtClose hOpening
  have hInner : IsMatched inner := isMatched_iff_isBalanced.mpr (depthAfter_of_splitAtClose hSplit)
  obtain ⟨innerClosing, rfl, hClosing⟩ := exists_closing_of_splitAtClose hSplit
  -- looked at in all tokens, the block has more in front of it and behind it
  have hTokens : before ++ outer :: (initial ++ opening :: (inner ++ innerClosing :: beyond) ++
      closing :: following) = (before ++ outer :: initial) ++
        opening :: (inner ++ innerClosing :: (beyond ++ closing :: following)) := by
    simp only [List.append_assoc, List.cons_append]
  have hLength : (before ++ outer :: initial).length = before.length + (initial.length + 1) := by
    rw [List.length_append, List.length_cons]
  have hEnd : before.length + (initial.length + 1) + 1 + inner.length - before.length - 1 =
      initial.length + 1 + inner.length := by omega
  refine ⟨before.length + (initial.length + 1) + 1 + inner.length, ?_, ?_, ?_, ?_⟩
  · simp only [List.length_append, List.length_cons]
    omega
  · rw [hTokens, ← hLength]
    exact closes_append hOpening hClosing hInner
  · rw [hPosition, hEnd]
    exact closes_append hOpening hClosing hInner
  · rw [hPosition, hEnd, between_append, hTokens, ← hLength, between_append]

end Closes

end DesignByNumbers.Block
