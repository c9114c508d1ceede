import DesignByNumbers.Proofs.Block
import DesignByNumbers.Proofs.Reach

/-!
# Proofs.Nesting — how deep blocks are nested

Braces that are open at once are counted in the text alone. A block that a statement takes from the
text stands between braces there, so that fewer blocks are open at once in it; the depth of a run
is the number of runs around it.

* `Encloses.nesting_lt` — a block is nested less deep than the text around it.
* `encloses_of_ofStatement` — the blocks of loops and comparisons stand in the text.
* `reaches_iff_reachesAt` — every point of a run has a depth.
-/

namespace DesignByNumbers

open Token (Content Reader content)

namespace Block

/-! ## Open blocks -/

/-- The greatest number of blocks that are open at once in a text, from the number of those in front
of it on. A brace that closes none of them is passed over. -/
def deepest : Nat → List Content → Nat
  | depth, [] => depth
  | depth, said :: rest =>
    if said = .symbol "\x7b" then deepest (depth + 1) rest
    else if said = .symbol "\x7d" then max depth (deepest (depth - 1) rest)
    else deepest depth rest

/-- How deep the blocks of a token sequence are nested. -/
def nesting (tokens : List Token) : Nat :=
  deepest 0 (tokens.map content)

theorem le_deepest (depth : Nat) (contents : List Content) : depth ≤ deepest depth contents := by
  fun_induction deepest depth contents with
  | case1 depth => exact Nat.le_refl depth
  | case2 depth rest ih => omega
  | case3 depth rest _ ih => exact Nat.le_max_left ..
  | case4 depth said rest _ _ ih => exact ih

/-- More blocks are open at once if there are more of them in front of the text. -/
theorem deepest_mono {depth depth' : Nat} (hLe : depth ≤ depth') (contents : List Content) :
    deepest depth contents ≤ deepest depth' contents := by
  induction contents generalizing depth depth' with
  | nil => exact hLe
  | cons said rest ih =>
    rw [deepest, deepest]
    split
    · exact ih (Nat.succ_le_succ hLe)
    · split
      · have hRest : deepest (depth - 1) rest ≤ deepest (depth' - 1) rest :=
          ih (Nat.sub_le_sub_right hLe 1)
        omega
      · exact ih hLe

theorem deepest_append_left (depth : Nat) (left right : List Content) :
    deepest depth left ≤ deepest depth (left ++ right) := by
  induction left generalizing depth with
  | nil => exact le_deepest depth right
  | cons said rest ih =>
    rw [List.cons_append, deepest, deepest]
    split
    · exact ih (depth + 1)
    · split
      · have hRest := ih (depth - 1)
        omega
      · exact ih depth

theorem deepest_append_right (depth : Nat) (left right : List Content) :
    deepest 0 right ≤ deepest depth (left ++ right) := by
  induction left generalizing depth with
  | nil => exact deepest_mono (Nat.zero_le depth) right
  | cons said rest ih =>
    rw [List.cons_append, deepest]
    split
    · exact ih (depth + 1)
    · split
      · exact Nat.le_trans (ih (depth - 1)) (Nat.le_max_right ..)
      · exact ih depth

/-- Blocks that are open all around a text are open at once with those in it. -/
theorem deepest_add {depth after : Nat} {contents : List Content}
    (h : depthAfter depth contents = some after) (around : Nat) :
    deepest (depth + around) contents = deepest depth contents + around := by
  -- in the cases of `depthAfter`, in which no brace closes a block around the text
  fun_induction depthAfter depth contents with
  | case1 depth => rfl
  | case2 depth rest ih =>
    have hOne : depth + around + 1 = depth + 1 + around := by omega
    rw [deepest, deepest, if_pos rfl, if_pos rfl, hOne, ih h]
  | case3 rest => cases h
  | case4 rest depth hOpen ih =>
    have hOne : depth + 1 + around - 1 = depth + around := by omega
    have hClosed : depth + 1 - 1 = depth := by omega
    rw [deepest, deepest, if_neg hOpen, if_neg hOpen, if_pos rfl, if_pos rfl, hOne, hClosed, ih h]
    omega
  | case5 depth said rest hOpen hClose ih =>
    rw [deepest, deepest, if_neg hOpen, if_neg hOpen, if_neg hClose, if_neg hClose, ih h]

/-! ## Blocks in a text -/

/-- A block stands behind an opening brace of a token sequence, up to the brace that closes it. -/
def Encloses (tokens block : List Token) : Prop :=
  ∃ before opening closing behind, tokens = before ++ opening :: (block ++ closing :: behind) ∧
    opening.content = .symbol "\x7b" ∧ IsBalanced (block.map content)

theorem nesting_append_right (before tokens : List Token) : nesting tokens ≤ nesting (before ++ tokens) := by
  rw [nesting, nesting, List.map_append]
  exact deepest_append_right 0 _ _

namespace Encloses

variable {tokens block : List Token}

theorem append (h : Encloses tokens block) (before : List Token) : Encloses (before ++ tokens) block := by
  obtain ⟨first, opening, closing, behind, rfl, hOpening, hBalanced⟩ := h
  exact ⟨before ++ first, opening, closing, behind, (List.append_assoc ..).symm, hOpening, hBalanced⟩

theorem mem (h : Encloses tokens block) : ∀ token ∈ block, token ∈ tokens := by
  obtain ⟨before, opening, closing, behind, rfl, -, -⟩ := h
  intro token hToken
  simp [hToken]

theorem length_lt (h : Encloses tokens block) : block.length < tokens.length := by
  obtain ⟨before, opening, closing, behind, rfl, -, -⟩ := h
  simp only [List.length_append, List.length_cons]
  omega

/-- A block is nested less deep than the text around it. -/
theorem nesting_lt (h : Encloses tokens block) : nesting block < nesting tokens := by
  obtain ⟨before, opening, closing, behind, rfl, hOpening, hBalanced⟩ := h
  -- the opening brace adds one open block to those of the block itself
  have hOne : deepest (0 + 1) (block.map content) = nesting block + 1 := deepest_add hBalanced 1
  have hBehind : nesting (opening :: (block ++ closing :: behind)) =
      deepest (0 + 1) (block.map content ++ (closing :: behind).map content) := by
    rw [nesting, List.map_cons, hOpening, deepest, if_pos rfl, List.map_append]
  have hBlock := deepest_append_left (0 + 1) (block.map content) ((closing :: behind).map content)
  have hBefore := nesting_append_right before (opening :: (block ++ closing :: behind))
  omega

end Encloses

/-- A block that was extracted stands between braces. -/
theorem encloses_of_extract {last : Option Token} {rest block following : List Token}
    (h : extract last rest = .ok (block, following)) : Encloses rest block := by
  obtain ⟨opening, between, hNext, hRest⟩ := Reader.bind_eq_ok_iff.mp h
  obtain rfl := Token.next_eq_ok_iff.mp hNext
  split at hRest
  next hOpening =>
    rw [behind] at hRest
    split at hRest
    next hSplit =>
      split at hRest
      next =>
        cases hRest
        obtain ⟨closing, rfl, -⟩ := splitAtClose_local hSplit
        exact ⟨[], opening, closing, following, rfl, Token.isSymbol_iff.mp hOpening,
          depthAfter_of_splitAtClose hSplit⟩
      next => cases hRest
    next => cases hRest
  next => cases hRest

end Block

/-! ## Blocks of statements -/

namespace Instruction

open Expression (nextValue)

/-- The block that an instruction took from the text. -/
def block? : Instruction → Option (List Token)
  | .loop _ _ _ block => some block
  | .check _ block => some block
  | _ => none

variable {scope : Scope} {head : Token} {last : Option Token} {rest following : List Token}
  {instruction : Instruction}

/-- A mark, two values and a block, as a loop and a comparison have them. -/
theorem encloses_of_ofBlock (construct : Construct) (accepts : Token → Prop) [DecidablePred accepts]
    (refusal : Token → Diagnostic)
    (finish : Token → Token → Token → List Token → Except Diagnostic Instruction)
    (h : (do
      construct.require head
      let mark ← Token.next
      if accepts mark then do
        let left ← nextValue scope
        let right ← nextValue scope
        let block ← Block.extract
        .ofExcept (finish mark left right block)
      else .fail (refusal mark) : Reader Instruction) last rest = .ok (instruction, following)) :
    ∃ mark left right block, finish mark left right block = .ok instruction ∧
      Block.Encloses rest block := by
  obtain ⟨_, between, hRequire, hMarked⟩ := Reader.bind_eq_ok_iff.mp h
  obtain rfl := Construct.eq_of_require hRequire
  obtain ⟨mark, behind, hMark, hValues⟩ := Reader.bind_eq_ok_iff.mp hMarked
  obtain rfl := Token.next_eq_ok_iff.mp hMark
  by_cases hAccepts : accepts mark
  · rw [if_pos hAccepts] at hValues
    obtain ⟨left, behindLeft, hLeft, hValue⟩ := Reader.bind_eq_ok_iff.mp hValues
    obtain ⟨right, behindRight, hRight, hTail⟩ := Reader.bind_eq_ok_iff.mp hValue
    obtain ⟨block, behindBlock, hBlock, hEnd⟩ := Reader.bind_eq_ok_iff.mp hTail
    obtain ⟨hFinish, -⟩ := Token.ofExcept_eq_ok_iff.mp hEnd
    -- the block stands behind the mark and the two values
    obtain ⟨before, -, rfl, -⟩ := Expression.isLocal_nextValue scope last behind left behindLeft hLeft
    obtain ⟨between, -, rfl, -⟩ :=
      Expression.isLocal_nextValue scope last behindLeft right behindRight hRight
    have hBehind := (Block.encloses_of_extract hBlock).append between
    exact ⟨mark, left, right, block, hFinish, hBehind.append (mark :: before)⟩
  · rw [if_neg hAccepts] at hValues
    cases hValues

theorem encloses_of_ofLoop {block : List Token}
    (hRead : ofLoop scope head last rest = .ok (instruction, following))
    (hBlock : instruction.block? = some block) : Block.Encloses rest block := by
  obtain ⟨counter, start, finish, inner, hLoop, hEncloses⟩ :=
    encloses_of_ofBlock .loop (fun counter => counter.kind = .word)
      (fun counter => .blame counter (.notALoopVariable counter.text))
      (fun counter => loopBetween counter.text) hRead
  obtain ⟨first, -, hLoop⟩ := Except.bind_eq_ok_iff.mp hLoop
  obtain ⟨final, -, hLoop⟩ := Except.bind_eq_ok_iff.mp hLoop
  cases hLoop
  cases hBlock
  exact hEncloses

theorem encloses_of_ofCheck {comparison : Comparison} {block : List Token}
    (hRead : ofCheck scope comparison head last rest = .ok (instruction, following))
    (hBlock : instruction.block? = some block) : Block.Encloses rest block := by
  obtain ⟨mark, left, right, inner, hCheck, hEncloses⟩ :=
    encloses_of_ofBlock (.check comparison) (fun mark => mark.isSymbol "?" = true)
      (fun mark => .blame mark (.missingQuestionMark comparison mark.text))
      (fun _ => guarded comparison) hRead
  obtain ⟨held, -, hCheck⟩ := Except.bind_eq_ok_iff.mp hCheck
  cases hCheck
  cases hBlock
  exact hEncloses

/-- A statement that is read begins with a word, and with a keyword it is read as that tells. -/
theorem ofKeyword_of_ofStatement
    (hRead : ofStatement scope head last rest = .ok (instruction, following)) :
    head.kind = .word ∧ ∀ keyword, Keyword.ofText? head.text = some keyword →
      ofKeyword scope keyword head last rest = .ok (instruction, following) := by
  rw [ofStatement] at hRead
  split at hRead
  next => cases hRead
  next hWord =>
    refine ⟨Decidable.not_not.mp hWord, fun keyword hKeyword => ?_⟩
    rw [hKeyword] at hRead
    exact hRead

/-- The blocks of loops and comparisons stand in the text behind the heads of their statements. -/
theorem encloses_of_ofStatement {block : List Token}
    (hRead : ofStatement scope head last rest = .ok (instruction, following))
    (hBlock : instruction.block? = some block) : Block.Encloses rest block := by
  obtain ⟨-, hKeyword⟩ := ofKeyword_of_ofStatement hRead
  have hForm := hasForm_of_ofStatement hRead
  generalize Keyword.ofText? head.text = keyword? at hForm hKeyword
  cases hForm with
  | loop name hFirst hLast block => exact encloses_of_ofLoop (hKeyword .loop rfl) hBlock
  | check comparison held block =>
    exact encloses_of_ofCheck (hKeyword (.check comparison) rfl) hBlock
  | _ => cases hBlock

end Instruction

/-! ## Depth of runs -/

namespace Program

/-- A run that is at a point comes to another one, a number of runs deeper. -/
inductive ReachesAt (start : Point) : Nat → Point → Prop
  | start : ReachesAt start 0 start
  | past {depth : Nat} {point : Point} {instruction : Instruction} {following : List Token}
      {between : State} (h : ReachesAt start depth point) (hRead : point.Reads instruction following)
      (hRun : execute run instruction point.state = some (.done between)) :
      ReachesAt start depth ⟨between, following, point.last⟩
  | into {depth : Nat} {point : Point} {instruction : Instruction} {following block : List Token}
      {inner : State} (h : ReachesAt start depth point) (hRead : point.Reads instruction following)
      (hEnters : Enters run point.state instruction block inner) :
      ReachesAt start (depth + 1) (.start block inner)

/-- Every point that a run comes to has a depth. -/
theorem reaches_iff_reachesAt {start point : Point} :
    Reaches start point ↔ ∃ depth, ReachesAt start depth point := by
  constructor
  · intro h
    induction h with
    | refl => exact ⟨0, .start⟩
    | tail _ hStep ih =>
      obtain ⟨depth, hDepth⟩ := ih
      cases hStep with
      | past hRead hRun => exact ⟨depth, hDepth.past hRead hRun⟩
      | into hRead hEnters => exact ⟨depth + 1, hDepth.into hRead hEnters⟩
  · rintro ⟨depth, h⟩
    induction h with
    | start => exact .refl
    | past _ hRead hRun ih => exact ih.tail (.past hRead hRun)
    | into _ hRead hEnters ih => exact ih.tail (.into hRead hEnters)

end Program

end DesignByNumbers
