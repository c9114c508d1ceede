import DesignByNumbers.Proofs.Prelude
import Mathlib.Data.List.Range

/-!
# Proofs.Unrolling — a loop is its rounds written out

A loop does what its rounds do when they are written out: for each integer from one bound to the
other, an assignment of the integer to the name of the loop, and then the block as a run of its
own. The bounds are converted before the first round and the name is bound again at the start of
each, so that nothing depends on what the block does to any of the names.

* `rounds_eq_runInTurn` — the rounds of a loop, by induction on their number.
* `takes_loop` — a loop is read in every scope in which its bounds resolve.
* `run_loop` — a loop and its unrolling.
-/

namespace DesignByNumbers

open Token (Takes content ofSource)

/-- A stretch of tokens is read as a value, whatever follows it, and the value is an integer
within the digit limit. -/
def Expression.Resolves (scope : Scope) (stretch : List Token) (value : Int) : Prop :=
  ∃ number, Takes (nextValue scope) stretch number ∧ number.integer = .ok value

namespace Program

/-- Runs token sequences one after the other, each in the state left by the one before, up to the
first one that fails. -/
def runInTurn : List (List Token) → State → Option Outcome
  | [], state => some (.done state)
  | tokens :: others, state =>
    (run tokens state).bind fun outcome => outcome.andThen (runInTurn others)

/-- The entry that gives a name an integer. -/
def indexEntry (name : Tree.Word) (index : Int) : Entry where
  name := name
  value := Numeral.decimal index
  isPlain := Numeral.isPlain_decimal index

/-- One round of a loop written out: the assignment of the index, and the block. -/
def round (name : Tree.Word) (block : List Token) (index : Int) : List (List Token) :=
  [ofSource (indexEntry name index).text, block]

/-- The integers from one bound to the other, in either direction. -/
def indices (first last : Int) : List Int :=
  (List.range ((last - first).natAbs + 1)).map fun k : Nat =>
    if first ≤ last then first + k else first - k

/-- A loop written out, round after round. -/
def unrolling (name : Tree.Word) (first last : Int) (block : List Token) : List (List Token) :=
  (indices first last).flatMap (round name block)

/-! ## Indices -/

theorem length_indices (first last : Int) :
    (indices first last).length = (last - first).natAbs + 1 := by
  rw [indices, List.length_map, List.length_range]

theorem head?_indices (first last : Int) : (indices first last).head? = some first := by
  rw [indices, List.range_succ_eq_map, List.map_cons, List.head?_cons]
  simp

theorem getLast?_indices (first last : Int) : (indices first last).getLast? = some last := by
  rw [indices, List.range_succ, List.map_append, List.map_singleton, List.getLast?_concat]
  split <;> congr 1 <;> omega

/-- Each index is followed by the next integer towards the last one. -/
theorem isChain_indices (first last : Int) :
    (indices first last).IsChain fun k next => next = if first ≤ last then k + 1 else k - 1 := by
  rw [indices, List.isChain_map, List.isChain_range_succ]
  intro k _
  split <;> omega

/-! ## Rounds -/

variable {name : Tree.Word} {block : List Token} {state : State}

/-- The assignment of an index binds it. -/
theorem run_indexEntry (name : Tree.Word) (index : Int) (state : State) :
    run (ofSource (indexEntry name index).text) state =
      some (.done (state.bind name.val (.number (Numeral.decimal index)))) := by
  have hRun := (indexEntry name index).run_text 0 state
  rwa [Token.below_zero] at hRun

/-- A round that is run first binds the index, runs the block and leaves the rest to be run. -/
theorem runInTurn_round (index : Int) (others : List (List Token)) :
    runInTurn (round name block index ++ others) state =
      (run block (state.bind name.val (.number (Numeral.decimal index)))).bind fun outcome =>
        outcome.andThen (runInTurn others) := by
  rw [round, List.cons_append, runInTurn, run_indexEntry]
  rfl

/-- The rounds of a loop whose indices keep within the digit limit. -/
theorem rounds_eq_runInTurn {step : Int} {count : Nat} {index : Int}
    (hIndices : ∀ k < count, (index + k * step).natAbs < 10 ^ Numeral.digitLimit) :
    rounds run name.val block step count index state =
      runInTurn ((List.range count).flatMap fun k : Nat => round name block (index + k * step)) state := by
  induction count generalizing index state with
  | zero => rfl
  | succ count ih =>
    have hIndex := hIndices 0 (Nat.succ_pos count)
    have hFirst : index + ((0 : Nat) : Int) * step = index := by
      rw [Int.natCast_zero, Int.zero_mul, Int.add_zero]
    rw [hFirst] at hIndex
    -- what is left are the rounds from the next index on
    have hRest : ∀ k < count, (index + step + k * step).natAbs < 10 ^ Numeral.digitLimit := by
      intro k hk
      rw [index_succ]
      exact hIndices (k + 1) (Nat.succ_lt_succ hk)
    rw [rounds, Numeral.print?_eq_some_iff.mpr ⟨hIndex, rfl⟩, List.range_succ_eq_map,
      List.flatMap_cons, hFirst, runInTurn_round, List.flatMap_map]
    simp only [Nat.succ_eq_add_one, ← index_succ]
    exact congrArg _ (funext fun outcome => congrArg _ (funext fun between => ih hRest))

/-- A loop is carried out as its unrolling. -/
theorem execute_loop {first last : Int}
    (hBounded : (Instruction.loop name.val first last block).IsBounded) :
    execute run (.loop name.val first last block) state =
      runInTurn (unrolling name first last block) state := by
  have hIndices : ∀ k : Nat, first + k * (if first ≤ last then 1 else -1) =
      if first ≤ last then first + k else first - k := by
    intro k
    split <;> omega
  rw [execute, rounds_eq_runInTurn fun _ => natAbs_lt_of_isBounded hBounded, unrolling, indices,
    List.flatMap_map]
  simp only [hIndices]

end Program

/-! ## Loops -/

section Loop

variable {scope : Scope} {head counter opening closing : Token} {start finish block : List Token}
  {name : String} {first last : Int}

/-- A loop is read in every scope in which its bounds resolve. -/
theorem Instruction.takes_loop (hHead : head.content = .word Keyword.loop.text)
    (hCounter : counter.content = .word name) (hStart : Expression.Resolves scope start first)
    (hFinish : Expression.Resolves scope finish last) (hOpening : opening.content = .symbol "\x7b")
    (hClosing : closing.content = .symbol "\x7d") (hBlock : IsBlock block) :
    Takes (ofStatement scope head)
      (counter :: (start ++ (finish ++ opening :: (block ++ [closing]))))
      (.loop name first last block) := by
  obtain ⟨startNumber, hTakesStart, hFirst⟩ := hStart
  obtain ⟨finishNumber, hTakesFinish, hLast⟩ := hFinish
  have hLoop : loopBetween name startNumber finishNumber block =
      .ok (.loop name first last block) := by
    rw [loopBetween, hFirst, hLast]
    rfl
  have hKind : counter.kind = .word := Token.kind_of_content hCounter
  have hText : counter.text = name := Token.text_of_content hCounter
  have hStartLength := (Expression.isLocal_nextValue scope).length_le (hTakesStart none [])
  have hFinishLength := (Expression.isLocal_nextValue scope).length_le (hTakesFinish none [])
  refine Tree.takes_ofKeyword .loop hHead (Construct.loop.takes_require head ?_ (Takes.afterNext ?_))
  · simp only [Construct.minimumLength, List.length_append, List.length_cons, List.length_nil]
      at hStartLength hFinishLength ⊢
    omega
  · rw [if_pos hKind, hText]
    refine hTakesStart.bind (hTakesFinish.bind ?_)
    refine (Block.takes_extract hOpening hClosing hBlock).bind_nil ?_
    rw [hLoop]
    exact Token.takes_pure _

end Loop

namespace Program

/-- A loop does what its rounds do when they are written out and run in turn: one for each integer
from the first bound to the last one, whatever the block does to the name of the loop, to the names
in the bounds or to any other one. The two end alike, also where a round fails, or neither ends. -/
theorem run_loop {state : State} {head counter opening closing : Token}
    {start finish block : List Token} {name : Tree.Word} {first last : Int}
    (hHead : head.content = .word "Repeat") (hCounter : counter.content = .word name.val)
    (hStart : Expression.Resolves state.scope start first)
    (hFinish : Expression.Resolves state.scope finish last)
    (hOpening : opening.content = .symbol "\x7b") (hClosing : closing.content = .symbol "\x7d")
    (hBlock : IsBlock block) :
    run (head :: counter :: (start ++ (finish ++ opening :: (block ++ [closing])))) state =
        runInTurn (unrolling name first last block) state ∧
      (indices first last).length = (last - first).natAbs + 1 ∧
      (indices first last).head? = some first ∧ (indices first last).getLast? = some last ∧
      (indices first last).IsChain fun k next => next = if first ≤ last then k + 1 else k - 1 := by
  have hRead := Instruction.takes_loop hHead hCounter hStart hFinish hOpening hClosing hBlock
    (head :: counter :: (start ++ (finish ++ opening :: (block ++ [closing])))).getLast? []
  rw [List.append_nil] at hRead
  have hBounded := (Instruction.hasForm_of_ofStatement hRead).isBounded
  refine ⟨?_, length_indices first last, head?_indices first last, getLast?_indices first last,
    isChain_indices first last⟩
  rw [run_single hRead, execute_loop hBounded]

/-- A loop downwards over zero, whose block gives new numbers to the name and to a bound, and fails
in the second round. -/
theorem run_loop_of_division :
    let state : State := .initial ⟨.ofList [("n", .number "1")]⟩
    let tokens := ofSource "Repeat i n -1 \x7b Set n 9 Pen (6 / i) Set i n \x7d"
    let block := (tokens.drop 6).dropLast
    indices 1 (-1) = [1, 0, -1] ∧
      run tokens state = runInTurn (unrolling ⟨"i", by decide +kernel⟩ 1 (-1) block) state := by
  intro state tokens block
  obtain ⟨head, counter, n, minus, one, opening, closing, hTokens, hHead, hCounter, hName, hNumber,
      hFirst, hMinus, hOne, hLast, hOpening, hClosing, hBalanced, hWellFormed⟩ :
      ∃ head counter n minus one opening closing,
        tokens = head :: counter :: ([n] ++ ([minus, one] ++ opening :: (block ++ [closing]))) ∧
        head.content = .word "Repeat" ∧ counter.content = .word "i" ∧
        n.kind = .word ∧ state.scope.number n = .ok "1" ∧
        (n.withNumber "1").integer = .ok 1 ∧ minus.content = .symbol "-" ∧ one.kind = .number ∧
        ({ one with text := Numeral.negate one.text } : Token).integer = .ok (-1) ∧
        opening.content = .symbol "\x7b" ∧ closing.content = .symbol "\x7d" ∧
        Block.IsBalanced (block.map content) ∧
          ∀ said ∈ block.map content, said.isWellFormed = true :=
    ⟨tokens[0]!, tokens[1]!, tokens[2]!, tokens[3]!, tokens[4]!, tokens[5]!, tokens[18]!,
      by decide +kernel⟩
  have hStart : Expression.Resolves state.scope [n] 1 :=
    ⟨_, Expression.takes_name hName hNumber, hFirst⟩
  have hFinish : Expression.Resolves state.scope [minus, one] (-1) :=
    ⟨_, Expression.takes_negated hMinus (Expression.takes_number state.scope hOne), hLast⟩
  refine ⟨by decide, ?_⟩
  rw [hTokens]
  exact (run_loop hHead hCounter hStart hFinish hOpening hClosing ⟨hBalanced, hWellFormed⟩).1

end Program

end DesignByNumbers
