import Mathlib.Logic.Relation
import DesignByNumbers.Proofs.Run

/-!
# Proofs.Reach — the points that a run passes

A run passes a point in front of each statement that it comes to, in the sequence itself and in every
block that it runs: a round of a loop, a block that a comparison guards, the body of a command. This
is told step by step, so that it is known of a run that goes on for ever as well.

* `Step`, `Reaches` — from one point to the next one, and on from there.
* `exists_enters_of_failed` — an instruction that fails does so in a block that it runs.
* `reaches_of_statements`, `reaches_of_done` — what was carried out leads to what follows it.
-/

namespace DesignByNumbers.Program

/-! ## Points -/

/-- A point of a run: the state, the tokens of the block at hand that are still to be run, and the
last token of that block. -/
structure Point where
  state : State
  rest : List Token
  last : Option Token

namespace Point

/-- The point at which the run of a token sequence starts. -/
def start (tokens : List Token) (state : State) : Point :=
  ⟨state, tokens, tokens.getLast?⟩

/-- The statement at a point is read as an instruction, in front of the tokens that follow it. -/
def Reads (point : Point) (instruction : Instruction) (following : List Token) : Prop :=
  ∃ head rest, point.rest = head :: rest ∧
    Instruction.ofStatement point.state.scope head point.last rest = .ok (instruction, following)

/-- The statement at a point is refused. -/
def Refuses (point : Point) (diagnostic : Diagnostic) : Prop :=
  ∃ head rest, point.rest = head :: rest ∧
    Instruction.ofStatement point.state.scope head point.last rest = .error diagnostic

end Point

/-- To carry out an instruction in a state starts the run of a block: of a loop for one of its
indices behind the rounds before it, of a comparison that held, or of a call. -/
inductive Enters (nested : Runner) (state : State) : Instruction → List Token → State → Prop
  | round {name text : String} {first last : Int} {block : List Token} {k : Nat} {between : State}
      (hCount : k < (last - first).natAbs + 1)
      (hBefore : rounds nested name block (if first ≤ last then 1 else -1) k first state =
        some (.done between))
      (hText : Numeral.print? (first + k * (if first ≤ last then 1 else -1)) = some text) :
      Enters nested state (.loop name first last block) block (between.bind name (.number text))
  | guarded (block : List Token) : Enters nested state (.check true block) block state
  | body (scope : Scope) (body : List Token) :
      Enters nested state (.call scope body) body { state with scope }

/-- A run goes from a point to the one behind the statement there, once that is carried out, or to
the start of a block that the statement runs. -/
inductive Step (point : Point) : Point → Prop
  | past {instruction : Instruction} {following : List Token} {between : State}
      (hRead : point.Reads instruction following)
      (hRun : execute run instruction point.state = some (.done between)) :
      Step point ⟨between, following, point.last⟩
  | into {instruction : Instruction} {following block : List Token} {inner : State}
      (hRead : point.Reads instruction following)
      (hEnters : Enters run point.state instruction block inner) : Step point (.start block inner)

/-- A run that is at the first point comes to the second one. -/
def Reaches : Point → Point → Prop :=
  Relation.ReflTransGen Step

/-! ## Blocks that fail -/

section Failed

variable {nested nested' : Runner} {state final : State} {failure : Failure}

theorem Enters.mono (hExtends : Extends nested nested') {instruction : Instruction}
    {block : List Token} {inner : State} (h : Enters nested state instruction block inner) :
    Enters nested' state instruction block inner := by
  cases h with
  | round hCount hBefore hText => exact .round hCount (rounds_mono hExtends hBefore) hText
  | guarded block => exact .guarded block
  | body scope => exact .body scope block

/-- Rounds fail in one of them, if their indices keep within the digit limit. -/
theorem exists_round_of_failed {name : String} {block : List Token} {step : Int} {count : Nat}
    {index : Int} (hIndices : ∀ k < count, (index + k * step).natAbs < 10 ^ Numeral.digitLimit)
    (h : rounds nested name block step count index state = some (.failed failure final)) :
    ∃ k < count, ∃ between text, rounds nested name block step k index state = some (.done between) ∧
      Numeral.print? (index + k * step) = some text ∧
      nested block (between.bind name (.number text)) = some (.failed failure final) := by
  induction count generalizing index state with
  | zero => cases h
  | succ count ih =>
    have hIndex := hIndices 0 (Nat.succ_pos count)
    rw [Int.natCast_zero, Int.zero_mul, Int.add_zero] at hIndex
    have hText := Numeral.print?_eq_some_iff.mpr ⟨hIndex, rfl⟩
    rw [rounds, hText] at h
    obtain ⟨round, hRound, hRest⟩ := Option.bind_eq_some_iff.mp h
    cases round with
    | failed failure' between =>
      cases hRest
      refine ⟨0, Nat.succ_pos count, state, _, rfl, ?_, hRound⟩
      rw [Int.natCast_zero, Int.zero_mul, Int.add_zero, hText]
    | done between =>
      -- the first round is one of those in front of the round that fails
      obtain ⟨k, hk, between', text, hBefore, hText', hFailed⟩ :=
        ih (fun k hk => by
          rw [index_succ]
          exact hIndices (k + 1) (Nat.succ_lt_succ hk)) hRest
      refine ⟨k + 1, Nat.succ_lt_succ hk, between', text, ?_, ?_, hFailed⟩
      · rw [rounds, hText]
        exact Option.bind_eq_some_iff.mpr ⟨.done between, hRound, hBefore⟩
      · rw [← index_succ, hText']

/-- An instruction that fails does so in a block that it runs, and nothing is drawn behind that. -/
theorem exists_enters_of_failed {instruction : Instruction} (hBounded : instruction.IsBounded)
    (h : execute nested instruction state = some (.failed failure final)) :
    ∃ block inner innerFinal, Enters nested state instruction block inner ∧
      nested block inner = some (.failed failure innerFinal) ∧ final.trace = innerFinal.trace := by
  cases instruction with
  | draw op => cases h
  | bind name binding => cases h
  | loop name first last block =>
    obtain ⟨k, hk, between, text, hBefore, hText, hFailed⟩ :=
      exists_round_of_failed (fun _ => natAbs_lt_of_isBounded hBounded) h
    exact ⟨block, _, final, .round hk hBefore hText, hFailed, rfl⟩
  | check held block =>
    cases held with
    | true => exact ⟨block, state, final, .guarded block, h, rfl⟩
    | false => cases h
  | call scope body =>
    obtain ⟨inner, hInner, hEnd⟩ := Option.bind_eq_some_iff.mp h
    cases inner with
    | done between => cases hEnd
    | failed failure' between =>
      cases hEnd
      exact ⟨body, _, between, .body scope body, hInner, rfl⟩

end Failed

/-! ## Ends of runs -/

/-- Statements that are all carried out lead to the tokens behind them. -/
theorem reaches_of_statements {last : Option Token} (last' : Option Token) {tokens : List Token}
    (others : List Token) {state final : State}
    (h : statements run last tokens state = some (.done final)) :
    Reaches ⟨state, tokens ++ others, last'⟩ ⟨final, others, last'⟩ := by
  fun_induction statements run last tokens state with
  | case1 state =>
    cases h
    exact .refl
  | case2 => cases h
  | case3 state head rest instruction following hRead ih =>
    obtain ⟨between, hExecute, hRest⟩ := bind_andThen_eq_done_iff.mp h
    -- the statement takes the same stretch in front of other tokens
    obtain ⟨stretch, -, rfl, hTakes⟩ :=
      Instruction.isLocal_ofStatement state.scope head last rest instruction following hRead
    have hStep : Step ⟨state, head :: (stretch ++ (following ++ others)), last'⟩
        ⟨between, following ++ others, last'⟩ :=
      .past ⟨head, _, rfl, hTakes last' (following ++ others)⟩ hExecute
    rw [List.cons_append, List.append_assoc]
    exact .head hStep (ih between hRest)

/-- A run that ends normally comes to the end of its tokens. -/
theorem reaches_of_done {tokens : List Token} {state final : State}
    (h : run tokens state = some (.done final)) :
    Reaches (.start tokens state) ⟨final, [], tokens.getLast?⟩ := by
  rw [run_eq] at h
  have hReaches := reaches_of_statements tokens.getLast? [] h
  rwa [List.append_nil] at hReaches

end DesignByNumbers.Program
