import DesignByNumbers.Proofs.Nesting
import DesignByNumbers.Token.Lexer

/-!
# Proofs.Termination — programs without commands come to an end

A loop runs a finite number of rounds, whatever becomes of the variable that it counts in, and a
block is shorter than the text around it. Only a command can run its own text again, so that a
program that neither knows nor defines one comes to an end, normally or with an error. Where no
command is known when a run starts, none is when it ends.

* `Instruction.lacksCommands_of_ofStatement` — what a statement can be without commands.
* `endsOn_run` — such runs end, by induction on the length of their tokens.
* `nesting_of_reachesAt` — a run is never deeper than the braces of its text.
* `run_ends` — programs without commands.
-/

namespace DesignByNumbers

open Token (Content content)

/-- No name means a command. -/
def Scope.LacksCommands (scope : Scope) : Prop :=
  ∀ name command, scope.get? name ≠ some (.command command)

/-- No token is the word that begins a definition. -/
def LacksDefinitions (tokens : List Token) : Prop :=
  ∀ token ∈ tokens, token.content ≠ .word Keyword.define.text

/-- A number keeps a scope without commands. -/
theorem Scope.LacksCommands.bind {scope : Scope} (h : scope.LacksCommands) (name text : String) :
    (scope.bind name (.number text)).LacksCommands := by
  intro name' command hCommand
  replace hCommand : (scope.bindings.insert name (.number text)).get? name' = some (.command command) :=
    hCommand
  rw [NameMap.get?_insert] at hCommand
  split at hCommand
  next => cases hCommand
  next => exact h name' command hCommand

theorem LacksDefinitions.of_subset {tokens tokens' : List Token} (h : LacksDefinitions tokens)
    (hSubset : ∀ token ∈ tokens', token ∈ tokens) : LacksDefinitions tokens' :=
  fun token hToken => h token (hSubset token hToken)

namespace Keyword

theorem eq_text_of_ofText? {text : String} {keyword : Keyword} (h : ofText? text = some keyword) :
    text = keyword.text := by
  have hFound := List.find?_some h
  exact (beq_iff_eq.mp hFound).symm

end Keyword

namespace Instruction

/-- What a statement can stand for where no command is known or defined. -/
inductive LacksCommands : Instruction → Prop
  | draw (op : DrawOp) : LacksCommands (.draw op)
  | assign (name text : String) : LacksCommands (.bind name (.number text))
  | loop (name : String) (first last : Int) (block : List Token) :
      LacksCommands (.loop name first last block)
  | check (held : Bool) (block : List Token) : LacksCommands (.check held block)

/-- A statement that does not define a command is no call where there is none. -/
theorem lacksCommands_of_ofStatement {scope : Scope} {head : Token} {last : Option Token}
    {rest following : List Token} {instruction : Instruction} (hScope : scope.LacksCommands)
    (hHead : head.content ≠ .word Keyword.define.text)
    (hRead : ofStatement scope head last rest = .ok (instruction, following)) :
    instruction.LacksCommands := by
  have hForm := hasForm_of_ofStatement hRead
  generalize hKeyword : Keyword.ofText? head.text = keyword? at hForm
  cases hForm with
  | paper colour => exact .draw _
  | pen colour => exact .draw _
  | line x0 y0 x1 y1 => exact .draw _
  | dot x y colour => exact .draw _
  | assign name text => exact .assign name text
  | loop name hFirst hLast block => exact .loop name _ _ block
  | check comparison held block => exact .check held block
  | define command hFree hNew =>
    -- its head would be the word of a definition
    refine absurd ?_ hHead
    rw [content, (ofKeyword_of_ofStatement hRead).1, Keyword.eq_text_of_ofText? hKeyword]
  | call hCommand hBindings hChild => exact absurd hCommand (hScope _ _)

end Instruction

namespace Program

/-! ## Termination -/

/-- All runs of a block that start without commands end, and end without commands. -/
def EndsOn (nested : Runner) (block : List Token) : Prop :=
  ∀ state, state.scope.LacksCommands →
    ∃ outcome, nested block state = some outcome ∧ outcome.state.scope.LacksCommands

section Nested

variable {nested : Runner}

/-- Of two runs, the second one of which starts where the first one ends, both end. -/
theorem exists_andThen {outcome : Outcome} {next : State → Option Outcome}
    (hOutcome : outcome.state.scope.LacksCommands)
    (hNext : ∀ state, state.scope.LacksCommands →
      ∃ final, next state = some final ∧ final.state.scope.LacksCommands) :
    ∃ final, outcome.andThen next = some final ∧ final.state.scope.LacksCommands := by
  cases outcome with
  | done state => exact hNext state hOutcome
  | failed failure state => exact ⟨.failed failure state, rfl, hOutcome⟩

/-- The rounds of a loop come to an end, by induction on the number of those that are left. -/
theorem exists_rounds {block : List Token} (hBlock : EndsOn nested block) (name : String) (step : Int)
    (count : Nat) (index : Int) {state : State} (hState : state.scope.LacksCommands) :
    ∃ outcome, rounds nested name block step count index state = some outcome ∧
      outcome.state.scope.LacksCommands := by
  induction count generalizing index state with
  | zero => exact ⟨.done state, rfl, hState⟩
  | succ count ih =>
    rw [rounds]
    cases Numeral.print? index with
    | none => exact ⟨.failed .unconvertible state, rfl, hState⟩
    | some text =>
      obtain ⟨round, hRound, hEnd⟩ := hBlock (state.bind name (.number text)) (hState.bind name text)
      obtain ⟨final, hFinal, hLacks⟩ :=
        exists_andThen hEnd fun between hBetween => ih (index + step) hBetween
      exact ⟨final, Option.bind_eq_some_iff.mpr ⟨round, hRound, hFinal⟩, hLacks⟩

theorem exists_execute {instruction : Instruction} (h : instruction.LacksCommands)
    (hBlock : ∀ block, instruction.block? = some block → EndsOn nested block) {state : State}
    (hState : state.scope.LacksCommands) :
    ∃ outcome, execute nested instruction state = some outcome ∧
      outcome.state.scope.LacksCommands := by
  cases h with
  | draw op => exact ⟨_, rfl, hState⟩
  | assign name text => exact ⟨_, rfl, hState.bind name text⟩
  | loop name first last block => exact exists_rounds (hBlock block rfl) name _ _ first hState
  | check held block =>
    cases held with
    | true => exact hBlock block rfl state hState
    | false => exact ⟨_, rfl, hState⟩

/-- Statements come to an end if the runs of all shorter blocks do. -/
theorem exists_statements {length : Nat}
    (hNested : ∀ block : List Token, block.length < length → LacksDefinitions block → EndsOn nested block)
    {last : Option Token} {tokens : List Token} (hLength : tokens.length ≤ length)
    (hTokens : LacksDefinitions tokens) {state : State} (hState : state.scope.LacksCommands) :
    ∃ outcome, statements nested last tokens state = some outcome ∧
      outcome.state.scope.LacksCommands := by
  fun_induction statements nested last tokens state with
  | case1 state => exact ⟨_, rfl, hState⟩
  | case2 state head rest diagnostic hRead => exact ⟨_, rfl, hState⟩
  | case3 state head rest instruction following hRead ih =>
    have hLacks := Instruction.lacksCommands_of_ofStatement hState (hTokens head (List.mem_cons_self ..))
      hRead
    have hRest : LacksDefinitions rest := hTokens.of_subset fun _ => List.mem_cons_of_mem head
    have hBlock : ∀ block, instruction.block? = some block → EndsOn nested block := by
      intro block hBlock
      -- a block of the text is shorter than the text, as it stands behind the head
      have hEncloses := Instruction.encloses_of_ofStatement hRead hBlock
      have hLess := hEncloses.length_lt
      rw [List.length_cons] at hLength
      exact hNested block (by omega) (hRest.of_subset hEncloses.mem)
    obtain ⟨first, hFirst, hEnd⟩ := exists_execute hLacks hBlock hState
    obtain ⟨stretch, -, rfl, -⟩ :=
      Instruction.isLocal_ofStatement state.scope head last rest instruction following hRead
    have hFollowing : LacksDefinitions following :=
      hRest.of_subset fun _ => List.mem_append_right stretch
    rw [List.length_cons, List.length_append] at hLength
    obtain ⟨final, hFinal, hFinalLacks⟩ :=
      exists_andThen hEnd fun between hBetween => ih between (by omega) hFollowing hBetween
    exact ⟨final, Option.bind_eq_some_iff.mpr ⟨first, hFirst, hFinal⟩, hFinalLacks⟩

end Nested

/-- Runs without commands come to an end, by induction on the length of their tokens. -/
theorem endsOn_run {tokens : List Token} (hTokens : LacksDefinitions tokens) : EndsOn run tokens := by
  induction hLength : tokens.length using Nat.strongRecOn generalizing tokens with
  | _ length ih =>
    intro state hState
    rw [run_eq]
    refine exists_statements (fun block hLess hBlock => ih block.length hLess hBlock rfl) ?_ hTokens hState
    exact Nat.le_of_eq hLength

/-! ## Depth -/

section Depth

variable {instruction : Instruction} {state : State}

/-- What is left behind by an instruction that was carried out has no command. -/
theorem lacksCommands_of_execute (h : instruction.LacksCommands)
    (hBlock : ∀ block, instruction.block? = some block → LacksDefinitions block)
    (hState : state.scope.LacksCommands) {outcome : Outcome}
    (hRun : execute run instruction state = some outcome) : outcome.state.scope.LacksCommands := by
  obtain ⟨outcome', hRun', hLacks⟩ :=
    exists_execute h (fun block hSome => endsOn_run (hBlock block hSome)) hState
  rw [hRun'] at hRun
  cases hRun
  exact hLacks

/-- A block that is entered is that of the instruction, and is entered without commands. -/
theorem lacksCommands_of_enters (h : instruction.LacksCommands)
    (hBlock : ∀ block, instruction.block? = some block → LacksDefinitions block)
    (hState : state.scope.LacksCommands) {block : List Token} {inner : State}
    (hEnters : Enters run state instruction block inner) :
    instruction.block? = some block ∧ inner.scope.LacksCommands := by
  cases hEnters with
  | @round name text first last block k between hCount hBefore hText =>
    -- the rounds before this one ended without commands
    obtain ⟨outcome, hRun, hLacks⟩ := exists_rounds (endsOn_run (hBlock block rfl)) name
      (if first ≤ last then 1 else -1) k first hState
    rw [hRun] at hBefore
    cases hBefore
    exact ⟨rfl, hLacks.bind name text⟩
  | guarded block => exact ⟨rfl, hState⟩
  | body scope body => cases h

/-- What is known at a point of a run without commands. -/
structure Point.LacksCommands (point : Point) : Prop where
  scope : point.state.scope.LacksCommands
  rest : LacksDefinitions point.rest

/-- A statement at such a point is none of a command, and its block stands in the text there. -/
theorem Point.LacksCommands.of_reads {point : Point} (h : point.LacksCommands)
    {following : List Token} (hRead : point.Reads instruction following) :
    instruction.LacksCommands ∧ (∃ before, point.rest = before ++ following) ∧
      ∀ block, instruction.block? = some block → Block.Encloses point.rest block := by
  obtain ⟨head, rest, hRest, hStatement⟩ := hRead
  have hHead := h.rest head (by simp [hRest])
  refine ⟨Instruction.lacksCommands_of_ofStatement h.scope hHead hStatement, ?_, ?_⟩
  · obtain ⟨stretch, -, rfl, -⟩ := Instruction.isLocal_ofStatement _ head _ rest _ _ hStatement
    exact ⟨head :: stretch, by rw [hRest, List.cons_append]⟩
  · intro block hBlock
    rw [hRest]
    exact (Instruction.encloses_of_ofStatement hStatement hBlock).append [head]

/-- Wherever a run without commands is, there are at least as many open braces around it in the
text as runs. -/
theorem nesting_of_reachesAt {start point : Point} {depth : Nat} (h : ReachesAt start depth point)
    (hStart : start.LacksCommands) :
    point.LacksCommands ∧ depth + Block.nesting point.rest ≤ Block.nesting start.rest := by
  induction h with
  | start => exact ⟨hStart, by omega⟩
  | @past depth point instruction following between _ hRead hRun ih =>
    -- the run is as deep behind the statement, and what follows is nested no deeper
    obtain ⟨hPoint, hDepth⟩ := ih
    obtain ⟨hLacks, ⟨before, hRest⟩, hBlock⟩ := hPoint.of_reads hRead
    have hText : ∀ block, instruction.block? = some block → LacksDefinitions block :=
      fun block hSome => hPoint.rest.of_subset (hBlock block hSome).mem
    have hScope : between.scope.LacksCommands :=
      lacksCommands_of_execute hLacks hText hPoint.scope hRun
    have hFollowing : LacksDefinitions following :=
      hPoint.rest.of_subset fun token hToken => by simp [hRest, hToken]
    have hNesting := Block.nesting_append_right before following
    rw [← hRest] at hNesting
    exact ⟨⟨hScope, hFollowing⟩, by show depth + Block.nesting following ≤ _; omega⟩
  | @into depth point instruction following block inner _ hRead hEnters ih =>
    -- the run is one deeper in the block, which is nested less deep
    obtain ⟨hPoint, hDepth⟩ := ih
    obtain ⟨hLacks, -, hBlock⟩ := hPoint.of_reads hRead
    have hText : ∀ block, instruction.block? = some block → LacksDefinitions block :=
      fun block hSome => hPoint.rest.of_subset (hBlock block hSome).mem
    obtain ⟨hSome, hScope⟩ := lacksCommands_of_enters hLacks hText hPoint.scope hEnters
    have hNesting := (hBlock block hSome).nesting_lt
    exact ⟨⟨hScope, hText block hSome⟩, by show depth + 1 + Block.nesting block ≤ _; omega⟩

end Depth

/-! ## Cursors -/

/-- A reader that takes tokens moves a cursor forward by at least as many, within its sequence. -/
theorem position_of_read {α : Type} {count : Nat} {reader : Token.Reader α}
    (hReader : Token.IsLocal count reader) (hCount : 0 < count) {cursor cursor' : Cursor} {value : α}
    (h : cursor.read reader = .ok (value, cursor')) :
    cursor'.tokens = cursor.tokens ∧ cursor.position + count ≤ cursor'.position ∧
      cursor'.position ≤ cursor.tokens.length := by
  rw [Cursor.read] at h
  split at h
  next following hRead =>
    cases h
    have hLength := hReader.length_le hRead
    rw [Cursor.rest, List.length_drop] at hLength
    have hPosition : (cursor.before following.length).position =
        cursor.tokens.length - following.length := rfl
    exact ⟨rfl, by omega, by omega⟩
  next => cases h

/-- A program that neither knows nor defines a command comes to an end, normally or with an error,
whatever its loops count to and do to their variables. It is never deeper in runs than the braces of
its text are nested; and every statement of a keyword leaves a cursor over the same tokens, further
on and not behind their end. -/
theorem run_ends {tokens : List Token} {state : State}
    (hTokens : ∀ token ∈ tokens, token.content ≠ .word "Command")
    (hScope : ∀ name command, state.scope.get? name ≠ some (.command command)) :
    (∃ outcome, run tokens state = some outcome) ∧
      (∀ depth point, ReachesAt (.start tokens state) depth point → depth ≤ Block.nesting tokens) ∧
      ∀ (scope : Scope) (keyword : Keyword) (head : Token) (cursor cursor' : Cursor)
        (instruction : Instruction),
        cursor.read (Instruction.ofKeyword scope keyword head) = .ok (instruction, cursor') →
          cursor'.tokens = cursor.tokens ∧ cursor.position < cursor'.position ∧
            cursor'.position ≤ cursor.tokens.length := by
  refine ⟨?_, fun depth point hReaches => ?_, fun scope keyword head cursor cursor' instruction hRead => ?_⟩
  · obtain ⟨outcome, hRun, -⟩ := endsOn_run hTokens state hScope
    exact ⟨outcome, hRun⟩
  · have hStart : (Point.start tokens state).LacksCommands := ⟨hScope, hTokens⟩
    obtain ⟨-, hDepth⟩ := nesting_of_reachesAt hReaches hStart
    have hNesting : depth + Block.nesting point.rest ≤ Block.nesting tokens := hDepth
    omega
  · exact position_of_read (Instruction.isLocal_ofKeyword scope keyword head) Nat.one_pos hRead

/-- A loop over a loop that changes its variable and counts down to where it started. -/
theorem run_ends_countdown :
    let source := "Set n 3 Repeat i 1 n \x7b Set i (i * 40) Repeat j i 1 \x7b " ++
      "Smaller? j 3 \x7b Pen j Set n 9 \x7d \x7d \x7d Paper"
    let tokens := Token.ofSource source
    Block.nesting tokens = 3 ∧ (∃ outcome, run tokens (.initial .empty) = some outcome) ∧
      (∀ depth point, ReachesAt (.start tokens (.initial .empty)) depth point → depth ≤ 3) ∧
      ∀ (scope : Scope) (keyword : Keyword) (head : Token) (cursor cursor' : Cursor)
        (instruction : Instruction),
        cursor.read (Instruction.ofKeyword scope keyword head) = .ok (instruction, cursor') →
          cursor'.tokens = cursor.tokens ∧ cursor.position < cursor'.position ∧
            cursor'.position ≤ cursor.tokens.length := by
  intro source tokens
  have hNesting : Block.nesting tokens = 3 := by decide +kernel
  have hTokens : ∀ token ∈ tokens, token.content ≠ .word "Command" := by decide +kernel
  have hScope : ∀ name command, (State.initial .empty).scope.get? name ≠ some (.command command) :=
    fun _ _ hCommand => nomatch hCommand
  have hEnds := run_ends hTokens hScope
  rw [hNesting] at hEnds
  exact ⟨hNesting, hEnds⟩

end Program

end DesignByNumbers
