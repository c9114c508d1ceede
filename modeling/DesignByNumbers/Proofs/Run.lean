import DesignByNumbers.Program
import DesignByNumbers.Proofs.Instruction

/-!
# Proofs.Run — what holds of whole runs

What every statement preserves, whatever is known of the runs of the blocks in it, holds of
whole runs that end.

* `statements_of_done`, `scope_eq_of_call` — what single statements leave behind.
* `run_append` — behind a run that ends normally, the tokens that follow run on their own.
* `run_rule_from`, `run_rule` — the rule for relations between the start of a run and its end.
* `exists_diagnosed_of_run_failed` — a run that fails reports a diagnostic.
* `exists_run_of_interpret` — the run behind a trace.
-/

namespace DesignByNumbers.Program

open Instruction (IsRead)

/-! ## Composition -/

/-- What goes on behind some outcome ends normally when both do. -/
theorem bind_andThen_eq_done_iff {first : Option Outcome} {next : State → Option Outcome}
    {final : State} :
    (first.bind fun outcome => outcome.andThen next) = some (.done final) ↔
      ∃ between, first = some (.done between) ∧ next between = some (.done final) := by
  cases first with
  | none => simp
  | some outcome => cases outcome <;> simp

/-- A statement that is carried out to a normal end leaves the rest to be run. -/
theorem statements_of_done {nested : Runner} {last : Option Token} {head : Token}
    {rest following : List Token} {state between : State} {instruction : Instruction}
    (hRead : Instruction.ofStatement state.scope head last rest = .ok (instruction, following))
    (hExecute : execute nested instruction state = some (.done between)) :
    statements nested last (head :: rest) state = statements nested last following between := by
  rw [statements_of_ok nested hRead, hExecute, Option.bind_some, Outcome.done_andThen]

/-- A sequence that is one statement is carried out. -/
theorem run_single {head : Token} {rest : List Token} {state : State} {instruction : Instruction}
    (hRead : Instruction.ofStatement state.scope head (head :: rest).getLast? rest =
      .ok (instruction, [])) : run (head :: rest) state = execute run instruction state := by
  rw [run_eq, statements_of_ok run hRead]
  cases execute run instruction state with
  | none => rfl
  | some outcome =>
    cases outcome with
    | done between => exact statements_nil run _ between
    | failed failure between => rfl

/-- Statements that were all carried out leave the rest of a sequence to be run. Only where an
end is reported does the last token of the sequence count. -/
theorem statements_append (nested : Runner) {last : Option Token} (last' : Option Token)
    {tokens : List Token} (others : List Token) {state state' : State}
    (h : statements nested last tokens state = some (.done state')) :
    statements nested last' (tokens ++ others) state = statements nested last' others state' := by
  fun_induction statements nested last tokens state with
  | case1 state =>
    cases h
    rw [List.nil_append]
  | case2 => cases h
  | case3 state head rest instruction following hRead ih =>
    obtain ⟨between, hExecute, hRest⟩ := bind_andThen_eq_done_iff.mp h
    -- the statement took a stretch of its own, and takes the same one before other tokens
    obtain ⟨stretch, -, rfl, hTakes⟩ :=
      Instruction.isLocal_ofStatement state.scope head last rest instruction following hRead
    rw [List.cons_append, List.append_assoc,
      statements_of_done (hTakes last' (following ++ others)) hExecute]
    exact ih between hRest

/-- A sequence whose first part runs to a normal end goes on with the second part as if that
had been run alone. -/
theorem run_append {first : List Token} (second : List Token) {state between : State}
    (h : run first state = some (.done between)) :
    run (first ++ second) state = run second between := by
  rw [run_eq] at h
  rw [run_eq, statements_append run _ second h]
  cases second with
  | nil => rw [run_eq, statements_nil, statements_nil]
  | cons token rest =>
    -- an end is reported at the last token of the second part in either case
    have hLast : (first ++ token :: rest).getLast? = (token :: rest).getLast? := by
      rw [List.getLast?_append, List.getLast?_cons, Option.some_or]
    rw [hLast, ← run_eq]

/-- A call leaves its caller the scope as it was, however its body ends. -/
theorem scope_eq_of_call {nested : Runner} {child : Scope} {body : List Token} {state : State}
    {outcome : Outcome} (h : execute nested (.call child body) state = some outcome) :
    outcome.state.scope = state.scope := by
  obtain ⟨inner, -, hEnd⟩ := Option.bind_eq_some_iff.mp h
  cases hEnd
  cases inner <;> rfl

section Rule

variable {Q : Token → Prop} {P : State → Outcome → Prop}

/-- An instruction is that of some statement in a scope, read from tokens with a property. -/
def IsReadFrom (Q : Token → Prop) (scope : Scope) (instruction : Instruction) : Prop :=
  ∃ head last rest following, (∀ token ∈ head :: rest, Q token) ∧ Q last ∧
    Instruction.ofStatement scope head (some last) rest = .ok (instruction, following)

theorem IsReadFrom.isBounded {scope : Scope} {instruction : Instruction}
    (h : IsReadFrom Q scope instruction) : instruction.IsBounded := by
  obtain ⟨head, last, rest, following, -, -, hRead⟩ := h
  exact (Instruction.hasForm_of_ofStatement hRead).isBounded

/-- A diagnostic is that of some statement which is refused in a scope. -/
def IsRefusedFrom (Q : Token → Prop) (scope : Scope) (diagnostic : Diagnostic) : Prop :=
  ∃ head last rest, (∀ token ∈ head :: rest, Q token) ∧ Q last ∧
    Instruction.ofStatement scope head (some last) rest = .error diagnostic

/-- A relation between the start and the end of runs holds where nothing is run, where a
statement is refused, and of two runs one after the other. -/
structure IsRunRelation (Q : Token → Prop) (P : State → Outcome → Prop) : Prop where
  done : ∀ state, P state (.done state)
  refused : ∀ state diagnostic, IsRefusedFrom Q state.scope diagnostic →
    P state (.failed (.diagnosed diagnostic) state)
  andThen : ∀ {state between outcome}, P state (.done between) → P between outcome → P state outcome

/-- The runs of blocks are in a relation. -/
def Respects (nested : Runner) (P : State → Outcome → Prop) : Prop :=
  ∀ tokens state outcome, nested tokens state = some outcome → P state outcome

/-- Two runs one after the other, the first of which may fail. -/
theorem IsRunRelation.bind (h : IsRunRelation Q P) {state : State} {first : Outcome}
    {next : State → Option Outcome} {outcome : Outcome} (hFirst : P state first)
    (hNext : ∀ between, next between = some outcome → P between outcome)
    (hOutcome : first.andThen next = some outcome) : P state outcome := by
  cases first with
  | done between => exact h.andThen hFirst (hNext between hOutcome)
  | failed failure state =>
    cases hOutcome
    exact hFirst

/-- The runs of blocks whose tokens have a property are in a relation. -/
def RespectsFrom (Q : Token → Prop) (nested : Runner) (P : State → Outcome → Prop) : Prop :=
  ∀ tokens state outcome, (∀ token ∈ tokens, Q token) → nested tokens state = some outcome →
    P state outcome

/-- What follows a statement is a part of the tokens. -/
theorem forall_mem_following {scope : Scope} {head : Token} {last : Option Token}
    {rest following : List Token} {instruction : Instruction}
    (hTokens : ∀ token ∈ head :: rest, Q token)
    (hRead : Instruction.ofStatement scope head last rest = .ok (instruction, following)) :
    ∀ token ∈ following, Q token := by
  obtain ⟨stretch, -, rfl, -⟩ :=
    Instruction.isLocal_ofStatement scope head last rest instruction following hRead
  intro token hToken
  exact hTokens token (List.mem_cons_of_mem head (List.mem_append_right stretch hToken))

/-- The last one of some tokens is one of them. -/
theorem exists_getLast? {tokens : List Token} (hTokens : ∀ token ∈ tokens, Q token)
    (hSome : tokens ≠ []) : ∃ token, Q token ∧ tokens.getLast? = some token :=
  ⟨tokens.getLast hSome, hTokens _ (List.getLast_mem hSome), List.getLast?_eq_some_getLast hSome⟩

theorem statements_rule (h : IsRunRelation Q P) {nested : Runner}
    (hExecute : ∀ state instruction outcome, IsReadFrom Q state.scope instruction →
      execute nested instruction state = some outcome → P state outcome)
    {last : Option Token} {tokens : List Token} {state : State} {outcome : Outcome}
    (hLast : tokens ≠ [] → ∃ token, Q token ∧ last = some token)
    (hTokens : ∀ token ∈ tokens, Q token)
    (hRun : statements nested last tokens state = some outcome) : P state outcome := by
  fun_induction statements nested last tokens state with
  | case1 state =>
    cases hRun
    exact h.done state
  | case2 state head rest diagnostic hRead =>
    obtain ⟨final, hFinal, rfl⟩ := hLast (List.cons_ne_nil head rest)
    cases hRun
    exact h.refused state diagnostic ⟨head, final, rest, hTokens, hFinal, hRead⟩
  | case3 state head rest instruction following hRead ih =>
    obtain ⟨final, hFinal, rfl⟩ := hLast (List.cons_ne_nil head rest)
    obtain ⟨first, hFirst, hRest⟩ := Option.bind_eq_some_iff.mp hRun
    have hFollowing := forall_mem_following hTokens hRead
    have hIsRead : IsReadFrom Q state.scope instruction :=
      ⟨head, final, rest, following, hTokens, hFinal, hRead⟩
    exact h.bind (hExecute state instruction first hIsRead hFirst)
      (fun between => ih between (fun _ => ⟨final, hFinal, rfl⟩) hFollowing) hRest

/-- The rule for runs of tokens with a property, by induction on how deep blocks are nested in a
run that ends. -/
theorem run_rule_from (h : IsRunRelation Q P)
    (hExecute : ∀ nested, RespectsFrom Q nested P → ∀ state instruction outcome,
      IsReadFrom Q state.scope instruction → execute nested instruction state = some outcome →
      P state outcome) : RespectsFrom Q run P := by
  intro tokens state outcome hTokens hRun
  refine run.partial_correctness
    (fun tokens state outcome => (∀ token ∈ tokens, Q token) → P state outcome) ?_
    tokens state outcome hRun hTokens
  intro nested hNested tokens state outcome hRun hTokens
  refine statements_rule h (hExecute nested ?_) (exists_getLast? hTokens) hTokens hRun
  exact fun block inner outcome hBlock hRun => hNested block inner outcome hRun hBlock

/-- The rule for whole runs, whatever their tokens are. -/
theorem run_rule (h : IsRunRelation (fun _ => True) P)
    (hExecute : ∀ nested, Respects nested P → ∀ state instruction outcome,
      IsRead state.scope instruction → execute nested instruction state = some outcome →
      P state outcome) : Respects run P := by
  have hRun : RespectsFrom (fun _ => True) run P := by
    refine run_rule_from h fun nested hNested state instruction outcome hRead => ?_
    obtain ⟨head, last, rest, following, -, -, hRead⟩ := hRead
    refine hExecute nested ?_ state instruction outcome ⟨head, some last, rest, following, hRead⟩
    exact fun tokens inner outcome => hNested tokens inner outcome fun _ _ => trivial
  exact fun tokens state outcome => hRun tokens state outcome fun _ _ => trivial

/-- The index of a round, counted from the next one on. -/
theorem index_succ (index step : Int) (k : Nat) :
    index + step + k * step = index + (k + 1 : Nat) * step := by
  rw [Int.natCast_succ, Int.add_mul, Int.one_mul, Int.add_comm (k * step), Int.add_assoc]

/-- The rule for the rounds of a loop whose indices keep within the digit limit. -/
theorem rounds_rule (h : IsRunRelation Q P) {nested : Runner} {name : String} {block : List Token}
    (hBlock : ∀ state outcome, nested block state = some outcome → P state outcome)
    (hBind : ∀ state index, P state (.done (state.bind name (.number (Numeral.decimal index)))))
    {step : Int} {count : Nat} {index : Int} {state : State} {outcome : Outcome}
    (hIndices : ∀ k < count, (index + k * step).natAbs < 10 ^ Numeral.digitLimit)
    (hRun : rounds nested name block step count index state = some outcome) : P state outcome := by
  induction count generalizing index state with
  | zero =>
    cases hRun
    exact h.done state
  | succ count ih =>
    have hIndex := hIndices 0 (Nat.succ_pos count)
    rw [Int.natCast_zero, Int.zero_mul, Int.add_zero] at hIndex
    rw [rounds, Numeral.print?_eq_some_iff.mpr ⟨hIndex, rfl⟩] at hRun
    obtain ⟨round, hRound, hRest⟩ := Option.bind_eq_some_iff.mp hRun
    refine h.andThen (hBind state index) (h.bind (hBlock _ _ hRound) (fun between => ih ?_) hRest)
    -- what is left are the rounds from the next index on
    intro k hk
    rw [index_succ]
    exact hIndices (k + 1) (Nat.succ_lt_succ hk)

/-- The indices of a loop keep within the digit limit when its bounds do. -/
theorem natAbs_lt_of_isBounded {name : String} {first last : Int} {block : List Token}
    (h : (Instruction.loop name first last block).IsBounded) {k : Nat}
    (hk : k < (last - first).natAbs + 1) :
    (first + k * (if first ≤ last then 1 else -1)).natAbs < 10 ^ Numeral.digitLimit := by
  obtain ⟨hFirst, hLast⟩ := h
  split
  · rw [Int.mul_one]
    omega
  · rw [Int.mul_neg, Int.mul_one]
    omega

end Rule

/-! ## Failures -/

/-- A run that ends, ends normally or with a diagnostic. -/
def Reports (_ : State) (outcome : Outcome) : Prop :=
  ∀ failure, outcome.failure? = some failure → ∃ diagnostic, failure = .diagnosed diagnostic

theorem isRunRelation_reports : IsRunRelation (fun _ => True) Reports where
  done _ failure hFailure := by cases hFailure
  refused _ diagnostic _ failure hFailure := by
    cases hFailure
    exact ⟨diagnostic, rfl⟩
  andThen _ hSecond := hSecond

/-- Every statement reports, since the indices of a loop are always within the digit limit. -/
theorem respects_reports : Respects run Reports := by
  refine run_rule isRunRelation_reports fun nested hNested state instruction outcome hRead hOutcome
    => ?_
  have hBounded := Instruction.isBounded_of_isRead state.scope hRead
  cases instruction with
  | draw op =>
    cases hOutcome
    exact isRunRelation_reports.done state
  | bind name binding =>
    cases hOutcome
    exact isRunRelation_reports.done state
  | loop name first last block =>
    exact rounds_rule isRunRelation_reports (hNested block)
      (fun state _ => isRunRelation_reports.done state) (fun _ => natAbs_lt_of_isBounded hBounded)
      hOutcome
  | check held block =>
    cases held with
    | true => exact hNested block state outcome hOutcome
    | false =>
      cases hOutcome
      exact isRunRelation_reports.done state
  | call scope body =>
    obtain ⟨inner, hInner, hEnd⟩ := Option.bind_eq_some_iff.mp hOutcome
    cases hEnd
    have hReports := hNested body _ inner hInner
    cases inner with
    | done state' => exact isRunRelation_reports.done state'
    | failed failure state' => exact hReports

/-- A run that fails reports a diagnostic. -/
theorem exists_diagnosed_of_run_failed {tokens : List Token} {state state' : State}
    {failure : Failure} (h : run tokens state = some (.failed failure state')) :
    ∃ diagnostic, failure = .diagnosed diagnostic :=
  respects_reports tokens state _ h failure rfl

/-- The trace of a program is that of a run of verified tokens which comes to its end. -/
theorem exists_run_of_interpret {tokens : List Token} {context : NameMap Binding}
    {trace : Array DrawOp} (h : interpret tokens context = .ok trace) :
    Token.verify tokens = .ok () ∧ ∃ scope state, Scope.ofBindings context = .ok scope ∧
      run tokens (.initial scope) = some (.done state) ∧ trace = state.trace := by
  rw [interpret] at h
  split at h
  next => cases h
  next hVerify =>
    split at h
    next => cases h
    next scope hScope =>
      split at h
      next state hRun =>
        cases h
        exact ⟨hVerify, scope, state, hScope, hRun, rfl⟩
      next => cases h
      next => cases h

/-- The trace of a program is refused with a diagnostic, or its run goes on for ever. -/
theorem exists_diagnosed_of_interpret {tokens : List Token} {context : NameMap Binding}
    {failure : Failure} (h : interpret tokens context = .error failure) :
    failure = .endless ∨ ∃ diagnostic, failure = .diagnosed diagnostic := by
  rw [interpret] at h
  split at h
  next diagnostic _ =>
    cases h
    exact .inr ⟨diagnostic, rfl⟩
  next =>
    split at h
    next diagnostic _ =>
      cases h
      exact .inr ⟨diagnostic, rfl⟩
    next =>
      split at h
      next => cases h
      next hRun =>
        cases h
        exact .inr (exists_diagnosed_of_run_failed hRun)
      next =>
        cases h
        exact .inl rfl

end DesignByNumbers.Program
