import Mathlib.Control.Monad.Basic
import DesignByNumbers.Proofs.Succession

/-!
# Proofs.Failure — what a failure leaves behind

A run that fails does so at one statement. Those in front of it have been carried out as if they had
been run alone, and nothing of theirs is undone. The statement itself changes nothing when it is
refused; only a block that it runs can have drawn or assigned anything, and what the body of a command
has assigned is gone with its scope.

* `isSuccession_trace` — a run only adds to the trace.
* `Point.Fails` — the ways in which a statement fails.
* `reaches_of_failed` — the statement that was refused, at any depth.
* `exists_fails_of_run` — the statement at which a run has failed, and what it leaves behind.
-/

namespace DesignByNumbers.Program

open Instruction (hasForm_of_ofStatement)
open Token (ofSource)

/-- Nothing that was drawn is taken back. -/
theorem isSuccession_trace :
    IsSuccession fun state state' => state.trace.toList <+: state'.trace.toList where
  refl _ := List.prefix_rfl
  trans := .trans
  draw state op := by
    rw [State.draw, Array.toList_push]
    exact List.prefix_append state.trace.toList [op]
  assign _ _ _ := List.prefix_rfl
  define _ _ := List.prefix_rfl
  enter _ _ _ := List.prefix_rfl
  leave hInner := hInner

/-- The statement at a point fails: it is refused, and the state stays as it is, or it is carried out
and a block that it runs fails, behind which nothing is drawn. -/
inductive Point.Fails (nested : Runner) (point : Point) : Failure → State → Prop
  | refused {diagnostic : Diagnostic} (hRefuses : point.Refuses diagnostic) :
      Fails nested point (.diagnosed diagnostic) point.state
  | within {instruction : Instruction} {following block : List Token}
      {inner innerFinal final : State} {failure : Failure}
      (hReads : point.Reads instruction following)
      (hEnters : Enters nested point.state instruction block inner)
      (hFailed : nested block inner = some (.failed failure innerFinal))
      (hExecute : execute nested instruction point.state = some (.failed failure final))
      (hTrace : final.trace = innerFinal.trace) : Fails nested point failure final

/-- Statements that fail do so at one of them, behind others that were carried out and are so again
when they stand alone. -/
theorem exists_fails_of_statements {nested : Runner} {last : Option Token} {tokens : List Token}
    {state final : State} {failure : Failure}
    (h : statements nested last tokens state = some (.failed failure final)) :
    ∃ before head rest between, tokens = before ++ head :: rest ∧
      (∀ last', statements nested last' before state = some (.done between)) ∧
      Point.Fails nested ⟨between, head :: rest, last⟩ failure final := by
  fun_induction statements nested last tokens state with
  | case1 => cases h
  | case2 state head rest diagnostic hRead =>
    cases h
    exact ⟨[], head, rest, final, rfl, fun _ => statements_nil nested _ final,
      .refused ⟨head, rest, rfl, hRead⟩⟩
  | case3 state head rest instruction following hRead ih =>
    obtain ⟨outcome, hExecute, hRest⟩ := Option.bind_eq_some_iff.mp h
    cases outcome with
    | failed failure' between =>
      cases hRest
      have hBounded := (hasForm_of_ofStatement hRead).isBounded
      obtain ⟨block, inner, innerFinal, hEnters, hFailed, hTrace⟩ :=
        exists_enters_of_failed hBounded hExecute
      exact ⟨[], head, rest, state, rfl, fun _ => statements_nil nested _ state,
        .within ⟨head, rest, rfl, hRead⟩ hEnters hFailed hExecute hTrace⟩
    | done between =>
      obtain ⟨before, head', rest', between', rfl, hBefore, hFails⟩ := ih between hRest
      -- the statement takes the same stretch in front of fewer tokens
      obtain ⟨stretch, -, rfl, hTakes⟩ :=
        Instruction.isLocal_ofStatement state.scope head last rest instruction _ hRead
      refine ⟨head :: (stretch ++ before), head', rest', between', ?_, fun last' => ?_, hFails⟩
      · rw [List.cons_append, List.append_assoc]
      · rw [statements_of_done (hTakes last' before) hExecute]
        exact hBefore last'

/-! ## Where it fails -/

/-- A run that started at a point has failed at one that it came to: the statement there was
refused, and nothing was drawn behind it. -/
def FailsFrom (origin : Point) (failure : Failure) (final : State) : Prop :=
  ∃ point diagnostic, Reaches origin point ∧ point.Refuses diagnostic ∧
    failure = .diagnosed diagnostic ∧ final.trace = point.state.trace

theorem FailsFrom.of_reaches {origin point : Point} {failure : Failure} {final final' : State}
    (hReaches : Reaches origin point) (h : FailsFrom point failure final)
    (hTrace : final'.trace = final.trace) : FailsFrom origin failure final' := by
  obtain ⟨place, diagnostic, hPlace, hRefuses, hFailure, hFinal⟩ := h
  exact ⟨place, diagnostic, hReaches.trans hPlace, hRefuses, hFailure, hTrace.trans hFinal⟩

/-- A run that fails comes to a point where a statement is refused. -/
theorem reaches_of_failed {tokens : List Token} {state final : State} {failure : Failure}
    (h : run tokens state = some (.failed failure final)) :
    FailsFrom (.start tokens state) failure final := by
  have hAll : ∀ tokens state outcome, run tokens state = some outcome →
      run tokens state = some outcome ∧
        ∀ failure final, outcome = .failed failure final →
          FailsFrom (.start tokens state) failure final := by
    -- by induction on the run; its blocks run as they do in the run itself
    refine run.partial_correctness _ ?_
    intro nested hNested tokens state outcome hRun
    have hExtends : Extends nested run :=
      fun block inner result hResult => (hNested block inner result hResult).1
    have hWhole : run tokens state = some outcome := by
      rw [run_eq]
      exact statements_mono hExtends hRun
    refine ⟨hWhole, ?_⟩
    rintro failure final rfl
    obtain ⟨before, head, rest, between, rfl, hBefore, hFails⟩ := exists_fails_of_statements hRun
    have hReaches : Reaches (.start (before ++ head :: rest) state)
        ⟨between, head :: rest, (before ++ head :: rest).getLast?⟩ :=
      reaches_of_statements _ _ (statements_mono hExtends (hBefore none))
    cases hFails with
    | refused hRefuses => exact ⟨_, _, hReaches, hRefuses, rfl, rfl⟩
    | within hReads hEnters hFailed hExecute hTrace =>
      -- the block of the statement has failed, at a point that is reached through the statement
      have hInto := hReaches.tail (.into hReads (hEnters.mono hExtends))
      exact .of_reaches hInto ((hNested _ _ _ hFailed).2 _ _ rfl) hTrace
  exact (hAll tokens state _ h).2 failure final rfl

/-! ## What it leaves behind -/

namespace Point.Fails

variable {state final : State} {head : Token} {rest : List Token} {last : Option Token}
  {failure : Failure}

/-- What was drawn when a statement is reached is still there when it has failed. -/
theorem trace {point : Point} (h : point.Fails run failure final) :
    point.state.trace.toList <+: final.trace.toList := by
  cases h with
  | refused => exact List.prefix_rfl
  | within hReads hEnters hFailed hExecute hTrace =>
    obtain ⟨head, rest, -, hRead⟩ := hReads
    exact isSuccession_trace.rel_of_execute isSuccession_trace.rel_of_run
      (hasForm_of_ofStatement hRead) hExecute

/-- A statement that is not read changes nothing. -/
theorem state_of_refused (h : Fails run ⟨state, head :: rest, last⟩ failure final)
    {diagnostic : Diagnostic}
    (hRefused : Instruction.ofStatement state.scope head last rest = .error diagnostic) :
    failure = .diagnosed diagnostic ∧ final = state := by
  cases h with
  | refused hRefuses =>
    obtain ⟨_, _, ⟨⟩, hRead⟩ := hRefuses
    cases hRead.symm.trans hRefused
    exact ⟨rfl, rfl⟩
  | within hReads hEnters hFailed hExecute hTrace =>
    obtain ⟨_, _, ⟨⟩, hRead⟩ := hReads
    cases hRead.symm.trans hRefused

/-- A statement that runs no block changes nothing when it fails. -/
theorem state_of_keyword (h : Fails run ⟨state, head :: rest, last⟩ failure final) {keyword : Keyword}
    (hKeyword : Keyword.ofText? head.text = some keyword) (hLoop : keyword ≠ .loop)
    (hCheck : ∀ comparison, keyword ≠ .check comparison) : final = state := by
  cases h with
  | refused => rfl
  | within hReads hEnters hFailed hExecute hTrace =>
    obtain ⟨_, _, ⟨⟩, hRead⟩ := hReads
    have hForm := hasForm_of_ofStatement hRead
    rw [hKeyword] at hForm
    -- an instruction without a block does not fail once it is read
    cases hForm with
    | loop => exact absurd rfl hLoop
    | check comparison => exact absurd rfl (hCheck comparison)
    | _ => cases hExecute

/-- A call leaves the scope of its caller as it was, wherever its body fails. -/
theorem scope_of_call (h : Fails run ⟨state, head :: rest, last⟩ failure final)
    (hKeyword : Keyword.ofText? head.text = none) : final.scope = state.scope := by
  cases h with
  | refused => rfl
  | within hReads hEnters hFailed hExecute hTrace =>
    obtain ⟨_, _, ⟨⟩, hRead⟩ := hReads
    have hForm := hasForm_of_ofStatement hRead
    rw [hKeyword] at hForm
    cases hForm with
    | call => exact scope_eq_of_call hExecute

end Point.Fails

/-- A run that fails does so at a statement, and the tokens in front of it, run alone, end normally.
If the statement is refused, or if it is one that runs no block, then the state after the failure is
the one behind those tokens. If it is a call then at least the scope is, however deep in the body the
failure occurs. In any case what was drawn by those tokens comes first in what was drawn at all. -/
theorem exists_fails_of_run {tokens : List Token} {state final : State} {failure : Failure}
    (h : run tokens state = some (.failed failure final)) :
    ∃ before head rest between, tokens = before ++ head :: rest ∧
      run before state = some (.done between) ∧
      Point.Fails run ⟨between, head :: rest, tokens.getLast?⟩ failure final ∧
      (∀ diagnostic,
        Instruction.ofStatement between.scope head tokens.getLast? rest = .error diagnostic →
        failure = .diagnosed diagnostic ∧ final = between) ∧
      (∀ keyword ∈ [Keyword.paper, .pen, .line, .assign, .define],
        Keyword.ofText? head.text = some keyword → final = between) ∧
      (Keyword.ofText? head.text = none → final.scope = between.scope) ∧
      between.trace.toList <+: final.trace.toList := by
  rw [run_eq] at h
  obtain ⟨before, head, rest, between, hTokens, hBefore, hFails⟩ := exists_fails_of_statements h
  refine ⟨before, head, rest, between, hTokens, ?_, hFails, ?_, ?_, ?_, hFails.trace⟩
  · -- run alone, those tokens end with another token
    rw [run_eq]
    exact hBefore before.getLast?
  · exact fun diagnostic => hFails.state_of_refused
  · intro keyword hMem hKeyword
    refine hFails.state_of_keyword hKeyword ?_ ?_
    · rintro rfl
      simp at hMem
    · rintro comparison rfl
      simp at hMem
  · exact hFails.scope_of_call

/-- A call that fails in the last statement of its body, behind an assignment and a paper: the paper
stays in the trace, and the scope is the one in front of the call. -/
theorem exists_fails_of_run_shade :
    let body := ofSource "Set X 1 Paper X Pen Y"
    let scope : Scope := ⟨⟨[("X", .number "7"), ("Shade", .command ⟨"Shade", [], body⟩)]⟩⟩
    let diagnostic : Diagnostic := ⟨.undeclared "Y", some ⟨1, 20, "Set X 1 Paper X Pen Y"⟩⟩
    let final : State := ⟨scope, #[.foreground "2", .background "1"]⟩
    run (ofSource "Pen 2 Shade") (.initial scope) = some (.failed (.diagnosed diagnostic) final) ∧
      ∃ before head rest between, ofSource "Pen 2 Shade" = before ++ head :: rest ∧
        run before (.initial scope) = some (.done between) ∧
        Point.Fails run ⟨between, head :: rest, (ofSource "Pen 2 Shade").getLast?⟩
          (.diagnosed diagnostic) final ∧
        between.trace.toList <+: final.trace.toList := by
  intro body scope diagnostic final
  let child : Scope := ⟨⟨[("X", .number "1"), ("Shade", .command ⟨"Shade", [], body⟩)]⟩⟩
  let called : State := ⟨scope, #[.foreground "2"]⟩
  let assigned : State := ⟨child, #[.foreground "2"]⟩
  let painted : State := ⟨child, #[.foreground "2", .background "1"]⟩
  obtain ⟨pen, rest, shade, hTokens, hPen, hCall⟩ : ∃ pen rest shade,
      ofSource "Pen 2 Shade" = pen :: rest ∧
      Instruction.ofStatement (State.initial scope).scope pen (pen :: rest).getLast? rest =
        .ok (.draw (.foreground "2"), [shade]) ∧
      Instruction.ofStatement called.scope shade (pen :: rest).getLast? [] =
        .ok (.call scope body, []) :=
    ⟨(ofSource "Pen 2 Shade").head!, (ofSource "Pen 2 Shade").tail, (ofSource "Pen 2 Shade")[2]!,
      by decide +kernel, by decide +kernel, by decide +kernel⟩
  obtain ⟨set, others, paper, colours, undeclared, name, hBody, hSet, hPaper, hUndeclared⟩ :
      ∃ set others paper colours undeclared name, body = set :: others ∧
      Instruction.ofStatement called.scope set (set :: others).getLast? others =
        .ok (.bind "X" (.number "1"), paper :: colours) ∧
      Instruction.ofStatement assigned.scope paper (set :: others).getLast? colours =
        .ok (.draw (.background "1"), undeclared :: name) ∧
      Instruction.ofStatement painted.scope undeclared (set :: others).getLast? name =
        .error diagnostic :=
    ⟨body.head!, body.tail, body[3]!, body.drop 4, body[5]!, body.drop 6, by decide +kernel,
      by decide +kernel, by decide +kernel, by decide +kernel⟩
  clear_value body
  -- the body assigns, draws and is then refused
  have hAssigned : execute run (.bind "X" (.number "1")) called = some (.done assigned) := rfl
  have hPainted : execute run (.draw (.background "1")) assigned = some (.done painted) := rfl
  have hInner : run body called = some (.failed (.diagnosed diagnostic) painted) := by
    rw [hBody, run_eq, statements_of_done hSet hAssigned, statements_of_done hPaper hPainted,
      statements_of_error run hUndeclared]
  have hCalled : execute run (.draw (.foreground "2")) (.initial scope) = some (.done called) := rfl
  have hRun : run (ofSource "Pen 2 Shade") (.initial scope) =
      some (.failed (.diagnosed diagnostic) final) := by
    rw [hTokens, run_eq, statements_of_done hPen hCalled, statements_of_ok run hCall, execute, hInner]
    rfl
  obtain ⟨before, head, rest, between, hTokens, hBefore, hFails, -, -, -, hTrace⟩ :=
    exists_fails_of_run hRun
  exact ⟨hRun, before, head, rest, between, hTokens, hBefore, hFails, hTrace⟩

end DesignByNumbers.Program
