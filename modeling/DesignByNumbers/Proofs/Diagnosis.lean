import DesignByNumbers.Proofs.Drawable
import DesignByNumbers.Proofs.Lexer
import DesignByNumbers.Proofs.Lexer.Partition

/-!
# Proofs.Diagnosis — which failures a program can have, and where

Numbers that come from outside are plain numerals, and so are all numbers that a program computes.
Nothing is then converted in vain and nothing is refused without a place: if a program does not run
to its end and does not go on for ever, a problem is reported at one of its tokens.

* `exists_report_of_interpret` — a program that fails reports a problem at one of its tokens.
* `interpret_fails_only` — the problems that verified tokens can have.
* `interpret_points` — where the rendering of a diagnostic points.
-/

namespace DesignByNumbers

open Program (interpret run)
open Token (linesOf ofSource)

/-! ## Reports -/

section Reports

variable {context : NameMap Binding} {tokens : List Token}

theorem IsNumeric.isOver (h : IsNumeric context) {Q : Token → Prop} : Scope.IsOver Q ⟨context⟩ := by
  intro name binding hEntry
  obtain ⟨text, rfl, hPlain⟩ := h name binding hEntry
  exact hPlain

/-- A run of verified tokens that fails reports a problem at one of them, at whatever depth. -/
theorem exists_report_of_run (hContext : IsNumeric context) (hTokens : Token.verify tokens = .ok ())
    {failure : Failure} {state : State}
    (hRun : run tokens (.initial ⟨context⟩) = some (.failed failure state)) :
    ∃ diagnostic, failure = .diagnosed diagnostic ∧ diagnostic.IsReport (· ∈ tokens) := by
  have hNumeral := Token.isNumeral_of_verify hTokens
  have hKeeps := (Program.isInvariant_isOver hNumeral).keeps_of_run (fun _ hToken => hToken)
    hContext.isOver hRun
  exact hKeeps.report failure rfl

/-- A program that fails reports a problem at one of its tokens, or goes on for ever. -/
theorem exists_report_of_interpret (hContext : IsNumeric context) {failure : Failure}
    (h : interpret tokens context = .error failure) :
    failure = .endless ∨
      ∃ diagnostic, failure = .diagnosed diagnostic ∧ diagnostic.IsReport (· ∈ tokens) := by
  have hVerified := isAnswer_verify fun token (hToken : token ∈ tokens) => hToken
  -- the context passes its check, so that only the tokens and their run can fail
  rw [interpret, hContext.ofBindings] at h
  cases hTokens : Token.verify tokens with
  | error diagnostic =>
    rw [hTokens] at h hVerified
    cases h
    cases hVerified with
    | error hReport => exact .inr ⟨diagnostic, rfl, hReport⟩
  | ok _ =>
    rw [hTokens] at h
    simp only at h
    split at h
    next => cases h
    next hRun =>
      cases h
      exact .inr (exists_report_of_run hContext hTokens hRun)
    next =>
      cases h
      exact .inl rfl

/-- What is reported of well-formed tokens is the program's fault, or a symbol with which no value
starts. -/
theorem Diagnostic.IsReport.of_isWellFormed {Q : Token → Prop}
    (hQ : ∀ token, Q token → token.isWellFormed = true) {diagnostic : Diagnostic}
    (h : diagnostic.IsReport Q) :
    diagnostic.category = .input ∨ ∃ token, Q token ∧ token.kind = .symbol ∧ token.text ≠ "(" ∧
      token.text ≠ "-" ∧ diagnostic = .blame token (.notAValue token.text) := by
  cases h with
  | input hToken hInput => exact .inl hInput
  | @notAValue token hToken hWord hNumber hMinus hOpening =>
    -- of the well-formed tokens only the symbols are left
    have hKind : token.kind = .symbol := by
      have hWellFormed := hQ token hToken
      rw [Token.isWellFormed] at hWellFormed
      cases hKind : token.kind with
      | word => exact absurd hKind hWord
      | number => exact absurd hKind hNumber
      | symbol => rfl
      | unknown name =>
        rw [hKind] at hWellFormed
        cases hWellFormed
    refine .inr ⟨token, hToken, hKind, ?_, ?_, rfl⟩
    · simpa [Token.isSymbol, hKind] using hOpening
    · simpa [Token.isSymbol, hKind] using hMinus
  | @malformed token hToken hMalformed =>
    rw [hQ token hToken] at hMalformed
    cases hMalformed

end Reports

/-! ## Failures -/

theorem Problem.message_notAValue (text : String) :
    message (.notAValue text) = "Cannot resolve \"" ++ text ++ "\" to a number." := by
  have hOpening : "Cannot resolve \"" = "Cannot resolve " ++ "\"" := by decide +kernel
  have hClosing : "\" to a number." = "\"" ++ " to a number." := by decide +kernel
  show "Cannot resolve " ++ ("\"" ++ text ++ "\"") ++ " to a number." = _
  rw [hOpening, hClosing]
  simp only [String.append_assoc]

/-- A program of verified tokens has a trace, goes on for ever, is at fault itself, or asks for a
value where it has a symbol that starts none. No block is refused that was read out of verified
tokens, and no number fails to be converted without being reported. -/
theorem interpret_fails_only {tokens : List Token} {context : NameMap Binding}
    (hTokens : Token.verify tokens = .ok ()) (hContext : IsNumeric context) :
    (∃ trace, interpret tokens context = .ok trace) ∨
    interpret tokens context = .error .endless ∨
    ∃ diagnostic, interpret tokens context = .error (.diagnosed diagnostic) ∧
      (diagnostic.category = .input ∨
        ∃ token ∈ tokens, token.kind = .symbol ∧ token.text ≠ "(" ∧ token.text ≠ "-" ∧
          diagnostic.category = .internal ∧
          diagnostic.message = "Cannot resolve \"" ++ token.text ++ "\" to a number." ∧
          diagnostic.location = some token.location) := by
  cases hInterpret : interpret tokens context with
  | ok trace => exact .inl ⟨trace, rfl⟩
  | error failure =>
    rcases exists_report_of_interpret hContext hInterpret with rfl | ⟨diagnostic, rfl, hReport⟩
    · exact .inr (.inl rfl)
    · refine .inr (.inr ⟨diagnostic, rfl, ?_⟩)
      rcases hReport.of_isWellFormed (Token.isWellFormed_of_verify hTokens) with
        hInput | ⟨token, hToken, hKind, hOpening, hMinus, rfl⟩
      · exact .inl hInput
      · exact .inr ⟨token, hToken, hKind, hOpening, hMinus, rfl, Problem.message_notAValue token.text, rfl⟩

/-- A bracket in the place of a colour. -/
theorem interpret_fails_only_bracket :
    let tokens := ofSource "Paper ]"
    let context : NameMap Binding := .ofList [("X", .number "-07")]
    Token.verify tokens = .ok () ∧ IsNumeric context ∧
      interpret tokens context =
        .error (.diagnosed ⟨.notAValue "]", some ⟨1, 6, "Paper ]"⟩⟩) ∧
      ∃ token ∈ tokens, token.kind = .symbol ∧ token.text ≠ "(" ∧ token.text ≠ "-" ∧
        some ⟨1, 6, "Paper ]"⟩ = some token.location := by
  intro tokens context
  have hTokens : Token.verify tokens = .ok () := by decide +kernel
  have hContext : IsNumeric context := by
    intro name binding hEntry
    cases List.mem_singleton.mp hEntry
    exact ⟨"-07", rfl, by decide +kernel⟩
  have hInterpret : interpret tokens context =
      .error (.diagnosed ⟨.notAValue "]", some ⟨1, 6, "Paper ]"⟩⟩) := by
    obtain ⟨head, rest, hCons, hRead⟩ : ∃ head rest, ofSource "Paper ]" = head :: rest ∧
        Instruction.ofStatement (State.initial ⟨context⟩).scope head (head :: rest).getLast? rest =
          .error ⟨.notAValue "]", some ⟨1, 6, "Paper ]"⟩⟩ :=
      ⟨(ofSource "Paper ]").head!, (ofSource "Paper ]").tail, by decide +kernel⟩
    rw [interpret, hTokens, hContext.ofBindings]
    simp only [tokens, hCons, Program.run_eq, Program.statements_of_error run hRead]
  refine ⟨hTokens, hContext, hInterpret, ?_⟩
  rcases interpret_fails_only hTokens hContext with
    ⟨trace, hTrace⟩ | hEndless | ⟨diagnostic, hDiagnosed, hFault⟩
  · rw [hInterpret] at hTrace
    cases hTrace
  · rw [hInterpret] at hEndless
    cases hEndless
  · rw [hInterpret] at hDiagnosed
    cases hDiagnosed
    rcases hFault with hInput | ⟨token, hToken, hKind, hOpening, hMinus, -, -, hLocation⟩
    · cases hInput
    · exact ⟨token, hToken, hKind, hOpening, hMinus, hLocation⟩

/-! ## Places -/

/-- A line of a text holds no line feed. -/
theorem Token.feed_not_mem_of_mem_linesOf {source : String} {line : List Char}
    (h : line ∈ linesOf source) : '\n' ∉ line := by
  rw [linesOf] at h
  generalize source.toList = text at h
  induction text generalizing line with
  | nil =>
    rw [List.splitOn_nil, List.mem_singleton] at h
    rw [h]
    exact List.not_mem_nil
  | cons c rest ih =>
    rw [List.splitOn_cons_eq_if_modifyHead] at h
    obtain ⟨first, others, hSplit⟩ := List.exists_cons_of_ne_nil (List.splitOn_ne_nil '\n' rest)
    rw [hSplit] at h ih
    split at h
    next =>
      rcases List.mem_cons.mp h with rfl | hRest
      · exact List.not_mem_nil
      · exact ih hRest
    next hFeed =>
      -- a character that ends no line stands in front of the first one
      rw [List.modifyHead_cons] at h
      rcases List.mem_cons.mp h with rfl | hOthers
      · have hFirst : '\n' ∉ first := ih (List.mem_cons_self ..)
        rw [beq_iff_eq] at hFeed
        exact List.not_mem_cons_of_ne_of_not_mem (Ne.symm hFeed) hFirst
      · exact ih (List.mem_cons_of_mem _ hOthers)

namespace Diagnostic

/-- What stands in front of a line in a rendering. -/
def margin : List Char := [' ', ' ']

/-- A rendering ends with a line of text, and below it a caret that stands in a column of it. -/
def PointsAt (diagnostic : Diagnostic) (line : List Char) (column : Nat) : Prop :=
  ∃ above, linesOf diagnostic.render =
    above ++ [margin ++ line, margin ++ List.replicate column ' ' ++ ['^']]

/-- The rendering of a place points at its column in its line. -/
theorem pointsAt_of_location {diagnostic : Diagnostic} {number : Int} {column : Nat}
    {line : List Char} (hLine : '\n' ∉ line)
    (h : diagnostic.location = some ⟨number, column, String.ofList line⟩) :
    diagnostic.PointsAt line column := by
  obtain ⟨problem, location⟩ := diagnostic
  cases h
  let above := severity ++ ": " ++ spaces (labelWidth - severity.length) ++ problem.message ++
    "\nLocation: " ++ spaces (severity.length - labelWidth) ++ Numeral.decimal number ++ ":" ++
      Numeral.decimal column
  have hText : render ⟨problem, some ⟨number, column, String.ofList line⟩⟩ =
      above ++ "\n" ++ String.ofList (margin ++ line) ++ "\n" ++
        String.ofList (margin ++ List.replicate column ' ' ++ ['^']) := by
    apply String.toList_injective
    simp [render, layout, message, above, margin, spaces, String.toList_append]
  -- the last two lines hold no line feed, wherever those of the message stand
  have hShown : '\n' ∉ margin ++ line := by
    simp [margin, hLine]
  have hCaret : '\n' ∉ margin ++ List.replicate column ' ' ++ ['^'] := by
    simp [margin]
  refine ⟨linesOf above, ?_⟩
  rw [hText, Token.linesOf_newline, Token.linesOf_newline, List.append_assoc, linesOf,
    linesOf, linesOf, String.toList_ofList, String.toList_ofList, List.splitOn_eq_singleton hShown,
    List.splitOn_eq_singleton hCaret]
  rfl

end Diagnostic

/-- Every diagnostic of a source text has a place, which is that of one of its tokens: the context
is the line with the number that is told, the token starts in the column that is told, and the caret
in the last line of the rendering stands under the first character of the token. -/
theorem interpret_points {source : String} {context : NameMap Binding} (hContext : IsNumeric context)
    {diagnostic : Diagnostic}
    (h : interpret (ofSource source) context = .error (.diagnosed diagnostic)) :
    ∃ token ∈ ofSource source, ∃ (index column : Nat) (row : List Char) (first : Char),
      (linesOf source)[index]? = some row ∧
      token.location = ⟨index + 1, column, String.ofList row⟩ ∧
      diagnostic.location = some token.location ∧
      token.text.toList <+: row.drop column ∧
      token.text.toList.head? = some first ∧ row[column]? = some first ∧
      diagnostic.PointsAt row column := by
  obtain ⟨token, hToken, hLocated⟩ :
      ∃ token ∈ ofSource source, diagnostic.location = some token.location := by
    rcases exists_report_of_interpret hContext h with hEndless | ⟨_, hDiagnosed, hReport⟩
    · cases hEndless
    · cases hDiagnosed
      cases hReport with
      | input hToken => exact ⟨_, hToken, rfl⟩
      | notAValue hToken => exact ⟨_, hToken, rfl⟩
      | malformed hToken => exact ⟨_, hToken, rfl⟩
  obtain ⟨index, column, row, hRow, hLocation, hUnit⟩ := Token.mem_ofSource.mp hToken
  obtain ⟨first, rest, hText⟩ := List.exists_cons_of_ne_nil hUnit.ne_nil
  have hPrefix := hUnit.isPrefix
  refine ⟨token, hToken, index, column, row, first, hRow, hLocation, hLocated, hPrefix, ?_, ?_, ?_⟩
  · rw [hText, List.head?_cons]
  · -- the token stands in front of what is left of the line from its column on
    obtain ⟨behind, hDrop⟩ := hPrefix
    rw [← List.head?_drop, ← hDrop, hText, List.cons_append, List.head?_cons]
  · have hFeed := Token.feed_not_mem_of_mem_linesOf (List.mem_of_getElem? hRow)
    exact Diagnostic.pointsAt_of_location hFeed (hLocated.trans (congrArg some hLocation))

/-- A name without a meaning on the second line of a text. -/
theorem interpret_points_undeclared :
    IsNumeric .empty ∧ ∃ diagnostic,
      interpret (ofSource "Paper 5\n Pen Y") .empty = .error (.diagnosed diagnostic) ∧
      diagnostic.location = some ⟨2, 5, " Pen Y"⟩ ∧
      (∃ token ∈ ofSource "Paper 5\n Pen Y", token.location = ⟨2, 5, " Pen Y"⟩) ∧
      diagnostic.PointsAt " Pen Y".toList 5 := by
  have hContext : IsNumeric .empty := fun _ _ hEntry => absurd hEntry List.not_mem_nil
  have hInterpret : interpret (ofSource "Paper 5\n Pen Y") .empty =
      .error (.diagnosed ⟨.undeclared "Y", some ⟨2, 5, " Pen Y"⟩⟩) := by
    obtain ⟨paper, colour, pen, rest, hTokens, hPaper, hPen⟩ : ∃ paper colour pen rest,
        ofSource "Paper 5\n Pen Y" = paper :: colour :: pen :: rest ∧
        Instruction.ofStatement (State.initial .empty).scope paper
          (paper :: colour :: pen :: rest).getLast? (colour :: pen :: rest) =
            .ok (.draw (.background "5"), pen :: rest) ∧
        Instruction.ofStatement ((State.initial .empty).draw (.background "5")).scope pen
          (paper :: colour :: pen :: rest).getLast? rest =
            .error ⟨.undeclared "Y", some ⟨2, 5, " Pen Y"⟩⟩ :=
      ⟨(ofSource "Paper 5\n Pen Y")[0]!, (ofSource "Paper 5\n Pen Y")[1]!,
        (ofSource "Paper 5\n Pen Y")[2]!, (ofSource "Paper 5\n Pen Y").drop 3, by decide +kernel⟩
    have hVerify : Token.verify (ofSource "Paper 5\n Pen Y") = .ok () := by decide +kernel
    have hRun : run (paper :: colour :: pen :: rest) (.initial .empty) =
        some (.failed (.diagnosed ⟨.undeclared "Y", some ⟨2, 5, " Pen Y"⟩⟩)
          ((State.initial .empty).draw (.background "5"))) := by
      rw [Program.run_eq, Program.statements_of_ok run hPaper, Program.execute, Option.bind_some,
        Outcome.done_andThen, Program.statements_of_error run hPen]
    rw [interpret, hVerify, hContext.ofBindings, hTokens]
    simp only [show (⟨.empty⟩ : Scope) = .empty from rfl, hRun]
  obtain ⟨token, hToken, index, column, line, first, hIndex, hLocation, hLocated, -, -, -, hPoints⟩ :=
    interpret_points hContext hInterpret
  have hPlace : token.location = ⟨2, 5, " Pen Y"⟩ := (Option.some.inj hLocated).symm
  refine ⟨hContext, _, hInterpret, rfl, ⟨token, hToken, hPlace⟩, ?_⟩
  obtain ⟨hNumber, hColumn, hText⟩ := Location.mk.inj (hLocation.symm.trans hPlace)
  have hLine : " Pen Y".toList = line := by rw [← hText, String.toList_ofList]
  have hFive : column = 5 := by exact_mod_cast hColumn
  rw [hLine, ← hFive]
  exact hPoints

end DesignByNumbers
