import DesignByNumbers.Backend
import DesignByNumbers.Proofs.Lexer
import DesignByNumbers.Proofs.Markup
import DesignByNumbers.Proofs.Run
import DesignByNumbers.Proofs.Tree.Interpretation

/-!
# Proofs.Backend — how a compilation ends

A program is refused with a diagnostic while it is run and while its trace is drawn, whatever
its numbers are. Only the text of a vector graphic can be missing without one, where a row has
more digits than the height that it was computed from.

* `compile_dotBelow` — a dot whose drawing has no text.
* `vector_reports_iff` — the programs whose failures are all reported.
-/

namespace DesignByNumbers.Backend

/-! ## A dot far below the canvas -/

/-- A program that draws a dot in the first column, as far below the canvas as the digits say. -/
def dotBelow (digits : String) : String :=
  "Set [0 -" ++ "\n" ++ (digits ++ "\n" ++ "] 0")

section Dot

variable {digits : List Char}

theorem interpret_dotBelow (hDigits : Numeral.isDigits digits = true)
    (hLength : digits.length ≤ Numeral.digitLimit) :
    Program.interpret (Token.ofSource (dotBelow (String.ofList digits))) .empty =
      .ok #[.point "0" (String.ofList ('-' :: digits)) "0"] := by
  let zero : Tree.Value := .number ⟨"0", by decide +kernel⟩
  let height : Tree.Value := .negation (.number ⟨String.ofList digits, by simpa using hDigits⟩)
  have hTokens : (Token.ofSource (dotBelow (String.ofList digits))).map Token.content =
      Tree.programContents [.dot zero height zero] := by
    have hNumber := Token.content_ofSource_digits hDigits
    have hAbove : (Token.ofSource "Set [0 -").map Token.content =
        [.word "Set", .symbol "[", .number "0", .symbol "-"] := by decide +kernel
    have hBehind : (Token.ofSource "] 0").map Token.content = [.symbol "]", .number "0"] := by
      decide +kernel
    have hBelow : ∀ lines, Token.content ∘ Token.below lines = Token.content := fun _ => rfl
    -- the digits stand on a line of their own, where they are one token
    rw [dotBelow, Token.ofSource_newline, Token.ofSource_newline, List.map_append, List.map_map,
      hBelow, List.map_append, List.map_map, hBelow, hAbove, hNumber, hBehind]
    rfl
  have hZero : Tree.Scope.drawable? .empty zero = some "0" := by decide +kernel
  have hHeight : Tree.Scope.drawable? .empty height = some (String.ofList ('-' :: digits)) := by
    have hValue : Tree.Scope.value? .empty height = some (String.ofList ('-' :: digits)) :=
      congrArg some (Numeral.negate_ofList hDigits)
    rw [Tree.Scope.drawable?, hValue]
    show (Numeral.bounded? (String.ofList ('-' :: digits))).bind _ = _
    rw [Numeral.bounded?, Numeral.digitCount_minus, if_pos hLength]
    rfl
  have hProgram : Tree.Evaluates (.program [.dot zero height zero]) .empty
      [.point "0" (String.ofList ('-' :: digits)) "0"] .empty :=
    .next (.dot hZero hHeight hZero) .done
  have hScope : Tree.Represents .empty .empty := NameMap.Related.empty
  obtain ⟨scope', hRun, -⟩ := hProgram.runs.run #[] hTokens hScope
  have hVerify : Token.verify (Token.ofSource (dotBelow (String.ofList digits))) = .ok () := by
    rw [Token.verify_eq_ok_iff, hTokens]
    exact (Tree.isText_programContents _).wellFormed
  have hEmpty : Scope.ofBindings .empty = .ok .empty := rfl
  have hInitial : State.initial .empty = ⟨.empty, #[]⟩ := rfl
  rw [Program.interpret, hVerify, hEmpty]
  simp only [hInitial, hRun]
  rfl

/-- Such a dot is drawn, and its drawing has no text if the row gains a digit. -/
theorem compile_dotBelow (hDigits : Numeral.isDigits digits = true)
    (hLength : digits.length ≤ Numeral.digitLimit)
    (hHeight : 10 ^ Numeral.digitLimit ≤ Numeral.ofAsciiDigits digits + 100) :
    compile (.vector .default) (dotBelow (String.ofList digits)) .empty = .error .unconvertible := by
  have hParse := Numeral.parse?_minus hDigits hLength
  have hLow : DrawOp.IsTooLow (.point "0" (String.ofList ('-' :: digits)) "0") := by
    refine ⟨_, List.mem_singleton.mpr rfl, _, hParse, ?_⟩
    rw [Canvas.extent, ← Numeral.natCast_ten_pow_digitLimit]
    -- the power is kept from being computed
    generalize 10 ^ Numeral.digitLimit = power at hHeight
    omega
  have hElement : ∃ element, Markup.ofTrace .default
      [.point "0" (String.ofList ('-' :: digits)) "0"] = .ok element := by
    have hZero : Numeral.parse? "0" = some 0 := by decide +kernel
    have hWhite : Markup.rgb? "0" = some "rgb(100%,100%,100%)" := by decide +kernel
    simp only [Markup.ofTrace, Canvas.draw, Canvas.walk, Markup.addShape, Canvas.column?,
      Canvas.row?, hParse, hZero, hWhite]
    exact ⟨_, rfl⟩
  obtain ⟨element, hElement⟩ := hElement
  have hNone := (Markup.print?_ofTrace_eq_none_iff hElement).mpr
    ⟨_, List.mem_singleton.mpr rfl, hLow⟩
  rw [compile, interpret_dotBelow hDigits hLength]
  show draw (.vector .default) [.point "0" (String.ofList ('-' :: digits)) "0"] = _
  simp only [draw, hElement, hNone]

end Dot

/-! ## Reported failures -/

/-- A compilation ends with a text or a diagnostic, unless it goes on for ever. -/
def Reports (result : Except Failure String) : Prop :=
  (∃ text, result = .ok text) ∨ (∃ diagnostic, result = .error (.diagnosed diagnostic)) ∨
    result = .error .endless

/-- A vector graphic fails without a diagnostic exactly when the program was run and drawn, and
a height that it drew is so far below the canvas that its row has no text. -/
theorem vector_reports_iff (source : String) (context : NameMap Binding) :
    Reports (compile (.vector .default) source context) ↔
      ¬ ∃ trace element, Program.interpret (Token.ofSource source) context = .ok trace ∧
        Markup.ofTrace .default trace.toList = .ok element ∧ ∃ op ∈ trace.toList, op.IsTooLow := by
  cases hTrace : Program.interpret (Token.ofSource source) context with
  | error failure =>
    have hCompile : compile (.vector .default) source context = .error failure := by
      rw [compile, hTrace]
      rfl
    have hReports : Reports (.error failure) := by
      rcases Program.exists_diagnosed_of_interpret hTrace with rfl | ⟨diagnostic, rfl⟩
      · exact .inr (.inr rfl)
      · exact .inr (.inl ⟨diagnostic, rfl⟩)
    simp [hCompile, hReports]
  | ok trace =>
    have hCompile : compile (.vector .default) source context =
        draw (.vector .default) trace.toList := by
      rw [compile, hTrace]
      rfl
    rw [hCompile]
    cases hElement : Markup.ofTrace .default trace.toList with
    | error diagnostic =>
      have hReports : Reports (draw (.vector .default) trace.toList) := by
        refine .inr (.inl ⟨diagnostic, ?_⟩)
        simp [draw, hElement]
      simp [hReports, hElement]
    | ok element =>
      have hLacks := Markup.print?_ofTrace_eq_none_iff hElement
      cases hText : element.print? with
      | none =>
        have hFails : ¬ Reports (draw (.vector .default) trace.toList) := by
          simp [Reports, draw, hElement, hText]
        have hLow := hLacks.mp hText
        exact iff_of_false hFails fun hNone => hNone ⟨trace, element, rfl, hElement, hLow⟩
      | some text =>
        have hReports : Reports (draw (.vector .default) trace.toList) :=
          .inl ⟨text, by simp [draw, hElement, hText]⟩
        refine iff_of_true hReports ?_
        rintro ⟨trace', element', hTrace', -, hLow⟩
        cases hTrace'
        rw [hLacks.mpr hLow] at hText
        cases hText

/-- As many nines below the canvas as a numeral may have digits, a dot leaves the compilation
without a text and without a diagnostic. -/
theorem not_reports_of_nines :
    let source := dotBelow (String.ofList (List.replicate Numeral.digitLimit '9'))
    compile (.vector .default) source .empty = .error .unconvertible ∧
      ¬ Reports (compile (.vector .default) source .empty) := by
  intro source
  have hDigits : Numeral.isDigits (List.replicate Numeral.digitLimit '9') = true := by
    have hPositive : Numeral.digitLimit ≠ 0 := by decide
    have hNine : '9'.isDigit = true := by decide
    simp [Numeral.isDigits, hPositive, hNine]
  have hLength : (List.replicate Numeral.digitLimit '9').length ≤ Numeral.digitLimit :=
    Nat.le_of_eq List.length_replicate
  have hHeight : 10 ^ Numeral.digitLimit ≤
      Numeral.ofAsciiDigits (List.replicate Numeral.digitLimit '9') + 100 := by
    rw [← Numeral.ofAsciiDigits_nines]
    omega
  have hCompile : compile (.vector .default) source .empty = .error .unconvertible :=
    compile_dotBelow hDigits hLength hHeight
  refine ⟨hCompile, ?_⟩
  rw [hCompile]
  simp [Reports]

end DesignByNumbers.Backend
