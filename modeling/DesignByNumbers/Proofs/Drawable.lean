import DesignByNumbers.Backend
import DesignByNumbers.Proofs.Consistency.Run
import DesignByNumbers.Proofs.Picture.Encoding
import DesignByNumbers.Proofs.Picture.Painting

/-!
# Proofs.Drawable — what a program draws can be painted

All numbers of a trace are plain numerals within the digit limit, because each of them is checked
before it is drawn. A picture can be painted from such a trace and written in either encoding, so
that a program whose trace is painted fails only while it is run.

* `exists_ofTrace` — a trace whose numbers can be drawn has a picture.
* `exists_text` — such a picture has a text.
* `raster_fails_only_in_run` — traces, pictures and whole compilations.
-/

namespace DesignByNumbers

theorem Numeral.IsDrawable.exists_parse? {text : String} (h : IsDrawable text) :
    ∃ value, parse? text = some value :=
  ⟨integer text, by rw [parse?_of_isPlain h.1, if_pos h.2]⟩

/-! ## Pictures -/

namespace Picture

variable {trace : List DrawOp} {picture : Picture}

theorem exists_addOp_of_isDrawable {op : DrawOp} (h : op.IsDrawable) (pen : String)
    (under : Picture) : ∃ upper, addOp pen op under = some upper := by
  have hField : ∀ field ∈ op.fields, ∃ value, Numeral.parse? field = some value :=
    fun field hMem => (h field hMem).exists_parse?
  cases op with
  | background colour => exact ⟨_, rfl⟩
  | foreground colour => exact ⟨_, rfl⟩
  | line x0 y0 x1 y1 =>
    obtain ⟨left, hLeft⟩ := hField x0 (by simp [DrawOp.fields])
    obtain ⟨top, hTop⟩ := hField y0 (by simp [DrawOp.fields])
    obtain ⟨right, hRight⟩ := hField x1 (by simp [DrawOp.fields])
    obtain ⟨bottom, hBottom⟩ := hField y1 (by simp [DrawOp.fields])
    simp only [addOp, Canvas.column?, Canvas.row?, hLeft, hTop, hRight, hBottom]
    exact ⟨_, rfl⟩
  | point x y colour =>
    obtain ⟨left, hLeft⟩ := hField x (by simp [DrawOp.fields])
    obtain ⟨top, hTop⟩ := hField y (by simp [DrawOp.fields])
    simp only [addOp, Canvas.column?, Canvas.row?, hLeft, hTop]
    exact ⟨_, rfl⟩

theorem exists_walk (h : ∀ op ∈ trace, op.IsDrawable) (pen : String) (under : Picture) :
    ∃ upper, Canvas.walk addOp pen under trace = .ok upper := by
  induction trace generalizing pen under with
  | nil => exact ⟨under, rfl⟩
  | cons op rest ih =>
    obtain ⟨hOp, hRest⟩ := List.forall_mem_cons.mp h
    obtain ⟨between, hBetween⟩ := exists_addOp_of_isDrawable hOp pen under
    obtain ⟨upper, hUpper⟩ := ih hRest (op.penAfter pen) between
    exact ⟨upper, Canvas.walk_cons.mpr ⟨between, hBetween, hUpper⟩⟩

/-- A trace whose numbers can be drawn has a picture. -/
theorem exists_ofTrace (h : ∀ op ∈ trace, op.IsDrawable) :
    ∃ picture, ofTrace trace = .ok picture :=
  exists_walk h DrawOp.defaultPen blank

/-! ## Colours -/

theorem isDrawable_penBehind (h : ∀ op ∈ trace, op.IsDrawable) :
    Numeral.IsDrawable (DrawOp.penBehind trace) := by
  rw [DrawOp.penBehind]
  cases hLast : (trace.filterMap DrawOp.pen?).getLast? with
  | none => exact ⟨by decide +kernel, by decide +kernel⟩
  | some colour =>
    obtain ⟨op, hOp, hPen⟩ := List.mem_filterMap.mp (List.mem_of_getLast? hLast)
    obtain rfl := DrawOp.eq_foreground_of_pen? hPen
    exact h _ hOp colour (by simp [DrawOp.fields])

theorem isDrawable_paperBehind (h : ∀ op ∈ trace, op.IsDrawable) :
    Numeral.IsDrawable (DrawOp.paperBehind trace) := by
  rw [DrawOp.paperBehind]
  cases hLast : DrawOp.lastPaper? trace with
  | none => exact ⟨by decide +kernel, by decide +kernel⟩
  | some colour =>
    exact h _ (DrawOp.background_mem_of_lastPaper? hLast) colour (by simp [DrawOp.fields])

/-- The colours of a picture are those of its trace, or those at the start. -/
theorem isDrawable_colourAt (h : ∀ op ∈ trace, op.IsDrawable)
    (hPicture : ofTrace trace = .ok picture) (row column : Fin side) :
    Numeral.IsDrawable (picture.colourAt row column) := by
  -- the law of painting tells where the colour of the cell comes from
  have hShows : Shows trace row column (picture.colourAt row column) := (shows_iff hPicture).mpr rfl
  generalize picture.colourAt row column = colour at hShows
  cases hShows with
  | unpainted hNone => exact isDrawable_paperBehind h
  | @painted before op _ hLast hInk =>
    obtain ⟨behind, rfl, -, -⟩ := hLast
    obtain ⟨hBefore, hRest⟩ := List.forall_mem_append.mp h
    cases op with
    | line =>
      -- a line has the colour of the pen, which an operation before it chose
      obtain hInk := Option.some.inj hInk
      rw [← hInk]
      exact isDrawable_penBehind hBefore
    | point x y colour =>
      obtain hInk := Option.some.inj hInk
      rw [← hInk]
      exact (List.forall_mem_cons.mp hRest).1 colour (by simp [DrawOp.fields])
    | _ => cases hInk

/-- The picture of a trace whose numbers can be drawn has a text. -/
theorem exists_text (h : ∀ op ∈ trace, op.IsDrawable) (hPicture : ofTrace trace = .ok picture)
    (encoding : Encoding) : ∃ text, picture.encode? encoding = some text := by
  refine exists_encode? fun row column => ?_
  cases encoding with
  | test => exact ⟨_, rfl⟩
  | binary =>
    -- here the colour is converted, which the digit limit permits
    obtain ⟨value, hValue⟩ := (isDrawable_colourAt h hPicture row column).exists_parse?
    exact ⟨_, Option.map_eq_some_iff.mpr ⟨value, hValue, rfl⟩⟩

end Picture

/-! ## Programs -/

/-- All names mean plain numerals. -/
def IsNumeric (context : NameMap Binding) : Prop :=
  ∀ name binding, (name, binding) ∈ context.toList →
    ∃ text, binding = .number text ∧ Numeral.isPlain text = true

section Numeric

variable {context : NameMap Binding}

theorem IsNumeric.isConsistent (h : IsNumeric context) : Scope.IsConsistent ⟨context⟩ := by
  intro name binding hEntry
  obtain ⟨text, rfl, hPlain⟩ := h name binding hEntry
  exact hPlain

theorem IsNumeric.ofBindings (h : IsNumeric context) : Scope.ofBindings context = .ok ⟨context⟩ :=
  Scope.ofBindings_eq_ok_iff.mpr ⟨Scope.defect?_eq_none_iff.mpr h.isConsistent.isPlain, rfl⟩

/-- Whatever a program has drawn when its run ends can be drawn. -/
theorem IsNumeric.isDrawable_of_run (h : IsNumeric context) {tokens : List Token}
    (hTokens : Token.verify tokens = .ok ()) {outcome : Outcome}
    (hRun : Program.run tokens (.initial ⟨context⟩) = some outcome) :
    ∀ op ∈ outcome.state.trace, op.IsDrawable := by
  have hInitial : (State.initial ⟨context⟩).IsConsistent :=
    ⟨h.isConsistent, by simp [State.initial]⟩
  exact (Program.isConsistent_of_run hTokens hInitial hRun).trace

/-- The numbers among the tokens of commands are plain numerals, as they are in every command that a
program defines. There need not be any commands. -/
def HasNumerals (context : NameMap Binding) : Prop :=
  ∀ name command, (name, .command command) ∈ context.toList → ∀ token ∈ command.body, token.IsNumeral

theorem IsNumeric.hasNumerals (h : IsNumeric context) : HasNumerals context := by
  intro name command hEntry
  obtain ⟨text, hNumber, -⟩ := h name _ hEntry
  cases hNumber

/-- What a program draws can be drawn. That its names mean plain numerals, if they mean numbers, is
known from the success of its run. -/
theorem HasNumerals.isDrawable_of_interpret (h : HasNumerals context) {tokens : List Token}
    {trace : Array DrawOp} (hTrace : Program.interpret tokens context = .ok trace) :
    ∀ op ∈ trace.toList, op.IsDrawable := by
  obtain ⟨hVerify, scope, state, hScope, hRun, rfl⟩ := Program.exists_run_of_interpret hTrace
  obtain ⟨hDefect, rfl⟩ := Scope.ofBindings_eq_ok_iff.mp hScope
  have hOver : Scope.IsOver Token.IsNumeral ⟨context⟩ := by
    intro name binding hEntry
    cases binding with
    | number text => exact Scope.defect?_eq_none_iff.mp hDefect name text hEntry
    | command command => exact h name command hEntry
  have hInvariant := (Program.isInvariant_isOver fun _ hNumeral => hNumeral).withDrawable
  have hKeeps := hInvariant.keeps_of_run (Token.isNumeral_of_verify hVerify)
    ⟨hOver, by simp [State.initial]⟩ hRun
  exact fun op hOp => hKeeps.state.2 op (Array.mem_toList_iff.mp hOp)

end Numeric

namespace Backend

/-- A trace that can be drawn is painted and written without a failure. -/
theorem exists_draw_raster {trace : List DrawOp} (h : ∀ op ∈ trace, op.IsDrawable)
    (encoding : Picture.Encoding) : ∃ text, draw (.raster encoding) trace = .ok text := by
  obtain ⟨picture, hPicture⟩ := Picture.exists_ofTrace h
  obtain ⟨text, hText⟩ := Picture.exists_text h hPicture encoding
  exact ⟨text, by simp only [draw, hPicture, hText]⟩

/-- A source that runs to its end has a text. -/
theorem exists_compile_raster {source : String} {context : NameMap Binding}
    (hContext : HasNumerals context) {trace : Array DrawOp}
    (hTrace : Program.interpret (Token.ofSource source) context = .ok trace)
    (encoding : Picture.Encoding) : ∃ text, compile (.raster encoding) source context = .ok text := by
  obtain ⟨text, hText⟩ := exists_draw_raster (hContext.isDrawable_of_interpret hTrace) encoding
  refine ⟨text, ?_⟩
  rw [compile, hTrace]
  exact hText

/-- From names that mean plain numerals, a run of well-formed tokens draws only plain numerals
within the digit limit, until it ends in success or in failure; the trace of a program has a
picture, which has a text in either encoding; and so the compilation of a source to such a text
fails where its run does, with the same failure, and nowhere else. -/
theorem raster_fails_only_in_run {context : NameMap Binding} (hContext : IsNumeric context) :
    Scope.ofBindings context = .ok ⟨context⟩ ∧
    (∀ tokens outcome, Token.verify tokens = .ok () →
      Program.run tokens (.initial ⟨context⟩) = some outcome →
      ∀ op ∈ outcome.state.trace, op.IsDrawable) ∧
    (∀ tokens trace, Program.interpret tokens context = .ok trace →
      ∃ picture, Picture.ofTrace trace.toList = .ok picture ∧
        ∀ encoding, ∃ text, picture.encode? encoding = some text) ∧
    (∀ source encoding failure, compile (.raster encoding) source context = .error failure ↔
      Program.interpret (Token.ofSource source) context = .error failure) := by
  refine ⟨hContext.ofBindings, fun tokens outcome hTokens => hContext.isDrawable_of_run hTokens,
    ?_, ?_⟩
  · intro tokens trace hTrace
    have hDrawable := hContext.hasNumerals.isDrawable_of_interpret hTrace
    obtain ⟨picture, hPicture⟩ := Picture.exists_ofTrace hDrawable
    exact ⟨picture, hPicture, Picture.exists_text hDrawable hPicture⟩
  · intro source encoding failure
    rw [compile]
    -- once there is a trace, drawing it cannot fail, and neither side of the statement holds
    cases hTrace : Program.interpret (Token.ofSource source) context with
    | error failure' =>
      show (Except.error failure' : Except Failure String) = .error failure ↔ _
      simp
    | ok trace =>
      obtain ⟨text, hText⟩ :=
        exists_draw_raster (hContext.hasNumerals.isDrawable_of_interpret hTrace) encoding
      show draw (.raster encoding) trace.toList = .error failure ↔ _
      simp [hText]

/-- A paper whose colour is a negative number with a leading zero. -/
theorem raster_fails_only_in_run_paper :
    let context : NameMap Binding := .ofList [("X", .number "-07")]
    IsNumeric context ∧
      Program.interpret (Token.ofSource "Paper X") context = .ok #[.background "-07"] ∧
      (∃ picture, Picture.ofTrace [.background "-07"] = .ok picture ∧
        ∀ encoding, ∃ text, picture.encode? encoding = some text) ∧
      ∀ encoding failure, compile (.raster encoding) "Paper X" context ≠ .error failure := by
  intro context
  have hContext : IsNumeric context := by
    intro name binding hEntry
    cases List.mem_singleton.mp hEntry
    exact ⟨"-07", rfl, by decide +kernel⟩
  have hTrace : Program.interpret (Token.ofSource "Paper X") context = .ok #[.background "-07"] := by
    obtain ⟨head, rest, hTokens, hRead⟩ : ∃ head rest, Token.ofSource "Paper X" = head :: rest ∧
        Instruction.ofStatement (State.initial ⟨context⟩).scope head (head :: rest).getLast? rest =
          .ok (.draw (.background "-07"), []) :=
      ⟨(Token.ofSource "Paper X").head!, (Token.ofSource "Paper X").tail, by decide +kernel⟩
    have hVerify : Token.verify (Token.ofSource "Paper X") = .ok () := by decide +kernel
    have hRun := Program.run_single hRead
    rw [Program.interpret, hVerify, hContext.ofBindings]
    simp only [hTokens, hRun]
    rfl
  obtain ⟨-, -, hPicture, hCompile⟩ := raster_fails_only_in_run hContext
  refine ⟨hContext, hTrace, hPicture _ _ hTrace, fun encoding failure hFailure => ?_⟩
  rw [hCompile, hTrace] at hFailure
  cases hFailure

end Backend

end DesignByNumbers
