import DesignByNumbers.Canvas

/-!
# Proofs.Trace — what counts last in a trace

What is drawn last lies on top, a line has the colour of the pen chosen last before it, and the
paper has the colour chosen last at all. All three are told from the trace alone, without
walking it.

* `exists_isLast_or` — some item of a list is the last with a property, or none has it.
* `Canvas.walk_append`, `Canvas.walk_split` — a trace is walked in two parts, the second one
  with the pen behind the first.
-/

namespace DesignByNumbers

section Last

variable {α : Type} {P : α → Prop}

/-- An item of a list, given what stands before it, is the last one with a property. -/
def IsLast (P : α → Prop) (items before : List α) (item : α) : Prop :=
  ∃ behind, items = before ++ item :: behind ∧ P item ∧ ∀ later ∈ behind, ¬ P later

theorem IsLast.cons {items before : List α} {item : α} (h : IsLast P items before item)
    (first : α) : IsLast P (first :: items) (first :: before) item := by
  obtain ⟨behind, rfl, hItem, hBehind⟩ := h
  exact ⟨behind, rfl, hItem, hBehind⟩

theorem IsLast.holds {items before : List α} {item : α} (h : IsLast P items before item) :
    P item := by
  obtain ⟨behind, -, hItem, -⟩ := h
  exact hItem

/-- Items without the property can follow. -/
theorem IsLast.append {items before more : List α} {item : α} (h : IsLast P items before item)
    (hMore : ∀ later ∈ more, ¬ P later) : IsLast P (items ++ more) before item := by
  obtain ⟨behind, rfl, hItem, hBehind⟩ := h
  refine ⟨behind ++ more, by rw [List.append_assoc, List.cons_append], hItem, ?_⟩
  intro later hLater
  rcases List.mem_append.mp hLater with hLater | hLater
  · exact hBehind later hLater
  · exact hMore later hLater

theorem isLast_concat {items : List α} {item : α} (h : P item) :
    IsLast P (items ++ [item]) items item :=
  ⟨[], rfl, h, by simp⟩

/-- There is only one last item with a property. -/
theorem IsLast.unique {items before before' : List α} {item item' : α}
    (h : IsLast P items before item) (h' : IsLast P items before' item') : item = item' := by
  obtain ⟨behind, rfl, hItem, hBehind⟩ := h
  obtain ⟨behind', hItems, hItem', hBehind'⟩ := h'
  -- where the two did not stand at one place, one would stand behind the other
  rcases List.append_eq_append_iff.mp hItems with ⟨gap, -, hGap⟩ | ⟨gap, -, hGap⟩
  · cases gap with
    | nil => exact (List.cons.inj hGap).1
    | cons first gap =>
      obtain ⟨rfl, rfl⟩ := List.cons.inj hGap
      exact absurd hItem' (hBehind item' (by simp))
  · cases gap with
    | nil => exact (List.cons.inj hGap).1.symm
    | cons first gap =>
      obtain ⟨rfl, rfl⟩ := List.cons.inj hGap
      exact absurd hItem (hBehind' item (by simp))

/-- Some item of a list is the last one with a property, unless none has it. -/
theorem exists_isLast_or (P : α → Prop) (items : List α) :
    (∃ before item, IsLast P items before item) ∨ ∀ item ∈ items, ¬ P item := by
  induction items with
  | nil => exact .inr (by simp)
  | cons first rest ih =>
    rcases ih with ⟨before, item, hLast⟩ | hNone
    · exact .inl ⟨first :: before, item, hLast.cons first⟩
    · by_cases hFirst : P first
      · exact .inl ⟨[], first, rest, rfl, hFirst, hNone⟩
      · exact .inr (List.forall_mem_cons.mpr ⟨hFirst, hNone⟩)

end Last

namespace DrawOp

/-! ## Pens and papers -/

/-- The colour of the lines that follow, if an operation chooses one. -/
def pen? : DrawOp → Option String
  | .foreground colour => some colour
  | _ => none

/-- The colour of the paper, if an operation chooses one. -/
def paper? : DrawOp → Option String
  | .background colour => some colour
  | _ => none

/-- The pen behind a trace: the one chosen last, or the one at the start. -/
def penBehind (trace : List DrawOp) : String :=
  (trace.filterMap pen?).getLast?.getD defaultPen

/-- The colour of the paper that a trace chooses last. -/
def lastPaper? (trace : List DrawOp) : Option String :=
  (trace.filterMap paper?).getLast?

/-- The colour of the paper behind a trace. -/
def paperBehind (trace : List DrawOp) : String :=
  (lastPaper? trace).getD defaultPaper

/-- An operation gives the cells that it covers one colour, the pen's if it is a line. -/
def ink? (pen : String) : DrawOp → Option String
  | .line .. => some pen
  | .point _ _ colour => some colour
  | _ => none

theorem getLast?_filterMap_cons (f : DrawOp → Option String) (op : DrawOp) (rest : List DrawOp) :
    ((op :: rest).filterMap f).getLast? = (rest.filterMap f).getLast?.or (f op) := by
  rw [List.filterMap_cons]
  cases hOp : f op with
  | none => simp
  | some colour =>
    rw [List.getLast?_cons]
    cases (rest.filterMap f).getLast? <;> rfl

theorem foldl_penAfter (pen : String) (trace : List DrawOp) :
    trace.foldl penAfter pen = (trace.filterMap pen?).getLast?.getD pen := by
  induction trace generalizing pen with
  | nil => rfl
  | cons op rest ih =>
    rw [List.foldl_cons, ih, getLast?_filterMap_cons]
    -- the first operation counts only where no later one chooses a pen
    cases (rest.filterMap pen?).getLast? with
    | some colour => rfl
    | none => cases op <;> rfl

theorem eq_background_of_paper? {op : DrawOp} {colour : String} (h : op.paper? = some colour) :
    op = .background colour := by
  cases op with
  | background => cases h; rfl
  | _ => cases h

theorem eq_foreground_of_pen? {op : DrawOp} {colour : String} (h : op.pen? = some colour) :
    op = .foreground colour := by
  cases op with
  | foreground => cases h; rfl
  | _ => cases h

/-- The paper that is chosen last is chosen by an operation of the trace. -/
theorem background_mem_of_lastPaper? {trace : List DrawOp} {colour : String}
    (h : lastPaper? trace = some colour) : .background colour ∈ trace := by
  obtain ⟨op, hOp, hPaper⟩ := List.mem_filterMap.mp (List.mem_of_getLast? h)
  rwa [← eq_background_of_paper? hPaper]

/-- What colours cells does not touch the pen. -/
theorem penAfter_of_ink? {pen colour : String} {op : DrawOp} (h : op.ink? pen = some colour) :
    op.penAfter pen = pen := by
  cases op with
  | background => cases h
  | foreground => cases h
  | line => rfl
  | point => rfl

end DrawOp

/-! ## Walks -/

namespace Canvas

variable {α : Type} {step : Step α}

/-- A trace is walked in two parts, the second one with the pen behind the first. -/
theorem walk_append {pen : String} {output between : α} {trace : List DrawOp} (rest : List DrawOp)
    (h : walk step pen output trace = .ok between) :
    walk step pen output (trace ++ rest) =
      walk step (trace.foldl DrawOp.penAfter pen) between rest := by
  induction trace generalizing pen output with
  | nil =>
    cases h
    rfl
  | cons op trace ih =>
    rw [walk] at h
    rw [List.cons_append, walk]
    split at h
    next => cases h
    next output' _ => exact ih h

/-- An operation that is refused ends the whole walk. -/
theorem walk_append_of_error {pen : String} {output : α} {trace : List DrawOp}
    {diagnostic : Diagnostic} (rest : List DrawOp)
    (h : walk step pen output trace = .error diagnostic) :
    walk step pen output (trace ++ rest) = .error diagnostic := by
  induction trace generalizing pen output with
  | nil => cases h
  | cons op trace ih =>
    rw [walk] at h
    rw [List.cons_append, walk]
    split at h
    next => exact h
    next output' _ => exact ih h

/-- What a walk leaves behind it left behind at every place of the trace. -/
theorem walk_split {pen : String} {output output' : α} {before rest : List DrawOp}
    (h : walk step pen output (before ++ rest) = .ok output') :
    ∃ between, walk step pen output before = .ok between ∧
      walk step (before.foldl DrawOp.penAfter pen) between rest = .ok output' := by
  cases hBefore : walk step pen output before with
  | ok between => exact ⟨between, rfl, by rwa [walk_append rest hBefore] at h⟩
  | error diagnostic =>
    rw [walk_append_of_error rest hBefore] at h
    cases h

/-- The first operation of a walk is added, and the walk goes on behind it. -/
theorem walk_cons {pen : String} {output output' : α} {op : DrawOp} {rest : List DrawOp} :
    walk step pen output (op :: rest) = .ok output' ↔
      ∃ between, step pen op output = some between ∧
        walk step (op.penAfter pen) between rest = .ok output' := by
  rw [walk]
  cases step pen op output with
  | none => simp
  | some between => simp

/-- A trace that was drawn, at one of its operations. -/
theorem draw_split {blank output : α} {before behind : List DrawOp} {op : DrawOp}
    (h : draw step blank (before ++ op :: behind) = .ok output) :
    ∃ under upper, walk step DrawOp.defaultPen blank before = .ok under ∧
      step (DrawOp.penBehind before) op under = some upper ∧
      walk step (op.penAfter (DrawOp.penBehind before)) upper behind = .ok output := by
  obtain ⟨under, hUnder, hRest⟩ := walk_split h
  rw [DrawOp.foldl_penAfter] at hRest
  obtain ⟨upper, hUpper, hBehind⟩ := walk_cons.mp hRest
  exact ⟨under, upper, hUnder, hUpper, hBehind⟩

end Canvas

end DesignByNumbers
