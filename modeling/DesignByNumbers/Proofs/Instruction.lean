import DesignByNumbers.Instruction.Extent
import DesignByNumbers.Proofs.Numeral
import DesignByNumbers.Proofs.Reader

/-!
# Proofs.Instruction — what a statement can stand for

Whatever a scope knows and whatever tokens follow, the word with which a statement begins tells
which instructions it can stand for. This is said once and for all: what is known of an instruction
that was read follows from its form.

* `exists_of_ofCheck` — the operands and the block of a comparison that was read.
* `exists_of_ofCall` — the arguments of a call that was read, and the scope that it enters.
* `hasForm_of_ofStatement` — the form of an instruction that was read.
* `isBounded_of_isRead` — the indices of a loop that was read keep within the digit limit.
-/

namespace DesignByNumbers

open Token (Reader)

namespace Token

/-- An integer that was converted has no more digits than the limit. -/
theorem natAbs_lt_of_integer {token : Token} {value : Int} (h : token.integer = .ok value) :
    value.natAbs < 10 ^ Numeral.digitLimit := by
  rw [Token.integer] at h
  split at h
  next hParse =>
    cases h
    exact Numeral.natAbs_lt_of_parse? hParse
  next => cases h

end Token

namespace Instruction

open Token (ofExcept_eq_ok_iff Yields yields_pure yields_fail yields_ofExcept yields_bind)

/-- An instruction is that of some statement in a scope. -/
def IsRead (scope : Scope) (instruction : Instruction) : Prop :=
  ∃ head last rest following, ofStatement scope head last rest = .ok (instruction, following)

/-- The bounds of a loop keep within the digit limit. -/
def IsBounded : Instruction → Prop
  | .loop _ first last _ =>
    first.natAbs < 10 ^ Numeral.digitLimit ∧ last.natAbs < 10 ^ Numeral.digitLimit
  | _ => True

/-- All meanings are numbers. -/
def AreNumbers (bindings : List (String × Binding)) : Prop :=
  ∀ name binding, (name, binding) ∈ bindings → ∃ text, binding = .number text

/-- What a statement can stand for in a scope, by the keyword with which it begins; a statement
without one is a call. -/
inductive HasForm (scope : Scope) : Option Keyword → Instruction → Prop
  | paper (colour : String) : HasForm scope (some .paper) (.draw (.background colour))
  | pen (colour : String) : HasForm scope (some .pen) (.draw (.foreground colour))
  | line (x0 y0 x1 y1 : String) : HasForm scope (some .line) (.draw (.line x0 y0 x1 y1))
  | dot (x y colour : String) : HasForm scope (some .assign) (.draw (.point x y colour))
  | assign (name text : String) : HasForm scope (some .assign) (.bind name (.number text))
  | loop (name : String) {first last : Int} (hFirst : first.natAbs < 10 ^ Numeral.digitLimit)
      (hLast : last.natAbs < 10 ^ Numeral.digitLimit) (block : List Token) :
      HasForm scope (some .loop) (.loop name first last block)
  | define (command : Command) (hKeyword : Keyword.ofText? command.name = none)
      (hNew : scope.contains command.name = false) :
      HasForm scope (some .define) (.bind command.name (.command command))
  | check (comparison : Comparison) (held : Bool) (block : List Token) :
      HasForm scope (some (.check comparison)) (.check held block)
  | call {name : String} {command : Command} {bindings : List (String × Binding)} {child : Scope}
      (hCommand : scope.get? name = some (.command command)) (hBindings : AreNumbers bindings)
      (hChild : scope.deriveChild (.ofList bindings) = .ok child) :
      HasForm scope none (.call child command.body)

/-- The indices of a loop keep within the digit limit, whatever it was read from. -/
theorem HasForm.isBounded {scope : Scope} {keyword? : Option Keyword} {instruction : Instruction}
    (h : HasForm scope keyword? instruction) : instruction.IsBounded := by
  cases h with
  | loop name hFirst hLast block => exact ⟨hFirst, hLast⟩
  | _ => trivial

/-! ## Statements with a keyword -/

section Keyword

variable (scope : Scope)

theorem hasForm_of_dot {x y colour : Token} {instruction : Instruction}
    (h : dot x y colour = .ok instruction) : instruction.HasForm scope (some .assign) := by
  obtain ⟨xText, -, h⟩ := Except.bind_eq_ok_iff.mp h
  obtain ⟨yText, -, h⟩ := Except.bind_eq_ok_iff.mp h
  obtain ⟨colourText, -, h⟩ := Except.bind_eq_ok_iff.mp h
  cases h
  exact .dot xText yText colourText

theorem hasForm_of_loopBetween {name : String} {start finish : Token} {block : List Token}
    {instruction : Instruction} (h : loopBetween name start finish block = .ok instruction) :
    instruction.HasForm scope (some .loop) := by
  obtain ⟨first, hFirst, h⟩ := Except.bind_eq_ok_iff.mp h
  obtain ⟨last, hLast, h⟩ := Except.bind_eq_ok_iff.mp h
  cases h
  exact .loop name (Token.natAbs_lt_of_integer hFirst) (Token.natAbs_lt_of_integer hLast) block

theorem hasForm_of_guarded {comparison : Comparison} {left right : Token} {block : List Token}
    {instruction : Instruction} (h : guarded comparison left right block = .ok instruction) :
    instruction.HasForm scope (some (.check comparison)) := by
  obtain ⟨held, -, h⟩ := Except.bind_eq_ok_iff.mp h
  cases h
  exact .check comparison held block

/-- A definition gives a meaning to a name that has none and is no keyword. -/
theorem yields_ofDefinition (head : Token) :
    Yields (HasForm scope (some .define)) (ofDefinition scope head) := by
  refine yields_bind fun _ => yields_bind fun name => ?_
  split
  · exact yields_fail _
  split
  · exact yields_fail _
  next hKeyword =>
    split
    · exact yields_fail _
    next hNew =>
      have hFree : Keyword.ofText? name.text = none := by simpa using hKeyword
      refine yields_bind fun names => yields_pure ?_
      exact .define ⟨name.text, names.1, names.2⟩ hFree (Bool.eq_false_iff.mpr hNew)

theorem yields_ofKeyword (keyword : Keyword) (head : Token) :
    Yields (HasForm scope (some keyword)) (ofKeyword scope keyword head) := by
  cases keyword with
  | paper => exact yields_bind fun _ => yields_bind fun colour => yields_pure (.paper colour)
  | pen => exact yields_bind fun _ => yields_bind fun colour => yields_pure (.pen colour)
  | line =>
    refine yields_bind fun _ => yields_bind fun x0 => yields_bind fun y0 => ?_
    exact yields_bind fun x1 => yields_bind fun y1 => yields_pure (.line x0 y0 x1 y1)
  | assign =>
    refine yields_bind fun _ => yields_bind fun target => ?_
    split
    · refine yields_bind fun _ => yields_bind fun x => yields_bind fun y => yields_bind fun _ => ?_
      split
      · exact yields_bind fun colour => yields_ofExcept fun _ => hasForm_of_dot scope
      · exact yields_fail _
    · split
      · exact yields_bind fun number => yields_pure (.assign target.text number.text)
      · exact yields_fail _
  | loop =>
    refine yields_bind fun _ => yields_bind fun counter => ?_
    split
    · refine yields_bind fun start => yields_bind fun finish => yields_bind fun block => ?_
      exact yields_ofExcept fun _ => hasForm_of_loopBetween scope
    · exact yields_fail _
  | define => exact yields_ofDefinition scope head
  | check comparison =>
    refine yields_bind fun _ => yields_bind fun mark => ?_
    split
    · refine yields_bind fun left => yields_bind fun right => yields_bind fun block => ?_
      exact yields_ofExcept fun _ => hasForm_of_guarded scope
    · exact yields_fail _

end Keyword

/-- A comparison that was read is made between the two values behind its mark. -/
theorem exists_of_ofCheck {scope : Scope} {comparison : Comparison} {head mark : Token}
    {last : Option Token} {behind following : List Token} {instruction : Instruction}
    (h : ofCheck scope comparison head last (mark :: behind) = .ok (instruction, following)) :
    ∃ left behindLeft right behindRight block held,
      Expression.nextValue scope last behind = .ok (left, behindLeft) ∧
      Expression.nextValue scope last behindLeft = .ok (right, behindRight) ∧
      Block.extract last behindRight = .ok (block, following) ∧
      comparison.holds left right = .ok held ∧ instruction = .check held block := by
  obtain ⟨_, between, hRequire, h⟩ := Reader.bind_eq_ok_iff.mp h
  obtain rfl := Construct.eq_of_require hRequire
  obtain ⟨mark', behind', hMark, h⟩ := Reader.bind_eq_ok_iff.mp h
  cases hMark
  split at h
  next =>
    obtain ⟨left, behindLeft, hLeft, h⟩ := Reader.bind_eq_ok_iff.mp h
    obtain ⟨right, behindRight, hRight, h⟩ := Reader.bind_eq_ok_iff.mp h
    obtain ⟨block, behindBlock, hBlock, h⟩ := Reader.bind_eq_ok_iff.mp h
    obtain ⟨hGuarded, rfl⟩ := ofExcept_eq_ok_iff.mp h
    obtain ⟨held, hHeld, hInstruction⟩ := Except.bind_eq_ok_iff.mp hGuarded
    cases hInstruction
    exact ⟨left, behindLeft, right, behindRight, block, held, hLeft, hRight, hBlock, hHeld, rfl⟩
  next => cases h

/-! ## Calls -/

section Call

variable (scope : Scope)

theorem yields_arguments (parameters : List String) :
    Yields AreNumbers (arguments scope parameters) := by
  induction parameters with
  | nil => exact yields_pure fun _ _ hEntry => absurd hEntry List.not_mem_nil
  | cons parameter others ih =>
    refine yields_bind fun number => ih.bind fun bindings hBindings => yields_pure ?_
    intro name binding hEntry
    rcases List.mem_cons.mp hEntry with hFirst | hOthers
    · cases hFirst
      exact ⟨number.text, rfl⟩
    · exact hBindings name binding hOthers

/-- The arguments of a call that was read stand behind its head, and its body runs in a scope that
knows them. -/
theorem exists_of_ofCall {scope : Scope} {command : Command} {head : Token} {last : Option Token}
    {rest following : List Token} {instruction : Instruction}
    (h : ofCall scope command head last rest = .ok (instruction, following)) :
    ∃ bindings child, arguments scope command.parameters last rest = .ok (bindings, following) ∧
      scope.deriveChild (.ofList bindings) = .ok child ∧ instruction = .call child command.body := by
  obtain ⟨_, between, hRequire, hBehind⟩ := Reader.bind_eq_ok_iff.mp h
  obtain rfl := eq_of_requireArguments hRequire
  obtain ⟨bindings, _, hArguments, hBody⟩ := Reader.bind_eq_ok_iff.mp hBehind
  obtain ⟨hCall, rfl⟩ := ofExcept_eq_ok_iff.mp hBody
  obtain ⟨child, hChild, hInstruction⟩ := Except.bind_eq_ok_iff.mp hCall
  cases hInstruction
  exact ⟨bindings, child, hArguments, hChild, rfl⟩

theorem yields_ofCall {name : String} {command : Command}
    (hCommand : scope.get? name = some (.command command)) (head : Token) :
    Yields (HasForm scope none) (ofCall scope command head) := by
  intro last rest instruction following hRead
  obtain ⟨bindings, child, hArguments, hChild, rfl⟩ := exists_of_ofCall hRead
  have hBindings := yields_arguments scope command.parameters last rest bindings following hArguments
  exact .call hCommand hBindings hChild

end Call

/-! ## All statements -/

/-- What was read has the form that its first word tells. -/
theorem hasForm_of_ofStatement {scope : Scope} {head : Token} {last : Option Token}
    {rest following : List Token} {instruction : Instruction}
    (hRead : ofStatement scope head last rest = .ok (instruction, following)) :
    instruction.HasForm scope (Keyword.ofText? head.text) := by
  have hYields : Yields (HasForm scope (Keyword.ofText? head.text)) (ofStatement scope head) := by
    unfold ofStatement
    split
    · exact yields_fail _
    split
    next keyword hKeyword =>
      rw [hKeyword]
      exact yields_ofKeyword scope keyword head
    next hKeyword =>
      rw [hKeyword]
      split
      · exact yields_fail _
      · exact yields_fail _
      next command hCommand => exact yields_ofCall scope hCommand head
  exact hYields last rest instruction following hRead

/-- The indices of a loop that was read keep within the digit limit. -/
theorem isBounded_of_isRead (scope : Scope) {instruction : Instruction} (h : IsRead scope instruction) :
    instruction.IsBounded := by
  obtain ⟨head, last, rest, following, hRead⟩ := h
  exact (hasForm_of_ofStatement hRead).isBounded

end Instruction

end DesignByNumbers
