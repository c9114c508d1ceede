import Mathlib.Control.Monad.Basic
import DesignByNumbers.Proofs.Run

/-!
# Proofs.Interface — what a caller sees of a scope

Of a command a caller sees its name and its parameters, which tell where a call of it ends; what its
body does is done in a scope of its own. Scopes that show the same numbers and such commands are
therefore read alike, and two runs of the same tokens that both end normally leave such scopes behind,
whatever the bodies of the commands are.

* `Scope.SameInterface` — scopes that show a caller the same.
* `Scope.SameInterface.ofKeyword` — statements that begin with a keyword are read the same.
* `Scope.SameInterface.ofStatement` — calls end at the same token.
* `sameInterface_of_run` — two whole runs.
-/

namespace DesignByNumbers

/-- Two meanings that a caller cannot tell apart: the same number, or commands of the same name with
the same parameters. -/
inductive Binding.SameInterface : Binding → Binding → Prop
  | number (text : String) : SameInterface (.number text) (.number text)
  | command {command command' : Command} (hName : command'.name = command.name)
      (hParameters : command'.parameters = command.parameters) :
      SameInterface (.command command) (.command command')

theorem Binding.SameInterface.refl (binding : Binding) : binding.SameInterface binding := by
  cases binding with
  | number text => exact .number text
  | command command => exact .command rfl rfl

/-- Two scopes that know the same names, each with a meaning that a caller cannot tell from the other
one. -/
def Scope.SameInterface (scope scope' : Scope) : Prop :=
  ∀ name, Option.Rel Binding.SameInterface (scope.get? name) (scope'.get? name)

namespace Scope.SameInterface

variable {scope scope' : Scope} (h : scope.SameInterface scope')

include h

/-! ## Reading -/

theorem contains (name : String) : scope'.contains name = scope.contains name := by
  show (scope'.get? name).isSome = (scope.get? name).isSome
  have hGet := h name
  generalize scope.get? name = meaning at hGet
  generalize scope'.get? name = meaning' at hGet
  cases hGet <;> rfl

theorem number (token : Token) : scope'.number token = scope.number token := by
  rw [Scope.number, Scope.number]
  have hGet := h token.text
  generalize scope.get? token.text = meaning at hGet
  generalize scope'.get? token.text = meaning' at hGet
  cases hGet with
  | none => rfl
  | some hBinding => cases hBinding <;> rfl

theorem get?_eq_number_iff (name text : String) :
    scope.get? name = some (.number text) ↔ scope'.get? name = some (.number text) := by
  have hGet := h name
  generalize scope.get? name = meaning at hGet
  generalize scope'.get? name = meaning' at hGet
  cases hGet with
  | none => rfl
  | some hBinding => cases hBinding <;> simp

theorem value : Expression.value scope' = Expression.value scope := by
  -- names are looked up at the leaves only, by induction on how deep a value may be nested
  have hWithin : ∀ bound, Expression.valueWithin scope' bound = Expression.valueWithin scope bound := by
    intro bound
    induction bound with
    | nil => rfl
    | cons _ bound ih =>
      funext head
      rw [Expression.valueWithin, Expression.valueWithin, ih, Expression.valueWith,
        Expression.valueWith, h.number]
  funext head last rest
  rw [Expression.value, Expression.value, hWithin]

theorem nextValue : Expression.nextValue scope' = Expression.nextValue scope := by
  rw [Expression.nextValue, Expression.nextValue, h.value]

theorem nextDrawable : Expression.nextDrawable scope' = Expression.nextDrawable scope := by
  rw [Expression.nextDrawable, Expression.nextDrawable, h.nextValue]

theorem splitParameters (head : Token) (rest : List Token) :
    Instruction.splitParameters scope' head rest = Instruction.splitParameters scope head rest := by
  induction rest with
  | nil => rfl
  | cons token rest ih =>
    rw [Instruction.splitParameters, Instruction.splitParameters, h.contains, ih]

theorem signature (head : Token) :
    Instruction.signature scope' head = Instruction.signature scope head := by
  funext last rest
  rw [Instruction.signature, Instruction.signature, h.splitParameters]

/-- A statement that begins with a keyword is read in the same way. -/
theorem ofKeyword (keyword : Keyword) (head : Token) :
    Instruction.ofKeyword scope' keyword head = Instruction.ofKeyword scope keyword head := by
  cases keyword with
  | paper => simp only [Instruction.ofKeyword, Instruction.ofColour, h.nextDrawable]
  | pen => simp only [Instruction.ofKeyword, Instruction.ofColour, h.nextDrawable]
  | line => simp only [Instruction.ofKeyword, Instruction.ofLine, h.nextDrawable]
  | assign =>
    simp only [Instruction.ofKeyword, Instruction.ofAssignment, Instruction.ofDot, h.nextValue]
  | loop => simp only [Instruction.ofKeyword, Instruction.ofLoop, h.nextValue]
  | define =>
    simp only [Instruction.ofKeyword, Instruction.ofDefinition, h.contains, h.signature]
  | check comparison => simp only [Instruction.ofKeyword, Instruction.ofCheck, h.nextValue]

theorem arguments (parameters : List String) :
    Instruction.arguments scope' parameters = Instruction.arguments scope parameters := by
  induction parameters with
  | nil => rfl
  | cons parameter others ih =>
    rw [Instruction.arguments, Instruction.arguments, h.nextValue, ih]

theorem bind (name : String) {binding binding' : Binding} (hBinding : binding.SameInterface binding') :
    (scope.bind name binding).SameInterface (scope'.bind name binding') := by
  intro key
  show Option.Rel Binding.SameInterface ((scope.bindings.insert name binding).get? key)
    ((scope'.bindings.insert name binding').get? key)
  rw [NameMap.get?_insert, NameMap.get?_insert]
  split
  next => exact .some hBinding
  next => exact h key

end Scope.SameInterface

/-! ## Statements -/

/-- Two instructions that do the same to the scope of a caller: one and the same, or two calls,
whatever their scopes and bodies are. -/
inductive Instruction.SameInterface : Instruction → Instruction → Prop
  | same (instruction : Instruction) : SameInterface instruction instruction
  | call (child child' : Scope) (body body' : List Token) :
      SameInterface (.call child body) (.call child' body')

section Statements

variable {scope scope' : Scope} {head : Token} {last : Option Token}
  {rest following following' : List Token} {instruction instruction' : Instruction}

/-- Where two calls are read, they end at the same token. -/
theorem Scope.SameInterface.ofCall (h : scope.SameInterface scope') {command command' : Command}
    (hParameters : command'.parameters = command.parameters)
    (hRead : Instruction.ofCall scope command head last rest = .ok (instruction, following))
    (hRead' : Instruction.ofCall scope' command' head last rest = .ok (instruction', following')) :
    instruction.SameInterface instruction' ∧ following' = following := by
  obtain ⟨bindings, child, hArguments, -, rfl⟩ := Instruction.exists_of_ofCall hRead
  obtain ⟨bindings', child', hArguments', -, rfl⟩ := Instruction.exists_of_ofCall hRead'
  -- as many arguments are read for the one command as for the other
  rw [hParameters, h.arguments, hArguments] at hArguments'
  cases hArguments'
  exact ⟨.call child child' command.body command'.body, rfl⟩

/-- Where a statement is read in both scopes, it is the same one or a call, and ends at the same
token. -/
theorem Scope.SameInterface.ofStatement (h : scope.SameInterface scope')
    (hRead : Instruction.ofStatement scope head last rest = .ok (instruction, following))
    (hRead' : Instruction.ofStatement scope' head last rest = .ok (instruction', following')) :
    instruction.SameInterface instruction' ∧ following' = following := by
  rw [Instruction.ofStatement] at hRead hRead'
  -- the first token decides alone whether the statement has a keyword
  by_cases hWord : head.kind ≠ .word
  · rw [if_pos hWord] at hRead
    cases hRead
  rw [if_neg hWord] at hRead hRead'
  cases hKeyword : Keyword.ofText? head.text with
  | some keyword =>
    -- a statement with a keyword is read in the same way
    simp only [hKeyword, h.ofKeyword] at hRead hRead'
    rw [hRead] at hRead'
    cases hRead'
    exact ⟨.same instruction, rfl⟩
  | none =>
    simp only [hKeyword] at hRead hRead'
    have hGet := h head.text
    generalize scope.get? head.text = meaning at hGet hRead
    generalize scope'.get? head.text = meaning' at hGet hRead'
    -- only a command can be called, and of both the parameters are the same
    cases hGet with
    | none => cases hRead
    | some hBinding =>
      cases hBinding with
      | number text => cases hRead
      | command hName hParameters => exact h.ofCall hParameters hRead hRead'

end Statements

/-! ## Runs -/

namespace Program

open Token (ofSource)

/-- Runs of the same tokens in two ways leave scopes that show a caller the same, if they start with
such scopes and both end normally. -/
def KeepsInterface (nested nested' : Runner) : Prop :=
  ∀ tokens state state' final final', state.scope.SameInterface state'.scope →
    nested tokens state = some (.done final) → nested' tokens state' = some (.done final') →
    final.scope.SameInterface final'.scope

section Runs

variable {nested nested' : Runner} {state state' final final' : State}

/-- Two calls leave the scopes of their callers as they were. -/
theorem sameInterface_of_call {child child' : Scope} {body body' : List Token}
    (h : state.scope.SameInterface state'.scope)
    (hRun : execute nested (.call child body) state = some (.done final))
    (hRun' : execute nested' (.call child' body') state' = some (.done final')) :
    final.scope.SameInterface final'.scope := by
  have hFinal : final.scope = state.scope := scope_eq_of_call hRun
  have hFinal' : final'.scope = state'.scope := scope_eq_of_call hRun'
  rwa [hFinal, hFinal']

variable (hNested : KeepsInterface nested nested')

include hNested

theorem sameInterface_of_rounds {name : String} {block : List Token} {step : Int} {count : Nat}
    {index : Int} (h : state.scope.SameInterface state'.scope)
    (hRun : rounds nested name block step count index state = some (.done final))
    (hRun' : rounds nested' name block step count index state' = some (.done final')) :
    final.scope.SameInterface final'.scope := by
  induction count generalizing index state state' with
  | zero =>
    cases hRun
    cases hRun'
    exact h
  | succ count ih =>
    rw [rounds] at hRun hRun'
    cases hText : Numeral.print? index with
    | none =>
      rw [hText] at hRun
      cases hRun
    | some text =>
      simp only [hText] at hRun hRun'
      obtain ⟨between, hRound, hRest⟩ := bind_andThen_eq_done_iff.mp hRun
      obtain ⟨between', hRound', hRest'⟩ := bind_andThen_eq_done_iff.mp hRun'
      exact ih (hNested block _ _ _ _ (h.bind name (.number text)) hRound hRound') hRest hRest'

theorem sameInterface_of_execute {instruction instruction' : Instruction}
    (hSame : instruction.SameInterface instruction') (h : state.scope.SameInterface state'.scope)
    (hRun : execute nested instruction state = some (.done final))
    (hRun' : execute nested' instruction' state' = some (.done final')) :
    final.scope.SameInterface final'.scope := by
  cases hSame with
  | call child child' body body' => exact sameInterface_of_call h hRun hRun'
  | same instruction =>
    -- the same instruction binds the same name, and runs the same block
    cases instruction with
    | draw op =>
      cases hRun
      cases hRun'
      exact h
    | bind name binding =>
      cases hRun
      cases hRun'
      exact h.bind name (.refl binding)
    | loop name first last block => exact sameInterface_of_rounds hNested h hRun hRun'
    | check held block =>
      cases held with
      | true => exact hNested block state state' final final' h hRun hRun'
      | false =>
        cases hRun
        cases hRun'
        exact h
    | call child body => exact sameInterface_of_call h hRun hRun'

theorem sameInterface_of_statements {last : Option Token} {tokens : List Token}
    (h : state.scope.SameInterface state'.scope)
    (hRun : statements nested last tokens state = some (.done final))
    (hRun' : statements nested' last tokens state' = some (.done final')) :
    final.scope.SameInterface final'.scope := by
  fun_induction statements nested last tokens state generalizing state' with
  | case1 state =>
    rw [statements_nil] at hRun'
    cases hRun
    cases hRun'
    exact h
  | case2 => cases hRun
  | case3 state head rest instruction following hRead ih =>
    obtain ⟨between, hExecute, hRest⟩ := bind_andThen_eq_done_iff.mp hRun
    cases hRead' : Instruction.ofStatement state'.scope head last rest with
    | error diagnostic =>
      -- the second run would have failed here
      rw [statements_of_error nested' hRead'] at hRun'
      cases hRun'
    | ok pair =>
      obtain ⟨instruction', following'⟩ := pair
      obtain ⟨hSame, rfl⟩ := h.ofStatement hRead hRead'
      rw [statements_of_ok nested' hRead'] at hRun'
      obtain ⟨between', hExecute', hRest'⟩ := bind_andThen_eq_done_iff.mp hRun'
      exact ih between (sameInterface_of_execute hNested hSame h hExecute hExecute') hRest hRest'

end Runs

theorem keepsInterface_run : KeepsInterface run run := by
  have hAll : ∀ tokens state outcome, run tokens state = some outcome →
      ∀ state' final final', outcome = .done final → state.scope.SameInterface state'.scope →
      run tokens state' = some (.done final') → final.scope.SameInterface final'.scope := by
    -- by induction on the first run; what is known of a call is that its caller's scope comes back
    refine run.partial_correctness _ ?_
    rintro nested hNested tokens state outcome hRun state' final final' rfl h hRun'
    have hKeeps : KeepsInterface nested run := fun block inner inner' innerFinal innerFinal' hInner
      hBlock => hNested block inner _ hBlock inner' innerFinal innerFinal' rfl hInner
    rw [run_eq] at hRun'
    exact sameInterface_of_statements hKeeps h hRun hRun'
  exact fun tokens state state' final final' h hRun =>
    hAll tokens state _ hRun state' final final' rfl h

/-- The bodies of commands have no influence on the variables of those who call them: where the same
tokens are run from two scopes with the same numbers and with commands of the same names and
parameters, and both runs end normally, this holds of the scopes at their ends as well. -/
theorem sameInterface_of_run {tokens : List Token} {state state' final final' : State}
    (hScope : state.scope.SameInterface state'.scope) (hRun : run tokens state = some (.done final))
    (hRun' : run tokens state' = some (.done final')) :
    final.scope.SameInterface final'.scope ∧
    ∀ name text, final.scope.get? name = some (.number text) ↔
      final'.scope.get? name = some (.number text) := by
  have hFinal := keepsInterface_run tokens state state' final final' hScope hRun hRun'
  exact ⟨hFinal, hFinal.get?_eq_number_iff⟩

/-- A body that assigns to a variable of its caller, and another one that draws: the variable is the
same behind both calls. -/
theorem sameInterface_of_run_store :
    let source := "Store 3 Set Y X"
    let assigning : Command := ⟨"Store", ["a"], ofSource "Set X a"⟩
    let drawing : Command := ⟨"Store", ["a"], ofSource "Pen a"⟩
    let scope (command : Command) : Scope :=
      ⟨⟨[("Store", .command command), ("X", .number "7")]⟩⟩
    let final (command : Command) : Scope :=
      ⟨⟨[("Store", .command command), ("X", .number "7"), ("Y", .number "7")]⟩⟩
    run (ofSource source) (.initial (scope assigning)) = some (.done (.initial (final assigning))) ∧
      run (ofSource source) (.initial (scope drawing)) =
        some (.done ⟨final drawing, #[.foreground "3"]⟩) ∧
      (scope assigning).SameInterface (scope drawing) ∧
      (final assigning).SameInterface (final drawing) := by
  intro source assigning drawing scope final
  let child (command : Command) : Scope :=
    ⟨⟨[("Store", .command command), ("X", .number "7"), ("a", .number "3")]⟩⟩
  have hScope : (scope assigning).SameInterface (scope drawing) := by
    have hAll : ∀ {command command' : Command}, command'.name = command.name →
        command'.parameters = command.parameters →
        (scope command).SameInterface (scope command') := by
      intro command command' hName hParameters
      have hEmpty : Scope.empty.SameInterface .empty := fun _ => .none
      exact (hEmpty.bind "Store" (.command hName hParameters)).bind "X" (.number "7")
    exact hAll rfl rfl
  -- both programs call the command, whatever it does, and then assign
  obtain ⟨head, rest, set, others, hTokens, hStatements⟩ : ∃ head rest set others,
      ofSource source = head :: rest ∧ ∀ command ∈ [assigning, drawing],
        Instruction.ofStatement (scope command) head (head :: rest).getLast? rest =
            .ok (.call (child command) command.body, set :: others) ∧
          Instruction.ofStatement (scope command) set (head :: rest).getLast? others =
            .ok (.bind "Y" (.number "7"), []) :=
    ⟨(ofSource source).head!, (ofSource source).tail, (ofSource source)[2]!,
      (ofSource source).drop 3, by decide +kernel⟩
  have hRun : ∀ command ∈ [assigning, drawing], ∀ inner,
      run command.body (.initial (child command)) = some (.done inner) →
      run (ofSource source) (.initial (scope command)) =
        some (.done ⟨final command, inner.trace⟩) := by
    intro command hCommand inner hBody
    obtain ⟨hCall, hSet⟩ := hStatements command hCommand
    have hCall : Instruction.ofStatement (State.initial (scope command)).scope head
        (head :: rest).getLast? rest = _ := hCall
    have hSet : Instruction.ofStatement (State.mk (scope command) inner.trace).scope set
        (head :: rest).getLast? others = _ := hSet
    have hCalled : execute run (.call (child command) command.body) (.initial (scope command)) =
        some (.done ⟨scope command, inner.trace⟩) :=
      Option.bind_eq_some_iff.mpr ⟨.done inner, hBody, rfl⟩
    have hFinal : execute run (.bind "Y" (.number "7")) ⟨scope command, inner.trace⟩ =
        some (.done ⟨final command, inner.trace⟩) := rfl
    rw [hTokens, run_eq, statements_of_done hCall hCalled, statements_of_done hSet hFinal,
      statements_nil]
  have hAssigning : run assigning.body (.initial (child assigning)) =
      some (.done ((State.initial (child assigning)).bind "X" (.number "3"))) := by
    obtain ⟨head, rest, hBody, hRead⟩ : ∃ head rest, assigning.body = head :: rest ∧
        Instruction.ofStatement (State.initial (child assigning)).scope head
          (head :: rest).getLast? rest = .ok (.bind "X" (.number "3"), []) :=
      ⟨assigning.body.head!, assigning.body.tail, by decide +kernel⟩
    rw [hBody, run_single hRead, execute]
  have hDrawing : run drawing.body (.initial (child drawing)) =
      some (.done ((State.initial (child drawing)).draw (.foreground "3"))) := by
    obtain ⟨head, rest, hBody, hRead⟩ : ∃ head rest, drawing.body = head :: rest ∧
        Instruction.ofStatement (State.initial (child drawing)).scope head
          (head :: rest).getLast? rest = .ok (.draw (.foreground "3"), []) :=
      ⟨drawing.body.head!, drawing.body.tail, by decide +kernel⟩
    rw [hBody, run_single hRead, execute]
  have hFirst := hRun assigning (by simp) _ hAssigning
  have hSecond := hRun drawing (by simp) _ hDrawing
  exact ⟨hFirst, hSecond, hScope, (sameInterface_of_run hScope hFirst hSecond).1⟩

end Program

end DesignByNumbers
