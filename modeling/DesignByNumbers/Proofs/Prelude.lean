import DesignByNumbers.Proofs.Diagnosis
import DesignByNumbers.Proofs.Lexer.Layout
import DesignByNumbers.Proofs.Order
import DesignByNumbers.Proofs.Relabelling
import DesignByNumbers.Proofs.Session
import DesignByNumbers.Proofs.Tree.Reading

/-!
# Proofs.Prelude — numbers given before a program or above it

Names can be given numbers in two ways: in the scope that a program starts with, where the texts
of the numbers are checked, or in assignments above the program, where they are lexed, negated and
bound. Both ways come to the same: what the program does from the scope it does behind its prelude,
except that it stands further down by the lines of the prelude.

* `run_prelude` — a prelude ends normally, with its names bound.
* `runSource_withPrelude` — programs with a scope and programs with a prelude.
-/

namespace DesignByNumbers

open Token (Content content contents ofSource ofSources startsWithWordCharacter)
open Program (run runSource)

/-- A name with the plain numeral that it means before a program runs. -/
structure Entry where
  name : Tree.Word
  value : String
  isPlain : Numeral.isPlain value = true

namespace Entry

variable (entry : Entry)

/-- The assignment of the number to the name. -/
def text : String := "Set " ++ entry.name.val ++ " " ++ entry.value

/-- The meaning of the name in a scope. -/
def binding : String × Binding := (entry.name.val, .number entry.value)

end Entry

/-- The names and numbers of a scope that is given to a program. -/
def contextOf (entries : List Entry) : NameMap Binding :=
  .ofList (entries.map Entry.binding)

/-- A program below one assignment for each entry. -/
def withPrelude (entries : List Entry) (source : String) : String :=
  String.intercalate "\n" (entries.map Entry.text ++ [source])

/-! ## The text of a prelude -/

namespace Token

section Run

variable {kind : Kind} {said : String} (hKind : kind = .word ∨ kind = .number)
  (h : kind.admits said = true)

include hKind h

/-- Words and numbers are written with word characters. -/
theorem isWordCharacter_of_admits : ∀ c ∈ said.toList, isWordCharacter c = true := by
  have hWritten : IsWritten ⟨kind, said, default⟩ := isWritten_of_isWellFormed h
  cases hWritten with
  | run _ _ hWord _ => exact hWord
  | symbol _ _ hSymbol => rcases hKind with rfl | rfl <;> cases hSymbol

/-- A word or a number in front of a text is read first, unless the text goes on with it. -/
theorem contents_ofKind {text : List Char} (hText : startsWithWordCharacter text = false) :
    contents (said.toList ++ text) = ⟨kind, said⟩ :: contents text := by
  have hWritten : IsWritten ⟨kind, said, default⟩ := isWritten_of_isWellFormed h
  have hStops : Stops ⟨kind, said, default⟩ text := by
    refine ⟨fun _ => hText, fun hSlash => ?_⟩
    rcases hKind with rfl | rfl <;> cases kind_of_content (isSymbol_iff.mp hSlash)
  have hContents := contents_token hWritten hStops
  exact hContents

end Run

theorem verify_below (lines : Nat) {tokens : List Token} (h : Token.verify tokens = .ok ()) :
    Token.verify (tokens.map (below lines)) = .ok () :=
  verify_of_isWellFormed (List.forall_mem_map.mpr (isWellFormed_of_verify h))

end Token

namespace Entry

variable (entry : Entry)

theorem toList_text : entry.text.toList =
    "Set".toList ++ ' ' :: (entry.name.val.toList ++ ' ' :: entry.value.toList) := by
  simp [text]

/-- The number of an entry is written as a value that is read as that number in every scope. -/
theorem exists_value : ∃ tree : Tree.Value, contents entry.value.toList = tree.contents ∧
    ∀ (scope : Scope) (stretch : List Token), stretch.map content = tree.contents →
      ∃ number : Token, number.text = entry.value ∧
        Token.Takes (Expression.nextValue scope) stretch number := by
  have hNumber : ∀ number : Tree.Digits, contents number.val.toList = [.number number.val] := by
    intro number
    have hEnd : startsWithWordCharacter [] = false := rfl
    have hContents := Token.contents_ofKind (.inr rfl) number.property hEnd
    rwa [List.append_nil] at hContents
  have hTakes : ∀ (digits : Tree.Digits) (scope : Scope) (stretch : List Token),
      stretch.map content = [.number digits.val] →
      ∃ number : Token, number.text = digits.val ∧
        Token.Takes (Expression.nextValue scope) stretch number := by
    intro digits scope stretch hStretch
    obtain ⟨number, rest, rfl, hContent, hRest⟩ := List.map_eq_cons_iff.mp hStretch
    obtain rfl := List.map_eq_nil_iff.mp hRest
    exact ⟨number, Token.text_of_content hContent,
      Expression.takes_number scope (Token.kind_of_content hContent)⟩
  obtain ⟨digits, hDigits, hValue | hValue⟩ := Numeral.isPlain_iff.mp entry.isPlain
  · -- a minus sign negates the number behind it
    let number : Tree.Digits := ⟨String.ofList digits, by rwa [String.toList_ofList]⟩
    refine ⟨.negation (.number number), ?_, fun scope stretch hStretch => ?_⟩
    · have hMinus : Text.isBlank '-' = false ∧ Token.isWordCharacter '-' = false := by decide
      have hBehind := hNumber number
      rw [String.toList_ofList] at hBehind
      rw [hValue, String.toList_ofList,
        Token.contents_symbol hMinus.1 hMinus.2 fun h => absurd h (by decide), hBehind]
      rfl
    · obtain ⟨minus, behind, rfl, hSign, hBehind⟩ := List.map_eq_cons_iff.mp hStretch
      obtain ⟨operand, hText, hOperand⟩ := hTakes number scope behind hBehind
      refine ⟨_, ?_, Expression.takes_negated hSign hOperand⟩
      rw [hText, hValue]
      exact Numeral.negate_ofList hDigits
  · let number : Tree.Digits := ⟨entry.value, by rwa [hValue, String.toList_ofList]⟩
    exact ⟨.number number, hNumber number, hTakes number⟩

/-- The assignment of an entry says so. -/
theorem exists_statement : ∃ tree : Tree.Value,
    (ofSource entry.text).map content = (Tree.Statement.assign entry.name tree).contents ∧
      ∀ (scope : Scope) (stretch : List Token), stretch.map content = tree.contents →
        ∃ number : Token, number.text = entry.value ∧
          Token.Takes (Expression.nextValue scope) stretch number := by
  have hBlank : Text.isBlank ' ' = true := by decide
  obtain ⟨tree, hTree, hTakes⟩ := entry.exists_value
  refine ⟨tree, ?_, hTakes⟩
  rw [Token.contents_eq, toList_text, Token.contents_ofKind (.inl rfl) (by decide +kernel) rfl,
    Token.contents_blank hBlank, Token.contents_ofKind (.inl rfl) entry.name.property rfl,
    Token.contents_blank hBlank, hTree]
  rfl

theorem verify_text : Token.verify (ofSource entry.text) = .ok () := by
  obtain ⟨tree, hContents, -⟩ := entry.exists_statement
  rw [Token.verify_eq_ok_iff, hContents]
  exact (Tree.Statement.assign entry.name tree).isText_contents.wellFormed

/-- An assignment is one line. -/
theorem linesOf_text : (Token.linesOf entry.text).length = 1 := by
  have hName : '\n' ∉ entry.name.val.toList := fun h =>
    absurd (Token.isWordCharacter_of_admits (.inl rfl) entry.name.property _ h) (by decide)
  have hValue : '\n' ∉ entry.value.toList := by
    obtain ⟨digits, hDigits, hText⟩ := Numeral.isPlain_iff.mp entry.isPlain
    have hFeed : '\n' ∉ digits := fun h =>
      absurd (Numeral.digit_of_isDigits hDigits h) (by decide)
    rcases hText with hText | hText <;> simp [hText, hFeed]
  have hFeed : '\n' ∉ entry.text.toList := by
    simp [toList_text, hName, hValue]
  rw [Token.linesOf, List.splitOn_eq_singleton hFeed]
  rfl

theorem height_map_text (entries : List Entry) :
    Token.height (entries.map Entry.text) = entries.length := by
  induction entries with
  | nil => rfl
  | cons entry rest ih =>
    rw [List.map_cons, Token.height, linesOf_text, ih, List.length_cons, Nat.add_comm]

/-! ## The run of a prelude -/

/-- An assignment binds its name, wherever it stands and whatever is in scope. -/
theorem run_text (line : Nat) (state : State) :
    run ((ofSource entry.text).map (Token.below line)) state =
      some (.done (state.bind entry.name.val (.number entry.value))) := by
  obtain ⟨tree, hStatement, hTakes⟩ := entry.exists_statement
  have hContents : ((ofSource entry.text).map (Token.below line)).map content =
      (Tree.Statement.assign entry.name tree).contents := by
    rw [← hStatement, List.map_map]
    rfl
  obtain ⟨head, behind, hTokens, hHead, hBehind⟩ := List.map_eq_cons_iff.mp hContents
  obtain ⟨target, stretch, rfl, hTarget, hStretch⟩ := List.map_eq_cons_iff.mp hBehind
  obtain ⟨number, hText, hNumber⟩ := hTakes state.scope stretch hStretch
  have hRead := Tree.takes_ofKeyword .assign hHead (Tree.takes_assign head hTarget hNumber)
    (head :: target :: stretch).getLast? []
  rw [List.append_nil] at hRead
  rw [hTokens, Program.run_single hRead, hText]
  rfl

/-- A prelude ends normally, with all its names bound. -/
theorem run_prelude (entries : List Entry) (lines : Nat) (state : State) :
    run (ofSources lines (entries.map text)) state =
      some (.done { state with scope := ⟨state.scope.bindings.insertAll (entries.map binding)⟩ }) := by
  induction entries generalizing lines state with
  | nil => exact (Program.run_eq _ _).trans (Program.statements_nil _ _ _)
  | cons entry rest ih =>
    rw [List.map_cons, ofSources, Program.run_append _ (entry.run_text lines state), ih]
    rfl

end Entry

/-- The tokens of a program follow those of its prelude, as many lines further down as that has. -/
theorem ofSource_withPrelude (entries : List Entry) (source : String) :
    ofSource (withPrelude entries source) =
      ofSources 0 (entries.map Entry.text) ++ (ofSource source).map (Token.below entries.length) := by
  rw [withPrelude, Token.ofSource_intercalate, Token.ofSources_append, Entry.height_map_text,
    Nat.zero_add]
  exact congrArg _ (List.append_nil _)

/-! ## The scope behind a prelude -/

theorem isNumeric_contextOf (entries : List Entry) : IsNumeric (contextOf entries) := by
  intro name binding hEntry
  obtain ⟨entry, -, hBinding⟩ := List.mem_map.mp (NameMap.mem_toList_ofList hEntry)
  cases hBinding
  exact ⟨entry.value, rfl, entry.isPlain⟩

/-- Numbers have no place, so that a scope of numbers stays the same further down. -/
theorem IsNumeric.state_below {context : NameMap Binding} (h : IsNumeric context) (lines : Nat) :
    (Relabelling.below lines).state (.initial ⟨context⟩) = .initial ⟨context⟩ := by
  obtain ⟨entries⟩ := context
  have hEntries : entries.map (fun entry => (entry.1, (Relabelling.below lines).binding entry.2)) =
      entries := by
    refine (List.map_congr_left fun entry hEntry => ?_).trans (List.map_id entries)
    obtain ⟨name, binding⟩ := entry
    obtain ⟨text, rfl, -⟩ := h name binding hEntry
    rfl
  exact congrArg (fun entries => State.initial ⟨⟨entries⟩⟩) hEntries

/-- There is no command in a scope of numbers. -/
theorem IsNumeric.verify_body {context : NameMap Binding} (h : IsNumeric context) (name : String)
    (command : Command)
    (hCommand : (name, .command command) ∈ (State.initial ⟨context⟩).scope.bindings.toList) :
    Token.verify command.body = .ok () := by
  obtain ⟨text, hBinding, -⟩ := h name _ hCommand
  cases hBinding

theorem IsNumeric.same_initial {context context' : NameMap Binding} (h : IsNumeric context)
    (h' : IsNumeric context') (hSame : Scope.Same ⟨context⟩ ⟨context'⟩) {Q : Token → Prop} :
    State.Same Q (.initial ⟨context⟩) (.initial ⟨context'⟩) where
  scope := hSame
  trace := rfl
  isOver := h.isOver
  isOver' := h'.isOver

/-- Entries of distinct names say the same in any order. -/
theorem same_contextOf {entries ordered : List Entry}
    (hNames : (entries.map fun entry => entry.name.val).Nodup) (hOrder : ordered.Perm entries) :
    Scope.Same ⟨contextOf entries⟩ ⟨contextOf ordered⟩ := by
  have hKeys : ((entries.map Entry.binding).map Prod.fst).Nodup := by
    rwa [List.map_map]
  have hBindings := hOrder.map Entry.binding
  have hKeys' : ((ordered.map Entry.binding).map Prod.fst).Nodup :=
    (hBindings.map Prod.fst).nodup_iff.mpr hKeys
  intro name
  refine Option.ext fun binding => ?_
  show (NameMap.ofList _).get? name = some binding ↔ (NameMap.ofList _).get? name = some binding
  rw [NameMap.get?_ofList hKeys, NameMap.get?_ofList hKeys', hBindings.mem_iff]

/-- A program behind its prelude runs from the scope of the entries. -/
theorem runSource_withPrelude_eq (entries : List Entry) {source : String}
    (hSource : Token.verify (ofSource source) = .ok ()) :
    runSource (withPrelude entries source) (.initial .empty) =
      run ((ofSource source).map (Token.below entries.length)) (.initial ⟨contextOf entries⟩) := by
  have hLines : ∀ line ∈ entries.map Entry.text ++ [source], Token.verify (ofSource line) = .ok () := by
    refine List.forall_mem_append.mpr ⟨?_, List.forall_mem_singleton.mpr hSource⟩
    exact List.forall_mem_map.mpr fun entry _ => entry.verify_text
  have hVerify : Token.verify (ofSource (withPrelude entries source)) = .ok () := by
    rw [withPrelude, Token.ofSource_intercalate]
    exact Token.verify_ofSources hLines
  have hPrelude := Entry.run_prelude entries 0 (.initial .empty)
  rw [Program.runSource_of_verify hVerify, ofSource_withPrelude, Program.run_append _ hPrelude]
  rfl

/-! ## Ends of runs -/

/-- Two states with the same trace, in which every name means the same number, or the same command
with a body that stands a number of lines further down. -/
structure State.SameBelow (lines : Nat) (state state' : State) : Prop where
  trace : state'.trace = state.trace
  scope : ∀ name, state'.scope.get? name =
    (state.scope.get? name).map (Relabelling.below lines).binding

/-- Two runs end normally, or fail with the same problem at places as many lines apart. -/
inductive Outcome.SameBelow (lines : Nat) : Outcome → Outcome → Prop
  | done {state state' : State} (h : state.SameBelow lines state') :
      SameBelow lines (.done state) (.done state')
  | failed {diagnostic diagnostic' : Diagnostic} {state state' : State}
      (hProblem : diagnostic'.problem = diagnostic.problem)
      (hLocation : diagnostic'.location = diagnostic.location.map (Location.below lines))
      (h : state.SameBelow lines state') :
      SameBelow lines (.failed (.diagnosed diagnostic) state) (.failed (.diagnosed diagnostic') state')

section Ends

variable {Q : Token → Prop} {lines : Nat}

theorem State.SameBelow.of_same {state between state' : State}
    (hBelow : between = (Relabelling.below lines).state state) (hSame : between.Same Q state') :
    state.SameBelow lines state' where
  trace := by
    rw [hSame.trace, hBelow]
    rfl
  scope name := by
    rw [hSame.scope name, hBelow]
    exact (Relabelling.below lines).get?_scope state.scope name

/-- An end further down, put in another order. -/
theorem Outcome.SameBelow.of_same {outcome between outcome' : Outcome}
    (hReports : ∀ failure, outcome.failure? = some failure → ∃ diagnostic, failure = .diagnosed diagnostic)
    (hBelow : (Relabelling.below lines).Matches outcome between) (hSame : between.Same Q outcome') :
    outcome.SameBelow lines outcome' := by
  cases hBelow with
  | done state =>
    cases hSame with
    | done hState => exact .done (.of_same rfl hState)
  | failed hFailure state =>
    cases hSame with
    | failed failure hState =>
      obtain ⟨diagnostic, rfl⟩ := hReports _ rfl
      cases hFailure with
      | diagnosed hBlames =>
        exact .failed (hBlames.problem fun _ => rfl) hBlames.location (.of_same rfl hState)

end Ends

/-- Numbers of distinct names come to the same in the scope that a program starts with and in
assignments above it, in any order, whatever their texts are. Both programs end with the same trace
and the same meanings of all names, up to the places in the bodies of commands; or both fail with
the same problem at the same token, which stands one line further down for each assignment; or
neither ends. -/
theorem runSource_withPrelude {entries ordered : List Entry}
    (hNames : (entries.map fun entry => entry.name.val).Nodup) (hOrder : ordered.Perm entries)
    {source : String} (hSource : Token.verify (ofSource source) = .ok ()) :
    ∃ scope, Scope.ofBindings (contextOf entries) = .ok scope ∧
      Option.Rel (Outcome.SameBelow entries.length) (runSource source (.initial scope))
        (runSource (withPrelude ordered source) (.initial .empty)) := by
  have hNumeric := isNumeric_contextOf entries
  have hNumeric' := isNumeric_contextOf ordered
  refine ⟨_, hNumeric.ofBindings, ?_⟩
  rw [Program.runSource_of_verify hSource, runSource_withPrelude_eq ordered hSource,
    hOrder.length_eq]
  -- the program from the scope of the entries, the same further down, and in the other order
  have hMatches := (Relabelling.below entries.length).run_matches hSource hNumeric.verify_body
  have hNumeral := Token.isNumeral_of_verify (Token.verify_below entries.length hSource)
  have hSame := run_same (fun _ hToken => hToken) hNumeral
    (hNumeric.same_initial hNumeric' (same_contextOf hNames hOrder))
  rw [hNumeric.state_below, funext (Relabelling.token_below entries.length)] at hMatches
  have hReports := Program.respects_reports (ofSource source) (.initial ⟨contextOf entries⟩)
  generalize run (ofSource source) (.initial ⟨contextOf entries⟩) = result at hMatches hReports ⊢
  generalize run _ (.initial ⟨contextOf entries⟩) = between at hMatches hSame
  generalize run _ (.initial ⟨contextOf ordered⟩) = result' at hSame ⊢
  cases hMatches with
  | none =>
    cases hSame
    exact .none
  | @some outcome _ hBelow =>
    cases hSame with
    | some hOutcome => exact .some (.of_same (hReports outcome rfl) hBelow hOutcome)

/-- A loop between a negative zero and a number with leading zeros, above a line that breaks off. -/
theorem runSource_withPrelude_zeros :
    let x : Entry := ⟨⟨"x", by decide +kernel⟩, "-0", by decide +kernel⟩
    let y : Entry := ⟨⟨"y", by decide +kernel⟩, "007", by decide +kernel⟩
    let source := "Repeat i x y \x7b Pen i \x7d\nLine x y"
    withPrelude [y, x] source = "Set y 007\nSet x -0\n" ++ source ∧
      ∃ scope, Scope.ofBindings (contextOf [x, y]) = .ok scope ∧
        Option.Rel (Outcome.SameBelow 2) (runSource source (.initial scope))
          (runSource (withPrelude [y, x] source) (.initial .empty)) := by
  intro x y source
  have hNames : ([x, y].map fun entry => entry.name.val).Nodup := by decide +kernel
  have hOrder : [y, x].Perm [x, y] := .swap x y []
  exact ⟨by decide +kernel, runSource_withPrelude hNames hOrder (by decide +kernel)⟩

end DesignByNumbers
