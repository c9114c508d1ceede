import Mathlib.Logic.Equiv.Basic
import DesignByNumbers.Proofs.Lexer
import DesignByNumbers.Proofs.Likeness.Run

/-!
# Proofs.Relabelling — other names at other places

Names other than the keywords mean what a program makes of them, and places are reported and
nothing else. A program in which names are replaced one to one and tokens stand at other places
therefore runs to the same trace, and to the scope in which the same replacements are made.

* `Relabelling.tokensLike`, `Relabelling.stateLike` — what is relabelled is alike.
* `Relabelling.matches_of_like` — ends that are alike are the same ones, relabelled.
* `Relabelling.run_matches` — runs of relabelled programs.
* `run_rename` — programs whose names are replaced.
-/

namespace DesignByNumbers

open Program (run)

/-- Other names and other places. Distinct names stay distinct, keywords stay as they are, and what
has the shape of a word keeps it. -/
structure Relabelling where
  name : String → String
  place : Location → Location
  injective : Function.Injective name
  keyword : ∀ keyword : Keyword, name keyword.text = keyword.text
  isWord : ∀ text : String, Token.isWord text.toList = true → Token.isWord (name text).toList = true

namespace Relabelling

/-- The names stay, and every token stands a number of lines further down. -/
def below (lines : Nat) : Relabelling where
  name := id
  place := Location.below lines
  injective := Function.injective_id
  keyword _ := rfl
  isWord _ hText := hText

variable (ρ : Relabelling)

/-! ## Relabelled programs -/

/-- The token at its other place, with another text if it is a word. -/
def token (token : Token) : Token :=
  { token with
    text := if token.kind = .word then ρ.name token.text else token.text
    location := ρ.place token.location }

/-- The command with other names for itself and its parameters, and a relabelled body. -/
def command (command : Command) : Command where
  name := ρ.name command.name
  parameters := command.parameters.map ρ.name
  body := command.body.map ρ.token

def binding : Binding → Binding
  | .number text => .number text
  | .command command => .command (ρ.command command)

/-- The scope in which the other names mean what the names meant, relabelled. -/
def scope (scope : Scope) : Scope :=
  ⟨⟨scope.bindings.toList.map fun (name, binding) => (ρ.name name, ρ.binding binding)⟩⟩

def state (state : State) : State :=
  { state with scope := ρ.scope state.scope }

/-- Where all names stay, tokens move and nothing else. -/
theorem token_below (lines : Nat) (token : Token) : (below lines).token token = token.below lines := by
  obtain ⟨kind, text, location⟩ := token
  have hText : (if kind = .word then text else text) = text := ite_self text
  exact congrArg (fun text => (⟨kind, text, location.below lines⟩ : Token)) hText

/-- A look-up under the other name finds the relabelled meaning of the name. -/
theorem get?_scope (scope : Scope) (name : String) :
    (ρ.scope scope).get? (ρ.name name) = (scope.get? name).map ρ.binding := by
  obtain ⟨⟨entries⟩⟩ := scope
  show (entries.map fun (name, binding) => (ρ.name name, ρ.binding binding)).lookup (ρ.name name) =
    (entries.lookup name).map ρ.binding
  induction entries with
  | nil => rfl
  | cons entry rest ih =>
    obtain ⟨key, binding⟩ := entry
    rw [List.map_cons, List.lookup_cons, List.lookup_cons]
    by_cases hKey : name = key
    · simp [hKey]
    · -- distinct names are replaced by distinct ones, so that this entry is passed over as well
      have hOther : ρ.name name ≠ ρ.name key := fun h => hKey (ρ.injective h)
      simpa [beq_eq_false_iff_ne.mpr hKey, beq_eq_false_iff_ne.mpr hOther] using ih

/-! ## Relabelled ends of runs -/

/-- The same kind of problem at the other place; the same problem if all names stay. -/
structure Blames (diagnostic diagnostic' : Diagnostic) : Prop where
  category : diagnostic'.category = diagnostic.category
  location : diagnostic'.location = diagnostic.location.map ρ.place
  problem : (∀ name, ρ.name name = name) → diagnostic'.problem = diagnostic.problem

/-- Diagnostics of the same kind at matching places, or the same failure without a diagnostic. -/
inductive FailsAlike : Failure → Failure → Prop
  | diagnosed {diagnostic diagnostic' : Diagnostic} (h : ρ.Blames diagnostic diagnostic') :
      FailsAlike (.diagnosed diagnostic) (.diagnosed diagnostic')
  | unconvertible : FailsAlike .unconvertible .unconvertible
  | outOfRange : FailsAlike .outOfRange .outOfRange
  | endless : FailsAlike .endless .endless

/-- The second end leaves the relabelled state of the first one, and fails alike if that fails. -/
inductive Matches : Outcome → Outcome → Prop
  | done (state : State) : Matches (.done state) (.done (ρ.state state))
  | failed {failure failure' : Failure} (hFailure : ρ.FailsAlike failure failure') (state : State) :
      Matches (.failed failure state) (.failed failure' (ρ.state state))

/-! ## Likeness -/

/-- A name is the same keyword as before, or still none. -/
theorem ofText?_name (name : String) : Keyword.ofText? (ρ.name name) = Keyword.ofText? name := by
  have hSame : ∀ keyword : Keyword,
      (keyword.text == ρ.name name) = (keyword.text == name) := by
    intro keyword
    rw [Bool.eq_iff_iff, beq_iff_eq, beq_iff_eq]
    constructor
    · -- a keyword replaces itself, and therefore no other name
      intro h
      exact ρ.injective ((ρ.keyword keyword).trans h)
    · rintro rfl
      exact (ρ.keyword keyword).symm
  rw [Keyword.ofText?, Keyword.ofText?, funext hSame]

/-- Names and places go together with those that replace them. -/
def likeness : Likeness where
  named name name' := name' = ρ.name name
  biUnique := ⟨fun _ _ _ h h' => ρ.injective (h.symm.trans h'), fun _ _ _ h h' => h.trans h'.symm⟩
  keyword := by
    rintro name _ rfl
    exact ρ.ofText?_name name
  located location location' := location' = ρ.place location

theorem isWellFormed_token {token : Token} (h : token.isWellFormed = true) :
    (ρ.token token).isWellFormed = true := by
  obtain ⟨kind, text, location⟩ := token
  cases kind with
  | word => exact ρ.isWord text h
  | symbol => exact h
  | number => exact h
  | unknown name => exact h

theorem tokenLike {token : Token} (h : token.isWellFormed = true) :
    ρ.likeness.TokenLike token (ρ.token token) where
  kind := rfl
  word hWord := if_pos hWord
  other hOther := if_neg hOther
  wellFormed := (ρ.isWellFormed_token h).trans h.symm
  located := rfl

theorem tokensLike {tokens : List Token} (h : Token.verify tokens = .ok ()) :
    ρ.likeness.TokensLike tokens (tokens.map ρ.token) := by
  refine List.forall₂_map_right_iff.mpr (List.forall₂_same.mpr fun token hToken => ?_)
  exact ρ.tokenLike (Token.isWellFormed_of_verify h token hToken)

theorem namesLike (names : List String) :
    List.Forall₂ ρ.likeness.named names (names.map ρ.name) :=
  List.forall₂_map_right_iff.mpr (List.forall₂_same.mpr fun _ _ => rfl)

theorem bindingLike {binding : Binding}
    (h : ∀ command, binding = .command command → Token.verify command.body = .ok ()) :
    ρ.likeness.BindingLike binding (ρ.binding binding) := by
  cases binding with
  | number text => exact .number text
  | command command =>
    exact .command rfl (ρ.namesLike command.parameters) (ρ.tokensLike (h command rfl))

/-- A state whose commands have well-formed bodies is like the relabelled one. -/
theorem stateLike {state : State}
    (h : ∀ name command, (name, .command command) ∈ state.scope.bindings.toList →
      Token.verify command.body = .ok ()) : ρ.likeness.StateLike state (ρ.state state) where
  scope := by
    refine List.forall₂_map_right_iff.mpr (List.forall₂_same.mpr fun entry hEntry => ⟨rfl, ?_⟩)
    refine ρ.bindingLike fun command hCommand => h entry.1 command ?_
    rw [← hCommand]
    exact hEntry
  trace := rfl

/-! ## What is alike is relabelled -/

/-- A list whose items match those of another one item by item is its image. -/
theorem map_of_forall₂ {α β : Type} {f : α → β} {items : List α} {items' : List β}
    (h : List.Forall₂ (fun item item' => item' = f item) items items') : items' = items.map f := by
  rw [← List.forall₂_eq_eq_eq, List.forall₂_map_right_iff]
  exact h.flip

variable {ρ}

theorem token_of_like {token token' : Token} (h : ρ.likeness.TokenLike token token') :
    token' = ρ.token token := by
  -- the other text of a word, and the same text of everything else
  have hText : token'.text = (ρ.token token).text := by
    by_cases hWord : token.kind = .word
    · rw [h.word hWord, Relabelling.token, if_pos hWord]
    · rw [h.other hWord, Relabelling.token, if_neg hWord]
  obtain ⟨kind, text, location⟩ := token'
  obtain rfl : kind = token.kind := h.kind
  obtain rfl : location = ρ.place token.location := h.located
  obtain rfl : text = (ρ.token token).text := hText
  rfl

theorem binding_of_like {binding binding' : Binding} (h : ρ.likeness.BindingLike binding binding') :
    binding' = ρ.binding binding := by
  cases h with
  | number text => rfl
  | @command command command' hName hParameters hBody =>
    obtain ⟨name, parameters, body⟩ := command'
    obtain rfl : name = ρ.name command.name := hName
    obtain rfl : parameters = command.parameters.map ρ.name := map_of_forall₂ hParameters
    obtain rfl : body = command.body.map ρ.token :=
      map_of_forall₂ (hBody.imp fun _ _ hToken => token_of_like hToken)
    rfl

theorem state_of_like {state state' : State} (h : ρ.likeness.StateLike state state') :
    state' = ρ.state state := by
  obtain ⟨⟨⟨entries⟩⟩, trace⟩ := state'
  obtain rfl : trace = state.trace := h.trace
  obtain rfl : entries = state.scope.bindings.toList.map
      fun (name, binding) => (ρ.name name, ρ.binding binding) := by
    refine map_of_forall₂ (List.Forall₂.imp (fun entry entry' hEntry => ?_) h.scope)
    exact Prod.ext hEntry.1 (binding_of_like hEntry.2)
  rfl

theorem blames_of_like {diagnostic diagnostic' : Diagnostic}
    (h : ρ.likeness.DiagnosticLike diagnostic diagnostic') : ρ.Blames diagnostic diagnostic' where
  category := h.problem.category
  location := by
    have hLocated := h.located
    generalize diagnostic.location = location at hLocated
    generalize diagnostic'.location = location' at hLocated
    cases hLocated with
    | none => rfl
    | some hPlace => exact congrArg some hPlace
  problem hNames := h.problem.same fun _ _ hName => hName.trans (hNames _)

/-- Ends that are alike are the same ones, relabelled. -/
theorem matches_of_like {outcome outcome' : Outcome} (h : ρ.likeness.OutcomeLike outcome outcome') :
    ρ.Matches outcome outcome' := by
  cases h with
  | done hState =>
    rw [state_of_like hState]
    exact .done _
  | failed hFailure hState =>
    rw [state_of_like hState]
    refine .failed ?_ _
    cases hFailure with
    | diagnosed hDiagnostic => exact .diagnosed (blames_of_like hDiagnostic)
    | unconvertible => exact .unconvertible
    | outOfRange => exact .outOfRange
    | endless => exact .endless

variable (ρ)

/-! ## Runs -/

/-- A relabelled program ends in the relabelled state of the program, or neither ends. -/
theorem run_matches {tokens : List Token} {state : State} (hTokens : Token.verify tokens = .ok ())
    (hScope : ∀ name command, (name, .command command) ∈ state.scope.bindings.toList →
      Token.verify command.body = .ok ()) :
    Option.Rel ρ.Matches (run tokens state) (run (tokens.map ρ.token) (ρ.state state)) := by
  have hLike := Likeness.run_like (ρ.tokensLike hTokens) (ρ.stateLike hScope)
  generalize run tokens state = result at hLike
  generalize run (tokens.map ρ.token) (ρ.state state) = result' at hLike
  cases hLike with
  | none => exact .none
  | some hOutcome => exact .some (matches_of_like hOutcome)

end Relabelling

/-- Names carry no meaning beyond the keywords. Where names are replaced one to one, keywords by
themselves and words by words, in the tokens of a program and in its scope, in the names, the
parameters and the bodies of commands, the run ends with the same trace and with the scope in which
the same names are replaced; and it fails where the other one fails, at the same place and with a
problem of the same category. -/
theorem run_rename (rename : String → String) (hInjective : Function.Injective rename)
    (hKeyword : ∀ keyword : Keyword, rename keyword.text = keyword.text)
    (hWord : ∀ text : String, Token.isWord text.toList = true →
      Token.isWord (rename text).toList = true)
    (tokens : List Token) (state : State) (hTokens : Token.verify tokens = .ok ())
    (hScope : ∀ name command, (name, .command command) ∈ state.scope.bindings.toList →
      Token.verify command.body = .ok ()) :
    let ρ : Relabelling := ⟨rename, id, hInjective, hKeyword, hWord⟩
    Option.Rel ρ.Matches (run tokens state) (run (tokens.map ρ.token) (ρ.state state)) :=
  Relabelling.run_matches _ hTokens hScope

/-- A variable and a command that take each other's names. -/
theorem run_rename_swap :
    let tokens := Token.ofSource "Shade Repeat y 0 x \x7b Set [y x] (x * 2) \x7d"
    let state : State := .initial ((Scope.empty.bind "x" (.number "7")).bind "Shade"
      (.command ⟨"Shade", [], Token.ofSource "Pen x"⟩))
    ∃ ρ : Relabelling, ρ.name = Equiv.swap "x" "Shade" ∧ ρ.place = id ∧
      Option.Rel ρ.Matches (run tokens state) (run (tokens.map ρ.token) (ρ.state state)) := by
  intro tokens state
  have hKeyword : ∀ keyword : Keyword, Equiv.swap "x" "Shade" keyword.text = keyword.text := by
    intro keyword
    cases keyword with
    | check comparison => cases comparison <;> decide
    | _ => decide
  have hWord : ∀ text : String, Token.isWord text.toList = true →
      Token.isWord (Equiv.swap "x" "Shade" text).toList = true := by
    intro text hText
    rw [Equiv.swap_apply_def]
    split
    · decide
    · split
      · decide
      · exact hText
  have hScope : ∀ name command, (name, .command command) ∈ state.scope.bindings.toList →
      Token.verify command.body = .ok () := by
    intro name command hCommand
    have hEntries : state.scope.bindings.toList = [("x", .number "7"),
        ("Shade", .command ⟨"Shade", [], Token.ofSource "Pen x"⟩)] := by decide +kernel
    rw [hEntries] at hCommand
    simp only [List.mem_cons, Prod.mk.injEq, reduceCtorEq, and_false, Binding.command.injEq,
      List.not_mem_nil, or_false, false_or] at hCommand
    rw [hCommand.2]
    decide +kernel
  exact ⟨_, rfl, rfl, run_rename (Equiv.swap "x" "Shade") (Equiv.injective _) hKeyword hWord tokens
    state (by decide +kernel) hScope⟩

end DesignByNumbers
