import DesignByNumbers.Proofs.Content
import DesignByNumbers.Proofs.NameMap
import DesignByNumbers.Scope

/-!
# Proofs.Likeness — programs that differ in names and places

Two programs are alike when they say the same with other names, at other places. Which names
and which places go together is a parameter: names are matched one to one, with no keyword
among those that change, and places are matched in any way.

Tokens, scopes and diagnostics that are alike are what the same run goes through in two such
programs.
-/

namespace DesignByNumbers

/-- Which names and which places of two programs go together. -/
structure Likeness where
  named : String → String → Prop
  biUnique : Relator.BiUnique named
  keyword : ∀ {name name'}, named name name' → Keyword.ofText? name' = Keyword.ofText? name
  located : Location → Location → Prop

namespace Likeness

/-- Names stand for themselves, and only places differ. -/
def ofPlaces (located : Location → Location → Prop) : Likeness where
  named := Eq
  biUnique := NameMap.biUnique_eq
  keyword := fun hName => by rw [hName]
  located := located

variable (κ : Likeness)

/-- The same with the two programs exchanged. -/
def symm : Likeness where
  named name name' := κ.named name' name
  biUnique := ⟨fun _ _ _ h h' => κ.biUnique.2 h h', fun _ _ _ h h' => κ.biUnique.1 h h'⟩
  keyword := fun hName => (κ.keyword hName).symm
  located location location' := κ.located location' location

/-- No name is changed. -/
def KeepsNames : Prop :=
  ∀ name name', κ.named name name' → name' = name

/-! ## Tokens -/

/-- Two tokens are of the same kind and in matching places, with matching texts if they are
words and the same text otherwise. -/
structure TokenLike (token token' : Token) : Prop where
  kind : token'.kind = token.kind
  word : token.kind = .word → κ.named token.text token'.text
  other : token.kind ≠ .word → token'.text = token.text
  wellFormed : token'.isWellFormed = token.isWellFormed
  located : κ.located token.location token'.location

/-- Two token sequences that are alike one after the other. -/
abbrev TokensLike (tokens tokens' : List Token) : Prop :=
  List.Forall₂ κ.TokenLike tokens tokens'

/-- Two number tokens with the same text, in matching places. -/
structure NumberLike (number number' : Token) : Prop where
  text : number'.text = number.text
  located : κ.located number.location number'.location

/-! ## Diagnostics -/

/-- Two problems of the same category, which are the same one if no name is changed. -/
structure ProblemLike (problem problem' : Problem) : Prop where
  category : problem'.category = problem.category
  same : κ.KeepsNames → problem' = problem

/-- Two diagnostics of problems that are alike, at matching places. -/
structure DiagnosticLike (diagnostic diagnostic' : Diagnostic) : Prop where
  problem : κ.ProblemLike diagnostic.problem diagnostic'.problem
  located : Option.Rel κ.located diagnostic.location diagnostic'.location

/-- Two results that are related, or two diagnostics that are alike. -/
inductive ExceptLike {α β : Type} (R : α → β → Prop) :
    Except Diagnostic α → Except Diagnostic β → Prop
  | ok {value : α} {value' : β} (h : R value value') : ExceptLike R (.ok value) (.ok value')
  | error {diagnostic diagnostic' : Diagnostic} (h : κ.DiagnosticLike diagnostic diagnostic') :
      ExceptLike R (.error diagnostic) (.error diagnostic')

/-! ## Scopes -/

/-- Two meanings of a name are alike: the same number, or commands with matching names and
parameters and bodies that are alike. -/
inductive BindingLike : Binding → Binding → Prop
  | number (text : String) : BindingLike (.number text) (.number text)
  | command {command command' : Command} (hName : κ.named command.name command'.name)
      (hParameters : List.Forall₂ κ.named command.parameters command'.parameters)
      (hBody : κ.TokensLike command.body command'.body) :
      BindingLike (.command command) (.command command')

/-- Two scopes give matching names meanings that are alike, in the same order. -/
def ScopeLike (scope scope' : Scope) : Prop :=
  NameMap.Related κ.named κ.BindingLike scope.bindings scope'.bindings

end Likeness

namespace Likeness

variable {κ : Likeness} {token token' : Token}

/-! ## Laws of tokens -/

theorem TokenLike.isSymbol (h : κ.TokenLike token token') (text : String) :
    token'.isSymbol text = token.isSymbol text := by
  by_cases hWord : token.kind = .word
  · simp [Token.isSymbol, h.kind, hWord]
  · simp [Token.isSymbol, h.kind, h.other hWord]

theorem TokenLike.text_eq (h : κ.TokenLike token token') (hNames : κ.KeepsNames) :
    token'.text = token.text := by
  by_cases hWord : token.kind = .word
  · exact hNames _ _ (h.word hWord)
  · exact h.other hWord

/-- A problem with the text of a token at the token. -/
theorem TokenLike.blameText (h : κ.TokenLike token token') (problem : String → Problem)
    (hCategory : ∀ text text', (problem text').category = (problem text).category) :
    κ.DiagnosticLike (.blame token (problem token.text)) (.blame token' (problem token'.text)) where
  problem :=
    { category := hCategory _ _
      same := fun hNames => congrArg problem (h.text_eq hNames) }
  located := .some h.located

/-- A problem at a token. -/
theorem TokenLike.blame (h : κ.TokenLike token token') (problem : Problem) :
    κ.DiagnosticLike (.blame token problem) (.blame token' problem) where
  problem := { category := rfl, same := fun _ => rfl }
  located := .some h.located

theorem TokenLike.withNumber (h : κ.TokenLike token token') (text : String) :
    κ.NumberLike (token.withNumber text) (token'.withNumber text) where
  text := rfl
  located := h.located

theorem NumberLike.blame {number number' : Token} (h : κ.NumberLike number number')
    (problem : Problem) : κ.DiagnosticLike (.blame number problem) (.blame number' problem) where
  problem := { category := rfl, same := fun _ => rfl }
  located := .some h.located

/-- What is wrong with a token is alike. -/
theorem TokenLike.blameDefect (h : κ.TokenLike token token') :
    κ.DiagnosticLike (.blame token token.defect) (.blame token' token'.defect) where
  problem := by
    constructor
    · show token'.defect.category = token.defect.category
      rw [Token.defect, Token.defect, h.kind]
      cases token.kind <;> rfl
    · intro hNames
      show token'.defect = token.defect
      rw [Token.defect, Token.defect, h.kind, h.text_eq hNames]
  located := .some h.located

theorem TokensLike.verify {tokens tokens' : List Token} (h : κ.TokensLike tokens tokens') :
    κ.ExceptLike (fun _ _ => True) (Token.verify tokens) (Token.verify tokens') := by
  -- the first token that is refused stands at the same position in both
  induction h with
  | nil => exact .ok trivial
  | @cons token token' rest rest' hToken _ ih =>
    cases hWellFormed : token.isWellFormed with
    | true =>
      have hRest : ∀ {first : Token} {others : List Token}, first.isWellFormed = true →
          Token.verify (first :: others) = Token.verify others := by
        intro first others hFirst
        simp [Token.verify, hFirst]
      rw [hRest hWellFormed, hRest (hToken.wellFormed.trans hWellFormed)]
      exact ih
    | false =>
      have hFirst : ∀ {first : Token} {others : List Token}, first.isWellFormed = false →
          Token.verify (first :: others) = .error (.blame first first.defect) := by
        intro first others hFirst
        simp [Token.verify, hFirst]
      rw [hFirst hWellFormed, hFirst (hToken.wellFormed.trans hWellFormed)]
      exact .error hToken.blameDefect

/-! ## Laws of results -/

section Except

variable {α α' β β' : Type} {R : α → α' → Prop} {S : β → β' → Prop}

theorem ExceptLike.bind {first : Except Diagnostic α} {first' : Except Diagnostic α'}
    {second : α → Except Diagnostic β} {second' : α' → Except Diagnostic β'}
    (hFirst : κ.ExceptLike R first first')
    (hSecond : ∀ value value', R value value' → κ.ExceptLike S (second value) (second' value')) :
    κ.ExceptLike S (first >>= second) (first' >>= second') := by
  cases hFirst with
  | ok hValue => exact hSecond _ _ hValue
  | error hDiagnostic => exact .error hDiagnostic

end Except

/-! ## Laws of scopes -/

section Scope

variable {scope scope' : Scope} {name name' : String}

theorem ScopeLike.get? (h : κ.ScopeLike scope scope') (hName : κ.named name name') :
    Option.Rel κ.BindingLike (scope.get? name) (scope'.get? name') :=
  NameMap.Related.get? κ.biUnique h hName

theorem ScopeLike.contains (h : κ.ScopeLike scope scope') (hName : κ.named name name') :
    scope'.contains name' = scope.contains name :=
  NameMap.Related.contains κ.biUnique h hName

theorem ScopeLike.bind (h : κ.ScopeLike scope scope') (hName : κ.named name name')
    {binding binding' : Binding} (hBinding : κ.BindingLike binding binding') :
    κ.ScopeLike (scope.bind name binding) (scope'.bind name' binding') :=
  NameMap.Related.insert κ.biUnique h hName hBinding

/-- A word names the same number in both scopes, or is refused in both. -/
theorem ScopeLike.number (h : κ.ScopeLike scope scope') (hToken : κ.TokenLike token token')
    (hWord : token.kind = .word) : κ.ExceptLike Eq (scope.number token) (scope'.number token') := by
  have hGet := h.get? (hToken.word hWord)
  rw [Scope.number, Scope.number]
  generalize scope.get? token.text = meaning at hGet
  generalize scope'.get? token'.text = meaning' at hGet
  cases hGet with
  | none => exact .error (hToken.blameText .undeclared fun _ _ => rfl)
  | some hBinding =>
    cases hBinding with
    | number text => exact .ok rfl
    | command => exact .error (hToken.blameText .commandAsNumber fun _ _ => rfl)

/-- The same number is refused among entries that are alike. -/
theorem defect?_like {entries entries' : List (String × Binding)}
    (h : NameMap.EntriesRelated κ.named κ.BindingLike entries entries') :
    Option.Rel κ.ProblemLike (Scope.defect? entries) (Scope.defect? entries') := by
  induction h with
  | nil => exact .none
  | @cons entry entry' rest rest' hEntry _ ih =>
    obtain ⟨key, binding⟩ := entry
    obtain ⟨key', binding'⟩ := entry'
    obtain ⟨hKey, hBinding⟩ := hEntry
    cases hBinding with
    | number text =>
      rw [Scope.defect?, Scope.defect?]
      split
      · exact ih
      · refine .some { category := rfl, same := fun hNames => ?_ }
        rw [show key' = key from hNames _ _ hKey]
    | command => exact ih

theorem ScopeLike.deriveChild (h : κ.ScopeLike scope scope')
    {entries entries' : List (String × Binding)}
    (hEntries : NameMap.EntriesRelated κ.named κ.BindingLike entries entries') :
    κ.ExceptLike κ.ScopeLike (scope.deriveChild (.ofList entries))
      (scope'.deriveChild (.ofList entries')) := by
  -- arguments replace what their names meant, at the same positions in both scopes
  have hChild : NameMap.Related κ.named κ.BindingLike
      (scope.bindings.insertAll (NameMap.ofList entries).toList)
      (scope'.bindings.insertAll (NameMap.ofList entries').toList) :=
    NameMap.Related.insertAll κ.biUnique h (NameMap.Related.ofList κ.biUnique hEntries)
  have hDefect := defect?_like hChild.toList
  rw [Scope.deriveChild, Scope.ofBindings, Scope.deriveChild, Scope.ofBindings]
  generalize Scope.defect? _ = defect at hDefect
  generalize Scope.defect? _ = defect' at hDefect
  cases hDefect with
  | none => exact .ok hChild
  | some hProblem => exact .error { problem := hProblem, located := .none }

end Scope

end Likeness

end DesignByNumbers
