import DesignByNumbers.Proofs.Statement

/-!
# Proofs.Consistency — what names may mean

In a consistent scope every number is a plain numeral, and every command stands under its own
name, which is no keyword, with a body that can stand in a block. Of any other scope it may be known
at least which tokens its commands are made of. What holds of all names holds of them again in the
scopes that arise by giving a name a meaning and by entering a call.

* `Scope.All.bind`, `Scope.All.deriveChild` — how scopes arise from others.
* `Scope.IsConsistent.bind`, `Scope.IsConsistent.deriveChild` — consistent scopes.
-/

namespace DesignByNumbers

/-- A name means a plain numeral, or a command of that name, which is no keyword, with a body
that can stand in a block. -/
def Binding.IsConsistent (name : String) : Binding → Prop
  | .number text => Numeral.isPlain text = true
  | .command definition =>
    definition.name = name ∧ Keyword.ofText? name = none ∧ IsBlock definition.body

/-- A name means a plain numeral, or a command whose body is made of tokens with a property. -/
def Binding.IsOver (Q : Token → Prop) : Binding → Prop
  | .number text => Numeral.isPlain text = true
  | .command definition => ∀ token ∈ definition.body, Q token

namespace Scope

/-- All names mean something with a property. -/
def All (P : String → Binding → Prop) (scope : Scope) : Prop :=
  ∀ name binding, (name, binding) ∈ scope.bindings.toList → P name binding

/-- All names mean what they may mean. -/
def IsConsistent (scope : Scope) : Prop :=
  ∀ name binding, (name, binding) ∈ scope.bindings.toList → binding.IsConsistent name

/-- All commands are made of tokens with a property, and all numbers are plain numerals. -/
def IsOver (Q : Token → Prop) (scope : Scope) : Prop :=
  scope.All fun _ binding => binding.IsOver Q

theorem IsOver.isPlain {Q : Token → Prop} {scope : Scope} (h : scope.IsOver Q) : scope.IsPlain :=
  fun name text hEntry => h name (.number text) hEntry

theorem ofBindings_eq_ok_iff {bindings : NameMap Binding} {scope : Scope} :
    ofBindings bindings = .ok scope ↔ defect? bindings.toList = none ∧ scope = ⟨bindings⟩ := by
  rw [ofBindings]
  cases defect? bindings.toList with
  | none => simp [eq_comm]
  | some problem => simp

namespace All

variable {P : String → Binding → Prop} {scope : Scope}

theorem get? (h : scope.All P) {name : String} {binding : Binding}
    (hGet : scope.get? name = some binding) : P name binding :=
  h name binding (NameMap.mem_toList_of_get? hGet)

theorem bind (h : scope.All P) {name : String} {binding : Binding} (hBinding : P name binding) :
    (scope.bind name binding).All P := by
  intro name' binding' hEntry
  -- the new meaning replaces at most the old one of that name
  rcases NameMap.mem_toList_insert hEntry with hNew | hOld
  · cases hNew
    exact hBinding
  · exact h name' binding' hOld

theorem deriveChild (h : scope.All P) {N : String → Prop}
    (hNumber : ∀ name text, N text → P name (.number text))
    {bindings : List (String × Binding)} (hArguments : Instruction.AreArguments N bindings)
    {child : Scope} (hChild : scope.deriveChild (.ofList bindings) = .ok child) : child.All P := by
  obtain ⟨-, rfl⟩ := ofBindings_eq_ok_iff.mp hChild
  -- a child knows the arguments, and what its parent knows under other names
  intro name binding hEntry
  rcases NameMap.mem_toList_insertAll hEntry with hNew | hOld
  · obtain ⟨text, rfl, hText⟩ := hArguments name binding (NameMap.mem_toList_ofList hNew)
    exact hNumber name text hText
  · exact h name binding hOld

end All

namespace IsConsistent

variable {scope : Scope}

theorem all (h : scope.IsConsistent) : scope.All fun name binding => binding.IsConsistent name :=
  h

theorem isPlain (h : scope.IsConsistent) : scope.IsPlain :=
  fun name text hEntry => h name (.number text) hEntry

/-- The body of a command can stand in a block. -/
theorem isBlock (h : scope.IsConsistent) {name : String} {command : Command}
    (hCommand : scope.get? name = some (.command command)) : IsBlock command.body :=
  (h.all.get? hCommand).2.2

theorem bind (h : scope.IsConsistent) {name : String} {binding : Binding}
    (hBinding : binding.IsConsistent name) : (scope.bind name binding).IsConsistent :=
  h.all.bind hBinding

/-- The scope of a call is consistent. -/
theorem deriveChild (h : scope.IsConsistent) {bindings : List (String × Binding)}
    (hArguments : Instruction.AreArguments (Numeral.isPlain · = true) bindings) {child : Scope}
    (hChild : scope.deriveChild (.ofList bindings) = .ok child) : child.IsConsistent :=
  h.all.deriveChild (fun _ _ hPlain => hPlain) hArguments hChild

end IsConsistent

end Scope

namespace Instruction

/-- What an instruction binds or runs is made of tokens with a property. -/
def IsOver (Q : Token → Prop) : Instruction → Prop
  | .draw _ => True
  | .bind _ binding => binding.IsOver Q
  | .loop _ _ _ block => ∀ token ∈ block, Q token
  | .check _ block => ∀ token ∈ block, Q token
  | .call scope body => scope.IsOver Q ∧ ∀ token ∈ body, Q token

/-- An instruction is made of the tokens it was read from and of those of its scope. -/
theorem IsPossible.isOver {Q : Token → Prop} {scope : Scope} (hScope : scope.IsOver Q)
    {instruction : Instruction} (h : IsPossible (Numeral.isPlain · = true) Q scope instruction) :
    instruction.IsOver Q := by
  cases h with
  | draw hOp => trivial
  | assign hText => exact hText
  | define command hKeyword hNew hBody => exact hBody.tokens
  | loop hBlock => exact hBlock.tokens
  | check hBlock => exact hBlock.tokens
  | call hCommand hArguments hChild =>
    exact ⟨hScope.deriveChild (fun _ _ hPlain => hPlain) hArguments hChild, hScope.get? hCommand⟩

end Instruction

end DesignByNumbers
