import DesignByNumbers.Proofs.Consistency
import DesignByNumbers.Proofs.Succession

/-!
# Proofs.Lifecycle — what becomes of the meaning of a name

A name is never forgotten. It may be given a number at any time, whatever it means, and then stays a
number; it becomes a command only if it means nothing and is no keyword, and no other command takes
the place of one. Calls do not weaken this: what they bind are numbers, and it is forgotten when they
are over.

* `Scope.Develops` — how a scope may change.
* `isSuccession_develops` — every statement changes it in this way.
* `lifecycle_of_run` — what this says of each name.
-/

namespace DesignByNumbers

open Instruction (AreNumbers)

/-- How the meaning of a name may change: it stays, it becomes a number, or a name without meaning
that is no keyword becomes a command. -/
inductive Binding.Develops (name : String) : Option Binding → Option Binding → Prop
  | same (meaning : Option Binding) : Develops name meaning meaning
  | number (meaning : Option Binding) (text : String) : Develops name meaning (some (.number text))
  | command (command : Command) (hKeyword : Keyword.ofText? name = none) :
      Develops name none (some (.command command))

theorem Binding.Develops.trans {name : String} {first second third : Option Binding}
    (h : Develops name first second) (h' : Develops name second third) :
    Develops name first third := by
  cases h' with
  | same => exact h
  | number _ text => exact .number first text
  | command command hKeyword =>
    -- a name that means nothing has not meant anything before
    cases h with
    | same => exact .command command hKeyword

namespace Scope

theorem get?_eq_none {scope : Scope} {name : String} (h : scope.contains name = false) :
    scope.get? name = none :=
  Option.not_isSome_iff_eq_none.mp (Bool.eq_false_iff.mp h)

/-- How a scope may change: each name in one of the ways in which its meaning may. -/
def Develops (scope scope' : Scope) : Prop :=
  ∀ name, Binding.Develops name (scope.get? name) (scope'.get? name)

theorem Develops.refl (scope : Scope) : scope.Develops scope :=
  fun _ => .same _

theorem Develops.trans {first second third : Scope} (h : first.Develops second)
    (h' : second.Develops third) : first.Develops third :=
  fun name => (h name).trans (h' name)

theorem develops_bind {scope : Scope} {name : String} {binding : Binding}
    (h : Binding.Develops name (scope.get? name) (some binding)) :
    scope.Develops (scope.bind name binding) := by
  intro key
  -- the other names keep their meanings
  show Binding.Develops key (scope.get? key) ((scope.bindings.insert name binding).get? key)
  rw [NameMap.get?_insert]
  split
  next hKey => exact hKey ▸ h
  next => exact .same _

theorem develops_insertAll {scope : Scope} {entries : List (String × Binding)}
    (h : AreNumbers entries) : scope.Develops ⟨scope.bindings.insertAll entries⟩ := by
  induction entries generalizing scope with
  | nil => exact .refl scope
  | cons entry rest ih =>
    obtain ⟨text, hText⟩ := h entry.1 entry.2 (List.mem_cons_self ..)
    have hFirst : scope.Develops (scope.bind entry.1 entry.2) := develops_bind (hText ▸ .number _ text)
    refine hFirst.trans (ih fun name binding hEntry => ?_)
    exact h name binding (List.mem_cons_of_mem entry hEntry)

/-- The scope of a call is that of its caller with numbers bound in it. -/
theorem develops_deriveChild {scope child : Scope} {bindings : List (String × Binding)}
    (h : AreNumbers bindings) (hChild : scope.deriveChild (.ofList bindings) = .ok child) :
    scope.Develops child := by
  obtain ⟨-, rfl⟩ := ofBindings_eq_ok_iff.mp hChild
  exact develops_insertAll fun name binding hEntry =>
    h name binding (NameMap.mem_toList_ofList hEntry)

end Scope

namespace Program

open Token (ofSource)

theorem isSuccession_develops :
    IsSuccession fun state state' => state.scope.Develops state'.scope where
  refl state := .refl state.scope
  trans := .trans
  draw state _ := .refl state.scope
  assign _ _ text := Scope.develops_bind (.number _ text)
  define hKeyword hNew := by
    -- a definition is refused where its name means anything
    refine Scope.develops_bind ?_
    rw [Scope.get?_eq_none hNew]
    exact .command _ hKeyword
  enter _ hBindings hChild := Scope.develops_deriveChild hBindings hChild
  leave _ := .refl _

/-- The scope at a point of a run develops into the ones at all points behind it, at any depth. -/
theorem develops_of_reaches {point point' : Point} (h : Reaches point point') :
    point.state.scope.Develops point'.state.scope :=
  isSuccession_develops.rel_of_reaches h

/-- A run that ends, normally or not, leaves a meaning to every name that had one; a number stays a
number; a command stays the very same one or becomes a number; and a keyword that was no command is
none afterwards. -/
theorem lifecycle_of_run {tokens : List Token} {state : State} {outcome : Outcome}
    (hRun : run tokens state = some outcome) (name : String) :
    (state.scope.contains name = true → outcome.state.scope.contains name = true) ∧
    (∀ text, state.scope.get? name = some (.number text) →
      ∃ text', outcome.state.scope.get? name = some (.number text')) ∧
    (∀ command, state.scope.get? name = some (.command command) →
      outcome.state.scope.get? name = some (.command command) ∨
      ∃ text, outcome.state.scope.get? name = some (.number text)) ∧
    ((Keyword.ofText? name).isSome → (∀ command, state.scope.get? name ≠ some (.command command)) →
      ∀ command, outcome.state.scope.get? name ≠ some (.command command)) := by
  have hDevelops := isSuccession_develops.rel_of_run tokens state outcome hRun name
  have hContains : ∀ scope : Scope, scope.contains name = (scope.get? name).isSome := fun _ => rfl
  rw [hContains, hContains]
  generalize state.scope.get? name = before at hDevelops ⊢
  generalize outcome.state.scope.get? name = behind at hDevelops ⊢
  -- all four parts are read off the way in which the meaning has changed
  cases hDevelops with
  | same => exact ⟨id, fun text h => ⟨text, h⟩, fun _ => .inl, fun _ h => h⟩
  | number _ text =>
    refine ⟨fun _ => rfl, fun _ _ => ⟨text, rfl⟩, fun _ _ => .inr ⟨text, rfl⟩, ?_⟩
    rintro - - command ⟨⟩
  | command command hKeyword =>
    -- the name meant nothing before, and is no keyword
    rw [hKeyword]
    exact ⟨fun _ => rfl, nofun, nofun, nofun⟩

/-- A program that makes numbers of a keyword and of a command, and then fails to define a name anew:
both are numbers behind it, and the name is still one. -/
theorem lifecycle_of_run_taken :
    let source := "Set Pen X Set Swap 1 Command X \x7b \x7d"
    let swap : Command := ⟨"Swap", ["a"], []⟩
    let scope : Scope := ⟨⟨[("Swap", .command swap), ("X", .number "7")]⟩⟩
    let final : Scope := ⟨⟨[("Swap", .number "1"), ("X", .number "7"), ("Pen", .number "7")]⟩⟩
    let diagnostic : Diagnostic := ⟨.nameTaken "X", some ⟨1, 29, source⟩⟩
    run (ofSource source) (.initial scope) =
        some (.failed (.diagnosed diagnostic) (.initial final)) ∧
      final.contains "Swap" = true ∧ (∃ text, final.get? "X" = some (.number text)) ∧
      (final.get? "Swap" = some (.command swap) ∨
        ∃ text, final.get? "Swap" = some (.number text)) ∧
      ∀ command, final.get? "Pen" ≠ some (.command command) := by
  intro source swap scope final diagnostic
  let middle : Scope := ⟨⟨[("Swap", .command swap), ("X", .number "7"), ("Pen", .number "7")]⟩⟩
  have hRun : run (ofSource source) (.initial scope) =
      some (.failed (.diagnosed diagnostic) (.initial final)) := by
    obtain ⟨head, rest, set, others, command, block, hTokens, hPen, hSwap, hDefinition⟩ :
        ∃ head rest set others command block,
        ofSource source = head :: rest ∧
        Instruction.ofStatement (State.initial scope).scope head (head :: rest).getLast? rest =
          .ok (.bind "Pen" (.number "7"), set :: others) ∧
        Instruction.ofStatement (State.initial middle).scope set (head :: rest).getLast? others =
          .ok (.bind "Swap" (.number "1"), command :: block) ∧
        Instruction.ofStatement (State.initial final).scope command (head :: rest).getLast? block =
          .error diagnostic :=
      ⟨(ofSource source).head!, (ofSource source).tail, (ofSource source)[3]!,
        (ofSource source).drop 4, (ofSource source)[6]!, (ofSource source).drop 7,
        by decide +kernel⟩
    have hMiddle : execute run (.bind "Pen" (.number "7")) (.initial scope) =
        some (.done (.initial middle)) := rfl
    have hFinal : execute run (.bind "Swap" (.number "1")) (.initial middle) =
        some (.done (.initial final)) := rfl
    rw [hTokens, run_eq, statements_of_done hPen hMiddle, statements_of_done hSwap hFinal,
      statements_of_error run hDefinition]
  have hNone : ∀ command, scope.get? "Pen" ≠ some (.command command) := by
    rintro command ⟨⟩
  obtain ⟨hContains, -, hCommand, -⟩ := lifecycle_of_run hRun "Swap"
  obtain ⟨-, hNumber, -, -⟩ := lifecycle_of_run hRun "X"
  obtain ⟨-, -, -, hKeyword⟩ := lifecycle_of_run hRun "Pen"
  exact ⟨hRun, hContains rfl, hNumber "7" rfl, hCommand swap rfl, hKeyword (by decide) hNone⟩

end Program

end DesignByNumbers
