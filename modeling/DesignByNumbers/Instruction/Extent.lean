import DesignByNumbers.Expression.Extent
import DesignByNumbers.Instruction

/-!
# Instruction.Extent — how far a statement reaches

A statement that is read takes the tokens of its own text and depends on no others, so that
statements can be read one after the other. The numbers of tokens that a construct asks for
before it is read are lower bounds of what it takes.

* `isLocal_ofStatement` — a statement takes its own tokens and no others.
-/

namespace DesignByNumbers.Instruction

open Token (Reader Takes IsLocal isLocal_next isLocal_pure isLocal_fail isLocal_ofExcept)
open Expression (isLocal_nextValue isLocal_nextDrawable)

variable (scope : Scope)

theorem isLocal_ofColour (construct : Construct) (hLength : construct.minimumLength ≤ 1)
    (op : String → DrawOp) (head : Token) : IsLocal 1 (ofColour scope construct op head) := by
  refine construct.isLocal_require head hLength ?_
  exact IsLocal.bind (m := 1) (n := 0) (isLocal_nextDrawable scope) fun _ =>
    isLocal_pure _

theorem isLocal_ofLine (head : Token) : IsLocal 4 (ofLine scope head) := by
  refine Construct.line.isLocal_require head (Nat.le_refl 4) ?_
  refine IsLocal.bind (m := 1) (n := 3) (isLocal_nextDrawable scope) fun x0 => ?_
  refine IsLocal.bind (m := 1) (n := 2) (isLocal_nextDrawable scope) fun y0 => ?_
  refine IsLocal.bind (m := 1) (n := 1) (isLocal_nextDrawable scope) fun x1 => ?_
  exact IsLocal.bind (m := 1) (n := 0) (isLocal_nextDrawable scope) fun _ =>
    isLocal_pure _

theorem isLocal_ofDot (opening : Token) : IsLocal 4 (ofDot scope opening) := by
  refine Construct.dot.isLocal_require opening (Nat.le_refl 4) ?_
  refine IsLocal.bind (m := 1) (n := 3) (isLocal_nextValue scope) fun x => ?_
  refine IsLocal.bind (m := 1) (n := 2) (isLocal_nextValue scope) fun y => ?_
  refine IsLocal.bind (m := 1) (n := 1) isLocal_next fun closing => ?_
  split
  · exact IsLocal.bind (m := 1) (n := 0) (isLocal_nextValue scope) fun _ =>
      isLocal_ofExcept _
  · exact isLocal_fail 1 _

theorem isLocal_ofAssignment (head : Token) : IsLocal 2 (ofAssignment scope head) := by
  refine Construct.assignment.isLocal_require head (Nat.le_refl 2) ?_
  refine IsLocal.bind (m := 1) (n := 1) isLocal_next fun target => ?_
  split
  · exact (isLocal_ofDot scope target).mono (by omega)
  · split
    · exact IsLocal.bind (m := 1) (n := 0) (isLocal_nextValue scope) fun _ =>
        isLocal_pure _
    · exact isLocal_fail 1 _

theorem isLocal_ofLoop (head : Token) : IsLocal 5 (ofLoop scope head) := by
  refine Construct.loop.isLocal_require head (Nat.le_refl 5) ?_
  refine IsLocal.bind (m := 1) (n := 4) isLocal_next fun counter => ?_
  split
  · refine IsLocal.bind (m := 1) (n := 3) (isLocal_nextValue scope) fun start => ?_
    refine IsLocal.bind (m := 1) (n := 2) (isLocal_nextValue scope) fun finish => ?_
    exact IsLocal.bind (m := 2) (n := 0) Block.isLocal_extract fun _ =>
      isLocal_ofExcept _
  · exact isLocal_fail 4 _

theorem isLocal_ofCheck (comparison : Comparison) (head : Token) :
    IsLocal 5 (ofCheck scope comparison head) := by
  refine (Construct.check comparison).isLocal_require head (Nat.le_refl 5) ?_
  refine IsLocal.bind (m := 1) (n := 4) isLocal_next fun mark => ?_
  split
  · refine IsLocal.bind (m := 1) (n := 3) (isLocal_nextValue scope) fun left => ?_
    refine IsLocal.bind (m := 1) (n := 2) (isLocal_nextValue scope) fun right => ?_
    exact IsLocal.bind (m := 2) (n := 0) Block.isLocal_extract fun _ =>
      isLocal_ofExcept _
  · exact isLocal_fail 4 _

/-- The parameters of a command end before a brace, and nothing behind it counts. -/
theorem splitParameters_local {head : Token} {rest following : List Token} {names : List String}
    (h : splitParameters scope head rest = .ok (names, following)) :
    ∃ stretch opening behind, rest = stretch ++ following ∧ following = opening :: behind ∧
      opening.isSymbol "\x7b" ∧
      ∀ others, splitParameters scope head (stretch ++ opening :: others) =
        .ok (names, opening :: others) := by
  induction rest generalizing names following with
  | nil => cases h
  | cons token rest ih =>
    by_cases hOpen : token.isSymbol "\x7b"
    · rw [splitParameters, if_pos hOpen] at h
      cases h
      refine ⟨[], token, rest, rfl, rfl, hOpen, fun others => ?_⟩
      rw [List.nil_append, splitParameters, if_pos hOpen]
    · rw [splitParameters, if_neg hOpen] at h
      by_cases hWord : token.kind ≠ .word
      · rw [if_pos hWord] at h
        cases h
      · rw [if_neg hWord] at h
        by_cases hTaken : scope.contains token.text
        · rw [if_pos hTaken] at h
          cases h
        · rw [if_neg hTaken] at h
          cases hSplit : splitParameters scope head rest with
          | error diagnostic => simp [hSplit] at h
          | ok pair =>
            obtain ⟨others, behind⟩ := pair
            simp only [hSplit, Except.ok.injEq, Prod.mk.injEq] at h
            obtain ⟨rfl, rfl⟩ := h
            obtain ⟨stretch, opening, beyond, hRest, hBehind, hBrace, hLocal⟩ := ih hSplit
            refine ⟨token :: stretch, opening, beyond, by rw [hRest, List.cons_append], hBehind,
              hBrace, fun others => ?_⟩
            rw [List.cons_append, splitParameters, if_neg hOpen, if_neg hWord, if_neg hTaken,
              hLocal]

theorem isLocal_signature (head : Token) : IsLocal 2 (signature scope head) := by
  intro last rest value following hRead
  unfold signature at hRead
  split at hRead
  next names between hSplit =>
    obtain ⟨stretch, opening, behind, hRest, hBetween, -, hLocal⟩ :=
      splitParameters_local scope hSplit
    subst hRest hBetween
    obtain ⟨body, beyond, hBody, hPair⟩ := Reader.bind_eq_ok_iff.mp hRead
    cases hPair
    obtain ⟨block, hCount, hBlock, hTakes⟩ := Block.isLocal_extract last _ body _ hBody
    -- the block is not empty, so that its first token is the brace that ends the parameters
    obtain ⟨first, inner, rfl⟩ : ∃ first inner, block = first :: inner := by
      cases block with
      | nil => simp at hCount
      | cons first inner => exact ⟨first, inner, rfl⟩
    obtain ⟨rfl, -⟩ : opening = first ∧ behind = inner ++ following := by simpa using hBlock
    refine ⟨stretch ++ opening :: inner, ?_, by simp [hBlock], fun last rest => ?_⟩
    · simp only [List.length_append, List.length_cons] at hCount ⊢
      omega
    · have hNames := hLocal (inner ++ rest)
      have hTakes := hTakes last rest
      rw [List.cons_append] at hTakes
      rw [List.append_assoc, List.cons_append, signature, hNames]
      exact Reader.bind_eq_ok_iff.mpr ⟨body, rest, hTakes, rfl⟩
  next => cases hRead

theorem isLocal_ofDefinition (head : Token) : IsLocal 3 (ofDefinition scope head) := by
  refine Construct.definition.isLocal_require head (Nat.le_refl 3) ?_
  refine IsLocal.bind (m := 1) (n := 2) isLocal_next fun name => ?_
  split
  · exact isLocal_fail 2 _
  · split
    · exact isLocal_fail 2 _
    · split
      · exact isLocal_fail 2 _
      · exact IsLocal.bind (m := 2) (n := 0) (isLocal_signature scope head) fun _ =>
          isLocal_pure _

theorem isLocal_arguments (names : List String) :
    IsLocal names.length (arguments scope names) := by
  induction names with
  | nil => exact isLocal_pure _
  | cons name others ih =>
    rw [List.length_cons, Nat.add_comm]
    refine IsLocal.bind (isLocal_nextValue scope) fun number => ?_
    exact IsLocal.bind (n := 0) ih fun bindings => isLocal_pure _

/-- A request for arguments that succeeds takes no tokens. -/
theorem eq_of_requireArguments {command : Command} {head : Token} {last : Option Token}
    {rest between : List Token} (h : requireArguments command head last rest = .ok ((), between)) :
    between = rest := by
  simp only [requireArguments] at h
  split at h
  · cases h
  · cases h
    rfl

/-- The request for arguments changes nothing where enough tokens are taken. -/
theorem takes_requireArguments {α : Type} {reader : Reader α} {stretch : List Token} {value : α}
    {command : Command} (head : Token) (hEnough : command.parameters.length ≤ stretch.length)
    (h : Takes reader stretch value) :
    Takes (requireArguments command head >>= fun _ => reader) stretch value := by
  intro last rest
  have hNotFewer : Token.fewerThan command.parameters.length (stretch ++ rest) = false := by
    rw [Bool.eq_false_iff, ne_eq, Token.fewerThan_iff, List.length_append]
    omega
  have hRequire : requireArguments command head last (stretch ++ rest) =
      .ok ((), stretch ++ rest) := by
    simp only [requireArguments, hNotFewer]
    rfl
  rw [Reader.bind_apply_of_ok _ hRequire]
  exact h last rest

theorem isLocal_ofCall (command : Command) (head : Token) :
    IsLocal command.parameters.length (ofCall scope command head) := by
  intro last rest value following hRead
  obtain ⟨_, between, hRequire, hBehind⟩ := Reader.bind_eq_ok_iff.mp hRead
  rw [eq_of_requireArguments hRequire] at hBehind
  have hArguments : IsLocal command.parameters.length (arguments scope command.parameters >>=
      fun bindings => Reader.ofExcept (callWith scope command bindings)) :=
    IsLocal.bind (n := 0) (isLocal_arguments scope command.parameters) fun _ =>
      isLocal_ofExcept _
  obtain ⟨stretch, hCount, hRest, hTakes⟩ := hArguments last rest value following hBehind
  exact ⟨stretch, hCount, hRest, takes_requireArguments head hCount hTakes⟩

theorem isLocal_ofKeyword (keyword : Keyword) (head : Token) :
    IsLocal 1 (ofKeyword scope keyword head) := by
  cases keyword with
  | paper => exact isLocal_ofColour scope .paper (Nat.le_refl 1) .background head
  | pen => exact isLocal_ofColour scope .pen (Nat.le_refl 1) .foreground head
  | line => exact (isLocal_ofLine scope head).mono (by omega)
  | assign => exact (isLocal_ofAssignment scope head).mono (by omega)
  | loop => exact (isLocal_ofLoop scope head).mono (by omega)
  | define => exact (isLocal_ofDefinition scope head).mono (by omega)
  | check comparison => exact (isLocal_ofCheck scope comparison head).mono (by omega)

/-- A statement takes its own tokens and no others. -/
theorem isLocal_ofStatement (head : Token) : IsLocal 0 (ofStatement scope head) := by
  unfold ofStatement
  split
  · exact isLocal_fail 0 _
  · split
    · exact (isLocal_ofKeyword scope _ head).mono (by omega)
    · split
      · exact isLocal_fail 0 _
      · exact isLocal_fail 0 _
      · exact (isLocal_ofCall scope _ head).mono (by omega)

end DesignByNumbers.Instruction
