import Mathlib.Order.Nat
import DesignByNumbers.Proofs.Lexer

/-!
# Proofs.Lexer.Unit — the lexical units of a line

The units of a line are told by their positions: up to the first pair of slashes, they are the
maximal runs of word characters and all other characters that are not blank. The scan of a line
takes off a blank, a symbol or a whole run at a time.

* `isCodeAt_iff` — the comment of a line starts at its first pair of slashes.
* `IsUnitOf.unique` — units that share a position are the same.
* `Scans.isUnitOf`, `Scans.exists_mem`, `Scans.pairwise` — what a scan finds are units, it skips
  blanks only, and it goes from left to right.
* `isUnitOf_iff` — the lexemes of a line are its units.
-/

namespace DesignByNumbers.Token

variable {line text : List Char} {column p start stop : Nat} {kind : Kind} {c : Char}

/-! ## Positions of a line -/

/-- Two slashes stand at a position. -/
def IsCommentAt (text : List Char) (p : Nat) : Prop :=
  text[p]? = some '/' ∧ text[p + 1]? = some '/'

/-- A character stands at a position, and no comment starts there or before. -/
def IsCodeAt (text : List Char) (p : Nat) (c : Char) : Prop :=
  text[p]? = some c ∧ ∀ q ≤ p, ¬ IsCommentAt text q

/-- A word character stands at a position, before the comment. -/
def IsWordAt (line : List Char) (p : Nat) : Prop :=
  ∃ c, IsCodeAt line p c ∧ isWordCharacter c = true

/-- Word characters stand from one position up to another, and no further ones on either side. -/
structure IsMaximalRun (line : List Char) (start stop : Nat) : Prop where
  nonempty : start < stop
  word : ∀ p, start ≤ p → p < stop → IsWordAt line p
  left : ∀ p, p + 1 = start → ¬ IsWordAt line p
  right : ¬ IsWordAt line stop

/-- The lexical units of a line: where they start, what stands there, and their kind. -/
inductive IsUnitOf (line : List Char) : Nat → List Char → Kind → Prop
  /-- A maximal run of word characters, which is a number if all of them are digits. -/
  | run {start stop : Nat} {text : List Char} (hRun : IsMaximalRun line start stop)
      (hText : text = (line.drop start).take (stop - start)) :
      IsUnitOf line start text (if text.all Char.isDigit then .number else .word)
  /-- Every other character that is not blank. -/
  | symbol {p : Nat} {c : Char} (hCode : IsCodeAt line p c) (hBlank : Text.isBlank c = false)
      (hWord : isWordCharacter c = false) : IsUnitOf line p [c] .symbol

/-- The comment of a line starts at its first pair of slashes. -/
theorem isCodeAt_iff : IsCodeAt line p c ↔ (beforeComment line)[p]? = some c := by
  fun_induction beforeComment line generalizing p with
  | case1 => simp [IsCodeAt]
  | case2 rest =>
    -- a comment that starts here leaves no code at any position
    have hComment : IsCommentAt ('/' :: '/' :: rest) 0 := ⟨rfl, rfl⟩
    constructor
    · rintro ⟨-, hNone⟩
      exact absurd hComment (hNone 0 (Nat.zero_le p))
    · intro hChar
      simp at hChar
  | case3 d rest hNot ih =>
    -- no comment starts here, so that the later positions are those of the rest, one further on
    have hHead : ¬ IsCommentAt (d :: rest) 0 := by
      rintro ⟨hFirst, hSecond⟩
      cases rest with
      | nil => simp at hSecond
      | cons e rest =>
        simp only [List.getElem?_cons_zero, List.getElem?_cons_succ, Option.some.injEq]
          at hFirst hSecond
        exact hNot rest hFirst (by rw [hSecond])
    cases p with
    | zero =>
      rw [List.getElem?_cons_zero]
      constructor
      · exact fun h => h.1
      · intro hChar
        refine ⟨hChar, fun q hq => ?_⟩
        rwa [Nat.le_zero.mp hq]
    | succ p =>
      rw [List.getElem?_cons_succ, ← ih]
      constructor
      · rintro ⟨hChar, hNone⟩
        exact ⟨hChar, fun q hq => hNone (q + 1) (Nat.succ_le_succ hq)⟩
      · rintro ⟨hChar, hNone⟩
        refine ⟨hChar, fun q hq => ?_⟩
        cases q with
        | zero => exact hHead
        | succ q => exact hNone q (Nat.le_of_succ_le_succ hq)

theorem isWordAt_iff :
    IsWordAt line p ↔ ∃ c, (beforeComment line)[p]? = some c ∧ isWordCharacter c = true := by
  simp only [IsWordAt, isCodeAt_iff]

/-! ## Units -/

/-- A maximal run contains every run that it meets. -/
theorem IsMaximalRun.contains {start' stop' : Nat} (h : IsMaximalRun line start stop)
    (h' : IsMaximalRun line start' stop') (hMeets : start ≤ p ∧ p < stop)
    (hMeets' : start' ≤ p ∧ p < stop') : start ≤ start' ∧ stop' ≤ stop := by
  constructor
  · -- else the other run has a character right before this one
    by_contra hLess
    exact h.left (start - 1) (by omega) (h'.word (start - 1) (by omega) (by omega))
  · -- else it has one right behind
    by_contra hMore
    exact h.right (h'.word stop (by omega) (by omega))

theorem IsMaximalRun.length_take_drop (h : IsMaximalRun line start stop) :
    ((line.drop start).take (stop - start)).length = stop - start := by
  obtain ⟨c, ⟨hChar, -⟩, -⟩ :=
    h.word (stop - 1) (Nat.le_sub_one_of_lt h.nonempty) (Nat.sub_one_lt_of_lt h.nonempty)
  have hLength : stop - 1 < line.length := (List.getElem?_eq_some_iff.mp hChar).1
  rw [List.length_take, List.length_drop]
  omega

theorem IsUnitOf.ne_nil (h : IsUnitOf line column text kind) : text ≠ [] := by
  cases h with
  | run hRun hText =>
    rw [← List.length_pos_iff, hText, hRun.length_take_drop]
    exact Nat.sub_pos_of_lt hRun.nonempty
  | symbol => exact List.cons_ne_nil _ _

/-- A unit stands in its line, from its column on. -/
theorem IsUnitOf.isPrefix (h : IsUnitOf line column text kind) : text <+: line.drop column := by
  cases h with
  | run hRun hText =>
    rw [hText]
    exact List.take_prefix _ _
  | symbol hCode =>
    obtain ⟨hLength, hChar⟩ := List.getElem?_eq_some_iff.mp hCode.1
    rw [List.drop_eq_getElem_cons hLength, hChar]
    exact ⟨_, rfl⟩

/-- All of a unit stands before the comment, and none of it is blank. -/
theorem IsUnitOf.isCodeAt (h : IsUnitOf line column text kind) (hStart : column ≤ p)
    (hStop : p < column + text.length) : ∃ c, IsCodeAt line p c ∧ Text.isBlank c = false := by
  cases h with
  | run hRun hText =>
    rw [hText, hRun.length_take_drop] at hStop
    obtain ⟨c, hCode, hWord⟩ := hRun.word p hStart (by omega)
    exact ⟨c, hCode, isBlank_of_isWordCharacter hWord⟩
  | symbol hCode hBlank =>
    rw [List.length_singleton] at hStop
    obtain rfl : p = column := by omega
    exact ⟨_, hCode, hBlank⟩

theorem IsUnitOf.le_of_isCommentAt (h : IsUnitOf line column text kind)
    (hComment : IsCommentAt line p) : column + text.length ≤ p := by
  by_contra hLess
  have hLength := List.length_pos_iff.mpr h.ne_nil
  -- the last character of the unit stands at the comment or behind it
  obtain ⟨c, ⟨-, hNone⟩, -⟩ :=
    h.isCodeAt (p := column + text.length - 1) (by omega) (by omega)
  exact hNone p (by omega) hComment

theorem not_isWordAt (hCode : IsCodeAt line p c) (hWord : isWordCharacter c = false) :
    ¬ IsWordAt line p := by
  rintro ⟨d, ⟨hChar, -⟩, hWordChar⟩
  rw [hCode.1, Option.some.injEq] at hChar
  rw [← hChar, hWord] at hWordChar
  cases hWordChar

/-- Two units of a line that share a position are the same. -/
theorem IsUnitOf.unique {column' : Nat} {text' : List Char} {kind' : Kind}
    (h : IsUnitOf line column text kind) (h' : IsUnitOf line column' text' kind')
    (hSpan : column ≤ p ∧ p < column + text.length)
    (hSpan' : column' ≤ p ∧ p < column' + text'.length) :
    column = column' ∧ text = text' ∧ kind = kind' := by
  cases h with
  | run hRun hText =>
    subst hText
    rw [hRun.length_take_drop, Nat.add_sub_cancel' hRun.nonempty.le] at hSpan
    cases h' with
    | run hRun' hText' =>
      subst hText'
      rw [hRun'.length_take_drop, Nat.add_sub_cancel' hRun'.nonempty.le] at hSpan'
      obtain ⟨hStart, hStop'⟩ := hRun.contains hRun' hSpan hSpan'
      obtain ⟨hStart', hStop⟩ := hRun'.contains hRun hSpan' hSpan
      obtain rfl := Nat.le_antisymm hStart hStart'
      obtain rfl := Nat.le_antisymm hStop hStop'
      exact ⟨rfl, rfl, rfl⟩
    | symbol hCode' _ hWord' =>
      -- what is no word character lies in no run
      obtain rfl : p = column' := by
        rw [List.length_singleton] at hSpan'
        omega
      exact absurd (hRun.word p hSpan.1 hSpan.2) (not_isWordAt hCode' hWord')
  | symbol hCode _ hWord =>
    obtain rfl : p = column := by
      rw [List.length_singleton] at hSpan
      omega
    cases h' with
    | run hRun' hText' =>
      subst hText'
      rw [hRun'.length_take_drop, Nat.add_sub_cancel' hRun'.nonempty.le] at hSpan'
      exact absurd (hRun'.word p hSpan'.1 hSpan'.2) (not_isWordAt hCode hWord)
    | symbol hCode' _ _ =>
      obtain rfl : p = column' := by
        rw [List.length_singleton] at hSpan'
        omega
      obtain rfl := Option.some.inj (hCode.1.symm.trans hCode'.1)
      exact ⟨rfl, rfl, rfl⟩

/-! ## The scan of a line -/

/-- A text from a column on falls into these lexemes: a blank, a symbol or a run of word
characters is taken off at a time, and a run is taken off whole. -/
inductive Scans : Nat → List Char → List Lexeme → Prop
  | done (column : Nat) : Scans column [] []
  | blank {column : Nat} {c : Char} {rest : List Char} {found : List Lexeme}
      (hBlank : Text.isBlank c = true) (hRest : Scans (column + 1) rest found) :
      Scans column (c :: rest) found
  | symbol {column : Nat} {c : Char} {rest : List Char} {found : List Lexeme}
      (hBlank : Text.isBlank c = false) (hWord : isWordCharacter c = false)
      (hRest : Scans (column + 1) rest found) : Scans column (c :: rest) (⟨column, [c]⟩ :: found)
  | run {column : Nat} {run rest : List Char} {found : List Lexeme} (hRun : run ≠ [])
      (hWord : ∀ c ∈ run, isWordCharacter c = true) (hEnd : startsWithWordCharacter rest = false)
      (hRest : Scans (column + run.length) rest found) :
      Scans column (run ++ rest) (⟨column, run⟩ :: found)

theorem isWordCharacter_of_isBlank (hBlank : Text.isBlank c = true) :
    isWordCharacter c = false := by
  rw [Bool.eq_false_iff]
  intro hWord
  rw [isBlank_of_isWordCharacter hWord] at hBlank
  cases hBlank

/-- A word character in front of a run joins it, and is a run of its own in front of all else. -/
theorem Scans.prepend {rest : List Char} {found : List Lexeme} (hWord : isWordCharacter c = true)
    (hRest : Scans (column + 1) rest found) :
    Scans column (c :: rest)
      (prependWordCharacter column c (startsWithWordCharacter rest) found) := by
  have hAlone : startsWithWordCharacter rest = false →
      Scans column ([c] ++ rest) (⟨column, [c]⟩ :: found) := fun hEnd =>
    .run (List.cons_ne_nil c []) (List.forall_mem_singleton.mpr hWord) hEnd hRest
  cases hRest with
  -- the run ends before a blank, a symbol and the end of the text, and it goes on otherwise
  | done => exact hAlone rfl
  | blank hBlank =>
    have hEnd := isWordCharacter_of_isBlank hBlank
    rw [startsWithWordCharacter, hEnd]
    cases found <;> exact hAlone hEnd
  | symbol _ hEnd =>
    rw [startsWithWordCharacter, hEnd]
    exact hAlone hEnd
  | @run _ run rest _ hRun hRunWord hEnd hRest =>
    have hJoins : startsWithWordCharacter (run ++ rest) = true := by
      cases run with
      | nil => exact absurd rfl hRun
      | cons d run => exact hRunWord d (List.mem_cons_self ..)
    rw [hJoins, prependWordCharacter, if_pos rfl]
    rw [Nat.add_right_comm] at hRest
    exact .run (List.cons_ne_nil c run) (List.forall_mem_cons.mpr ⟨hWord, hRunWord⟩) hEnd hRest

theorem scans_lexemes (column : Nat) (text : List Char) :
    Scans column text (lexemes column text) := by
  induction text generalizing column with
  | nil => exact .done column
  | cons c rest ih =>
    rw [lexemes]
    split
    next hBlank => exact .blank hBlank (ih (column + 1))
    next hBlank =>
      rw [Bool.not_eq_true] at hBlank
      split
      next hWord => exact .prepend hWord (ih (column + 1))
      next hWord => exact .symbol hBlank (Bool.not_eq_true _ ▸ hWord) (ih (column + 1))

/-- No run of word characters goes on from one text into the next. -/
def Separate (before rest : List Char) : Prop :=
  ∀ c ∈ before.getLast?, isWordCharacter c = true → startsWithWordCharacter rest = false

theorem separate_concat {before rest : List Char} (hWord : isWordCharacter c = false) :
    Separate (before ++ [c]) rest := by
  intro d hLast hWordChar
  rw [List.getLast?_concat, Option.mem_some_iff] at hLast
  rw [← hLast, hWord] at hWordChar
  cases hWordChar

theorem beforeComment_isPrefix (line : List Char) : beforeComment line <+: line := by
  fun_induction beforeComment line with
  | case1 => exact List.prefix_rfl
  | case2 => exact List.nil_prefix
  | case3 c rest _ ih => exact (List.prefix_cons_inj c).mpr ih

theorem kind_symbol (hWord : isWordCharacter c = false) :
    Lexeme.kind ⟨column, [c]⟩ = .symbol := by
  have hDigit : c.isDigit = false := by
    rw [Bool.eq_false_iff]
    intro hDigit
    simp [isWordCharacter, Char.isAlphanum, hDigit] at hWord
  simp [Lexeme.kind, Numeral.isDigits, hDigit, hWord]

theorem kind_run {run : List Char} (hRun : run ≠ [])
    (hWord : ∀ c ∈ run, isWordCharacter c = true) :
    Lexeme.kind ⟨column, run⟩ = if run.all Char.isDigit then .number else .word := by
  have hAll : run.all isWordCharacter = true := List.all_eq_true.mpr hWord
  have hSome : run.isEmpty = false := List.isEmpty_eq_false_iff.mpr hRun
  simp only [Lexeme.kind, Numeral.isDigits, hAll, hSome, Bool.not_false, Bool.true_and, if_true]

/-- A run between texts that do not continue it is maximal. -/
theorem isMaximalRun_of_append {before run rest : List Char}
    (hLine : beforeComment line = before ++ (run ++ rest)) (hBefore : Separate before (run ++ rest))
    (hRun : run ≠ []) (hWord : ∀ c ∈ run, isWordCharacter c = true)
    (hEnd : startsWithWordCharacter rest = false) :
    IsMaximalRun line before.length (before.length + run.length) := by
  refine ⟨Nat.lt_add_of_pos_right (List.length_pos_iff.mpr hRun), ?_, ?_, ?_⟩
  · -- the positions of the run itself
    intro p hStart hStop
    have hLength : p - before.length < run.length := by omega
    rw [isWordAt_iff, hLine, List.getElem?_append_right hStart, List.getElem?_append_left hLength,
      List.getElem?_eq_getElem hLength]
    exact ⟨_, rfl, hWord _ (List.getElem_mem hLength)⟩
  · -- the position before it, which holds the last character of `before`
    intro p hLast
    rw [isWordAt_iff, hLine, List.getElem?_append_left (by omega)]
    rintro ⟨c, hChar, hWordChar⟩
    have hGetLast : before.getLast? = some c := by
      rw [List.getLast?_eq_getElem?, ← hLast]
      exact hChar
    have hStarts := hBefore c hGetLast hWordChar
    cases run with
    | nil => exact hRun rfl
    | cons d run =>
      rw [List.cons_append, startsWithWordCharacter, hWord d (List.mem_cons_self ..)] at hStarts
      cases hStarts
  · -- the position behind it, which holds the first character of `rest`
    rw [isWordAt_iff, hLine, List.getElem?_append_right (Nat.le_add_right _ _),
      Nat.add_sub_cancel_left, List.getElem?_append_right le_rfl, Nat.sub_self]
    rintro ⟨c, hChar, hWordChar⟩
    cases rest with
    | nil => cases hChar
    | cons d rest =>
      rw [List.getElem?_cons_zero, Option.some.injEq] at hChar
      rw [startsWithWordCharacter, hChar, hWordChar] at hEnd
      cases hEnd

/-- What is found in a scan from a place on where no run is cut are units of the line. -/
theorem Scans.isUnitOf {before rest : List Char} {found : List Lexeme}
    (h : Scans column rest found) (hLine : beforeComment line = before ++ rest)
    (hColumn : before.length = column) (hBefore : Separate before rest) :
    ∀ lexeme ∈ found, IsUnitOf line lexeme.column lexeme.characters lexeme.kind := by
  -- on the scan; `before` grows by what is taken off, and no run ever crosses its end
  induction h generalizing before with
  | done => exact fun _ hLexeme => absurd hLexeme List.not_mem_nil
  | @blank column c rest found hBlank _ ih =>
    have hNext : beforeComment line = before ++ [c] ++ rest := by rw [hLine, List.append_cons]
    refine ih hNext ?_ (separate_concat (isWordCharacter_of_isBlank hBlank))
    rw [List.length_append, hColumn, List.length_singleton]
  | @symbol column c rest found hBlank hWord _ ih =>
    have hCode : IsCodeAt line column c := by
      rw [isCodeAt_iff, hLine, ← hColumn, List.getElem?_append_right le_rfl, Nat.sub_self]
      rfl
    have hUnit : IsUnitOf line column [c] (Lexeme.kind ⟨column, [c]⟩) := by
      rw [kind_symbol hWord]
      exact .symbol hCode hBlank hWord
    have hNext : beforeComment line = before ++ [c] ++ rest := by rw [hLine, List.append_cons]
    refine List.forall_mem_cons.mpr ⟨hUnit, ih hNext ?_ (separate_concat hWord)⟩
    rw [List.length_append, hColumn, List.length_singleton]
  | @run column run rest found hRun hWord hEnd _ ih =>
    have hUnit : IsUnitOf line column run (Lexeme.kind ⟨column, run⟩) := by
      have hMaximal := isMaximalRun_of_append hLine hBefore hRun hWord hEnd
      obtain ⟨comment, hComment⟩ := beforeComment_isPrefix line
      rw [hColumn] at hMaximal
      rw [kind_run hRun hWord]
      refine .run hMaximal ?_
      -- the text of the run stands in the line as it does before the comment
      rw [← hComment, hLine, List.append_assoc, List.append_assoc, ← hColumn, List.drop_left,
        Nat.add_sub_cancel_left, List.take_left]
    have hNext : beforeComment line = before ++ run ++ rest := by rw [hLine, List.append_assoc]
    refine List.forall_mem_cons.mpr ⟨hUnit, ih hNext ?_ fun _ _ _ => hEnd⟩
    rw [List.length_append, hColumn]

/-- A scan reads every character that is not blank. -/
theorem Scans.exists_mem {rest : List Char} {found : List Lexeme} (h : Scans column rest found)
    (hChar : rest[p]? = some c) (hBlank : Text.isBlank c = false) :
    ∃ lexeme ∈ found, lexeme.column ≤ column + p ∧
      column + p < lexeme.column + lexeme.characters.length := by
  induction h generalizing p with
  | done => cases hChar
  | blank hBlank' _ ih =>
    cases p with
    | zero =>
      rw [List.getElem?_cons_zero, Option.some.injEq] at hChar
      rw [hChar, hBlank] at hBlank'
      cases hBlank'
    | succ p =>
      obtain ⟨lexeme, hLexeme, hSpan⟩ := ih hChar
      exact ⟨lexeme, hLexeme, by omega⟩
  | @symbol column d rest found _ _ _ ih =>
    cases p with
    | zero => exact ⟨⟨column, [d]⟩, List.mem_cons_self .., le_rfl, Nat.lt_succ_self column⟩
    | succ p =>
      obtain ⟨lexeme, hLexeme, hSpan⟩ := ih hChar
      exact ⟨lexeme, List.mem_cons_of_mem _ hLexeme, by omega⟩
  | @run column run rest found _ _ _ _ ih =>
    rcases Nat.lt_or_ge p run.length with hInside | hBehind
    · exact ⟨⟨column, run⟩, List.mem_cons_self .., Nat.le_add_right _ _,
        Nat.add_lt_add_left hInside column⟩
    · rw [List.getElem?_append_right hBehind] at hChar
      obtain ⟨lexeme, hLexeme, hSpan⟩ := ih hChar
      exact ⟨lexeme, List.mem_cons_of_mem _ hLexeme, by omega⟩

theorem Scans.le_column {rest : List Char} {found : List Lexeme} (h : Scans column rest found) :
    ∀ lexeme ∈ found, column ≤ lexeme.column := by
  induction h with
  | done => exact fun _ hLexeme => absurd hLexeme List.not_mem_nil
  | blank _ _ ih => exact fun lexeme hLexeme => Nat.le_of_succ_le (ih lexeme hLexeme)
  | symbol _ _ _ ih =>
    exact List.forall_mem_cons.mpr
      ⟨le_rfl, fun lexeme hLexeme => Nat.le_of_succ_le (ih lexeme hLexeme)⟩
  | run _ _ _ _ ih =>
    exact List.forall_mem_cons.mpr
      ⟨le_rfl, fun lexeme hLexeme => Nat.le_of_add_right_le (ih lexeme hLexeme)⟩

/-- A scan goes from left to right, and starts nothing before the last lexeme has ended. -/
theorem Scans.pairwise {rest : List Char} {found : List Lexeme} (h : Scans column rest found) :
    found.Pairwise fun a b => a.column + a.characters.length ≤ b.column := by
  induction h with
  | done => exact .nil
  | blank _ _ ih => exact ih
  | symbol _ _ hRest ih => exact .cons hRest.le_column ih
  | run _ _ _ hRest ih => exact .cons hRest.le_column ih

/-- The lexemes of a line are its units. -/
theorem isUnitOf_iff : IsUnitOf line column text kind ↔
    ⟨column, text⟩ ∈ lexemes 0 (beforeComment line) ∧ kind = Lexeme.kind ⟨column, text⟩ := by
  have hScans := scans_lexemes 0 (beforeComment line)
  have hStart : Separate [] (beforeComment line) := by
    intro c hLast
    cases hLast
  have hUnits := hScans.isUnitOf (List.nil_append (beforeComment line)).symm rfl hStart
  constructor
  · intro h
    have hLength := List.length_pos_iff.mpr h.ne_nil
    -- the first character of the unit is read, and no other unit contains it
    obtain ⟨c, hCode, hBlank⟩ := h.isCodeAt le_rfl (Nat.lt_add_of_pos_right hLength)
    obtain ⟨lexeme, hLexeme, hSpan⟩ := hScans.exists_mem (isCodeAt_iff.mp hCode) hBlank
    rw [Nat.zero_add] at hSpan
    obtain ⟨rfl, rfl, hKind⟩ :=
      h.unique (hUnits lexeme hLexeme) ⟨le_rfl, Nat.lt_add_of_pos_right hLength⟩ hSpan
    exact ⟨hLexeme, hKind⟩
  · rintro ⟨hLexeme, rfl⟩
    exact hUnits _ hLexeme

/-- Every character that is neither blank nor part of a comment lies in a unit. -/
theorem exists_isUnitOf (hCode : IsCodeAt line p c) (hBlank : Text.isBlank c = false) :
    ∃ column text kind, IsUnitOf line column text kind ∧ column ≤ p ∧ p < column + text.length := by
  obtain ⟨lexeme, hLexeme, hSpan⟩ :=
    (scans_lexemes 0 (beforeComment line)).exists_mem (isCodeAt_iff.mp hCode) hBlank
  rw [Nat.zero_add] at hSpan
  exact ⟨lexeme.column, lexeme.characters, lexeme.kind, isUnitOf_iff.mpr ⟨hLexeme, rfl⟩, hSpan⟩

end DesignByNumbers.Token
