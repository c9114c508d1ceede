import Mathlib.Data.List.Pairwise
import Mathlib.Data.List.Sort
import DesignByNumbers.Proofs.Lexer.Unit

/-!
# Proofs.Lexer.Partition — the tokens of a text divide it

The tokens of a source text are the units of its lines. No character before a comment is lost
unless it is blank, and none is read twice.

* `mem_ofSource` — the tokens of a source text are the units of its lines.
* `pairwise_ofLines` — a token ends before the next one starts.
* `partitions_iff` — the tokens of a source text are the only ones that partition it.
-/

namespace DesignByNumbers.Token

variable {line : List Char} {source : String} {token a b : Token}

/-! ## The tokens of a text -/

/-- A token lies over a position of the line with an index. -/
def Spans (token : Token) (index p : Nat) : Prop :=
  token.location.line = index + 1 ∧ token.location.column ≤ p ∧
    p < token.location.column + token.text.length

/-- A token stands on an earlier line than another, or further left on the same line. -/
def Precedes (a b : Token) : Prop :=
  a.location.line < b.location.line ∨
    a.location.line = b.location.line ∧ a.location.column < b.location.column

/-- Two tokens share no position. -/
def Apart (a b : Token) : Prop :=
  ∀ index p, ¬ (a.Spans index p ∧ b.Spans index p)

/-- A token ends on an earlier line than another starts, or before it on the same line. -/
def EndsBefore (a b : Token) : Prop :=
  a.location.line < b.location.line ∨ a.location.line = b.location.line ∧
    a.location.column + a.text.length ≤ b.location.column

/-- A token is a unit of a line of a text and has that line as its context. -/
def IsTokenOf (source : String) (token : Token) : Prop :=
  ∃ (index column : Nat) (line : List Char), (linesOf source)[index]? = some line ∧
    token.location = ⟨index + 1, column, String.ofList line⟩ ∧
    IsUnitOf line column token.text.toList token.kind

/-- What it takes for tokens to partition a source text. -/
structure Partitions (source : String) (tokens : List Token) : Prop where
  /-- The context of a token is its line, and its text stands there from its column on and ends
  before the comment. -/
  located : ∀ token ∈ tokens, ∃ (index column : Nat) (line : List Char),
    (linesOf source)[index]? = some line ∧
    token.location = ⟨index + 1, column, String.ofList line⟩ ∧
    token.text.toList <+: line.drop column ∧
    ∀ p, IsCommentAt line p → column + token.text.length ≤ p
  /-- The tokens follow one another by line and column. -/
  ordered : tokens.Pairwise Precedes
  /-- No two of them share a position. -/
  disjoint : tokens.Pairwise Apart
  /-- What is neither blank nor part of a comment lies in exactly one token. -/
  covering : ∀ index line p c, (linesOf source)[index]? = some line → IsCodeAt line p c →
    Text.isBlank c = false → ∃! token, token ∈ tokens ∧ token.Spans index p
  /-- The tokens are the maximal runs of word characters and the other characters. -/
  lexical : ∀ token, token ∈ tokens ↔ IsTokenOf source token

theorem mem_ofLine {number : Nat} : token ∈ ofLine number line ↔
    ∃ column : Nat, token.location = ⟨number, column, String.ofList line⟩ ∧
      IsUnitOf line column token.text.toList token.kind := by
  rw [ofLine, List.mem_map]
  constructor
  · rintro ⟨lexeme, hLexeme, rfl⟩
    refine ⟨lexeme.column, rfl, isUnitOf_iff.mpr ?_⟩
    rw [String.toList_ofList]
    exact ⟨hLexeme, rfl⟩
  · rintro ⟨column, hLocation, hUnit⟩
    obtain ⟨hLexeme, hKind⟩ := isUnitOf_iff.mp hUnit
    refine ⟨_, hLexeme, ?_⟩
    rw [← hKind, String.ofList_toList, ← hLocation]

theorem mem_ofLines {first : Nat} {texts : List (List Char)} :
    token ∈ ofLines first texts ↔
      ∃ index line, texts[index]? = some line ∧ token ∈ ofLine (first + index) line := by
  induction texts generalizing first with
  | nil => simp [ofLines]
  | cons characters rest ih =>
    rw [ofLines, List.mem_append, ih]
    constructor
    · rintro (hHere | ⟨index, line, hLine, hToken⟩)
      · exact ⟨0, characters, rfl, hHere⟩
      · rw [Nat.add_right_comm, Nat.add_assoc] at hToken
        exact ⟨index + 1, line, hLine, hToken⟩
    · rintro ⟨index, line, hLine, hToken⟩
      cases index with
      | zero =>
        rw [List.getElem?_cons_zero, Option.some.injEq] at hLine
        rw [← hLine] at hToken
        exact .inl hToken
      | succ index =>
        rw [Nat.add_comm index, ← Nat.add_assoc] at hToken
        exact .inr ⟨index, line, hLine, hToken⟩

/-- The tokens of a source text are the units of its lines. -/
theorem mem_ofSource : token ∈ ofSource source ↔ IsTokenOf source token := by
  rw [ofSource, mem_ofLines]
  constructor
  · rintro ⟨index, line, hLine, hToken⟩
    obtain ⟨column, hLocation, hUnit⟩ := mem_ofLine.mp hToken
    rw [Nat.add_comm] at hLocation
    exact ⟨index, column, line, hLine, hLocation, hUnit⟩
  · rintro ⟨index, column, line, hLine, hLocation, hUnit⟩
    refine ⟨index, line, hLine, mem_ofLine.mpr ⟨column, ?_, hUnit⟩⟩
    rw [Nat.add_comm]
    exact hLocation

/-! ## Order -/

theorem pairwise_ofLine (number : Nat) (line : List Char) :
    (ofLine number line).Pairwise EndsBefore := by
  rw [ofLine, List.pairwise_map]
  refine (scans_lexemes 0 (beforeComment line)).pairwise.imp ?_
  intro a b hEnds
  refine .inr ⟨rfl, ?_⟩
  show (a.column : Int) + (String.ofList a.characters).length ≤ b.column
  rw [String.length_ofList]
  exact_mod_cast hEnds

theorem pairwise_ofLines (first : Nat) (texts : List (List Char)) :
    (ofLines first texts).Pairwise EndsBefore := by
  induction texts generalizing first with
  | nil => exact .nil
  | cons characters rest ih =>
    rw [ofLines, List.pairwise_append]
    refine ⟨pairwise_ofLine first characters, ih (first + 1), ?_⟩
    intro a ha b hb
    obtain ⟨_, hLocation, -⟩ := mem_ofLine.mp ha
    obtain ⟨index, _, -, hb⟩ := mem_ofLines.mp hb
    obtain ⟨_, hLocation', -⟩ := mem_ofLine.mp hb
    refine .inl ?_
    rw [hLocation, hLocation']
    show (first : Int) < ((first + 1 + index : Nat) : Int)
    omega

theorem length_text_pos (h : IsTokenOf source token) : 0 < token.text.length := by
  obtain ⟨_, _, _, _, _, hUnit⟩ := h
  rw [← String.length_toList]
  exact List.length_pos_iff.mpr hUnit.ne_nil

theorem precedes_of_endsBefore (hText : 0 < a.text.length) (h : EndsBefore a b) : Precedes a b := by
  rcases h with hAbove | ⟨hLine, hColumn⟩
  · exact .inl hAbove
  · exact .inr ⟨hLine, by omega⟩

theorem apart_of_endsBefore (h : EndsBefore a b) : Apart a b := by
  rintro index p ⟨⟨hLine, hStart, hStop⟩, hLine', hStart', hStop'⟩
  rcases h with hAbove | ⟨-, hColumn⟩ <;> omega

instance : Std.Symm Apart where
  symm _ _ h index p hBoth := h index p hBoth.symm

instance : Std.Irrefl Precedes where
  irrefl a := by
    rintro (hAbove | ⟨-, hLeft⟩)
    · exact lt_irrefl _ hAbove
    · exact lt_irrefl _ hLeft

instance : Std.Antisymm Precedes where
  antisymm a b h h' := by
    unfold Precedes at h h'
    omega

/-! ## The partition -/

/-- What is neither blank nor part of a comment lies in a token. -/
theorem exists_spans {index p : Nat} {c : Char} (hLine : (linesOf source)[index]? = some line)
    (hCode : IsCodeAt line p c) (hBlank : Text.isBlank c = false) :
    ∃ token ∈ ofSource source, token.Spans index p := by
  obtain ⟨column, text, kind, hUnit, hStart, hStop⟩ := exists_isUnitOf hCode hBlank
  refine ⟨⟨kind, String.ofList text, ⟨index + 1, column, String.ofList line⟩⟩, ?_, rfl, ?_, ?_⟩
  · refine mem_ofSource.mpr ⟨index, column, line, hLine, rfl, ?_⟩
    rwa [String.toList_ofList]
  · exact Int.ofNat_le.mpr hStart
  · show (p : Int) < column + (String.ofList text).length
    rw [String.length_ofList]
    exact_mod_cast hStop

theorem partitions_ofSource (source : String) : Partitions source (ofSource source) := by
  have hEnds : (ofSource source).Pairwise EndsBefore := pairwise_ofLines 1 (linesOf source)
  have hApart : (ofSource source).Pairwise Apart := hEnds.imp apart_of_endsBefore
  refine ⟨?located, ?ordered, hApart, ?covering, fun token => mem_ofSource⟩
  case located =>
    intro token hToken
    obtain ⟨index, column, line, hLine, hLocation, hUnit⟩ := mem_ofSource.mp hToken
    refine ⟨index, column, line, hLine, hLocation, hUnit.isPrefix, fun p hComment => ?_⟩
    rw [← String.length_toList]
    exact hUnit.le_of_isCommentAt hComment
  case ordered =>
    refine hEnds.imp_of_mem fun {a b} ha _ hEnd => ?_
    exact precedes_of_endsBefore (length_text_pos (mem_ofSource.mp ha)) hEnd
  case covering =>
    intro index line p c hLine hCode hBlank
    obtain ⟨token, hToken, hSpans⟩ := exists_spans hLine hCode hBlank
    refine ⟨token, ⟨hToken, hSpans⟩, fun other hOther => ?_⟩
    by_contra hNe
    exact hApart.forall hOther.1 hToken hNe index p ⟨hOther.2, hSpans⟩

/-- The tokens of a source text partition it, and no other tokens do. -/
theorem partitions_iff (source : String) (tokens : List Token) :
    Partitions source tokens ↔ tokens = ofSource source := by
  constructor
  · intro h
    refine List.Pairwise.eq_of_mem_iff h.ordered (partitions_ofSource source).ordered ?_
    intro token
    rw [h.lexical, mem_ofSource]
  · rintro rfl
    exact partitions_ofSource source

end DesignByNumbers.Token
