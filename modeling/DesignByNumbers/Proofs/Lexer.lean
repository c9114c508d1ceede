import DesignByNumbers.Proofs.Content
import DesignByNumbers.Proofs.Numeral
import DesignByNumbers.Token.Lexer

/-!
# Proofs.Lexer — the tokens of texts that are put together

Lines are read on their own, so that the tokens of a text follow those of the text above it,
as many lines further down. Within a line a run of word characters is one lexeme.

* `ofSource_newline` — the tokens of two texts, one below the other.
* `lexemes_run` — a run of word characters at the start of a text.
-/

namespace DesignByNumbers

/-- The place a number of lines further down. -/
def Location.below (lines : Nat) (location : Location) : Location :=
  { location with line := location.line + lines }

namespace Token

/-- The token a number of lines further down. -/
def below (lines : Nat) (token : Token) : Token :=
  { token with location := token.location.below lines }

/-! ## Lines -/

/-- The lines of two texts, one below the other. -/
theorem linesOf_newline (above source : String) :
    linesOf (above ++ "\n" ++ source) = linesOf above ++ linesOf source := by
  have hText : (above ++ "\n" ++ source).toList = above.toList ++ '\n' :: source.toList := by
    rw [String.toList_append, String.toList_append, List.append_assoc]
    rfl
  rw [linesOf, hText]
  exact List.splitOnP_append_cons above.toList source.toList (by decide)

theorem ofLine_add (line lines : Nat) (characters : List Char) :
    ofLine (line + lines) characters = (ofLine line characters).map (below lines) := by
  rw [ofLine, ofLine, List.map_map]
  rfl

theorem ofLines_add (line lines : Nat) (texts : List (List Char)) :
    ofLines (line + lines) texts = (ofLines line texts).map (below lines) := by
  induction texts generalizing line with
  | nil => rfl
  | cons characters rest ih =>
    have hNext : line + lines + 1 = line + 1 + lines := by omega
    rw [ofLines, ofLines, List.map_append, ofLine_add, hNext, ih]

theorem ofLines_append (line : Nat) (texts texts' : List (List Char)) :
    ofLines line (texts ++ texts') = ofLines line texts ++ ofLines (line + texts.length) texts' := by
  induction texts generalizing line with
  | nil => rfl
  | cons characters rest ih =>
    have hNext : line + 1 + rest.length = line + (characters :: rest).length := by
      rw [List.length_cons]
      omega
    rw [List.cons_append, ofLines, ofLines, ih, List.append_assoc, hNext]

/-- The tokens of two texts, one below the other. -/
theorem ofSource_newline (above source : String) :
    ofSource (above ++ "\n" ++ source) =
      ofSource above ++ (ofSource source).map (below (linesOf above).length) := by
  rw [ofSource, linesOf_newline, ofLines_append, ofLines_add]
  rfl

/-! ## Runs of word characters -/

theorem toNat_of_isWordCharacter {c : Char} (h : isWordCharacter c = true) :
    48 ≤ c.toNat ∧ c.toNat ≤ 122 := by
  have hRanges : (decide (c.val ≥ 'A'.val ∧ c.val ≤ 'Z'.val) ||
      (decide (c.val ≥ 'a'.val) && decide (c.val ≤ 'z'.val)) ||
      (decide (c.val ≥ '0'.val) && decide (c.val ≤ '9'.val)) || decide (c = '_')) = true := h
  simp only [Bool.or_eq_true, Bool.and_eq_true, decide_eq_true_eq] at hRanges
  replace hRanges : (((65 ≤ c.toNat ∧ c.toNat ≤ 90) ∨ 97 ≤ c.toNat ∧ c.toNat ≤ 122) ∨
    48 ≤ c.toNat ∧ c.toNat ≤ 57) ∨ c = '_' := hRanges
  rcases hRanges with ((hUpper | hLower) | hDigit) | rfl
  · omega
  · omega
  · omega
  · decide

theorem isBlank_of_isWordCharacter {c : Char} (h : isWordCharacter c = true) :
    Text.isBlank c = false := by
  have hCode := toNat_of_isWordCharacter h
  rw [Bool.eq_false_iff]
  intro hBlank
  simp only [Text.isBlank, Bool.or_eq_true, Bool.and_eq_true, decide_eq_true_eq,
    beq_iff_eq] at hBlank
  omega

/-- A run of word characters is one lexeme, whatever separates it from what follows. -/
theorem lexemes_run {run rest : List Char} (hRun : run ≠ [])
    (hWord : ∀ c ∈ run, isWordCharacter c = true) (hRest : startsWithWordCharacter rest = false)
    (column : Nat) :
    lexemes column (run ++ rest) = ⟨column, run⟩ :: lexemes (column + run.length) rest := by
  induction run generalizing column with
  | nil => exact absurd rfl hRun
  | cons c run ih =>
    obtain ⟨hHead, hTail⟩ := List.forall_mem_cons.mp hWord
    have hBlank := isBlank_of_isWordCharacter hHead
    rw [List.cons_append, lexemes]
    simp only [hBlank, hHead, Bool.false_eq_true, if_false, if_true]
    -- the last character of the run starts the lexeme, and the others join it
    cases run with
    | nil =>
      rw [List.nil_append, hRest]
      cases lexemes (column + 1) rest <;> rfl
    | cons c' run =>
      have hNext : startsWithWordCharacter (c' :: run ++ rest) = true :=
        hTail c' (List.mem_cons_self ..)
      have hLength : column + 1 + (c' :: run).length = column + (c :: c' :: run).length := by
        simp only [List.length_cons]
        omega
      rw [ih (by simp) hTail, hNext, hLength]
      rfl

/-- A text without slashes has no comment. -/
theorem beforeComment_eq_self {characters : List Char} (h : ∀ c ∈ characters, c ≠ '/') :
    beforeComment characters = characters := by
  fun_induction beforeComment characters with
  | case1 => rfl
  | case2 => exact absurd rfl (h '/' (List.mem_cons_self ..))
  | case3 c rest _ ih => rw [ih fun d hd => h d (List.mem_cons_of_mem c hd)]

/-- A text of digits is one number. -/
theorem content_ofSource_digits {digits : List Char} (h : Numeral.isDigits digits = true) :
    (ofSource (String.ofList digits)).map content = [.number (String.ofList digits)] := by
  have hDigit : ∀ c ∈ digits, c.isDigit = true := fun c hc => Numeral.digit_of_isDigits h hc
  have hNe : digits ≠ [] := by
    rintro rfl
    simp [Numeral.isDigits] at h
  have hLine : ∀ c ∈ digits, (c == '\n') = false := by
    intro c hc
    rw [beq_eq_false_iff_ne]
    rintro rfl
    exact absurd (hDigit '\n' hc) (by decide)
  have hSlash : ∀ c ∈ digits, c ≠ '/' := by
    rintro c hc rfl
    exact absurd (hDigit '/' hc) (by decide)
  have hWord : ∀ c ∈ digits, isWordCharacter c = true := by
    intro c hc
    simp [isWordCharacter, Char.isAlphanum, hDigit c hc]
  have hLines : linesOf (String.ofList digits) = [digits] := by
    rw [linesOf, String.toList_ofList]
    exact List.splitOnP_eq_singleton hLine
  have hLexemes : lexemes 0 digits = [⟨0, digits⟩] := by
    have hEnd : startsWithWordCharacter [] = false := rfl
    have hRun := lexemes_run hNe hWord hEnd 0
    rwa [List.append_nil] at hRun
  rw [ofSource, hLines, ofLines, ofLines, List.append_nil, ofLine, beforeComment_eq_self hSlash,
    hLexemes]
  simp [content, Lexeme.kind, h]

end Token

end DesignByNumbers
