import DesignByNumbers.Proofs.Lexer.Partition

/-!
# Proofs.Lexer.Verification — the texts that pass verification

A lexeme gets its kind by one rule and is checked by another. They disagree on a run of word
characters that is no number and does not start with a letter, and on a character that the language
has no use for. A text is accepted if no line holds such a thing before its comment, and otherwise
the first one is reported.

* `verify_eq_error_iff` — verification reports the first token without the shape of its kind.
* `isOffence_iff` — the units of a line that do not have the shape of their kind.
* `verify_ofSource` — which texts pass, and what is reported of the others.
-/

namespace DesignByNumbers.Token

variable {line text : List Char} {column start stop : Nat} {kind : Kind} {source : String}

/-! ## Legible texts -/

/-- A character that may stand before a comment: a blank, a word character or a symbol of the
language. -/
def IsOfLanguage (c : Char) : Prop :=
  Text.isBlank c = true ∨ isWordCharacter c = true ∨ c ∈ "[\x7b\x7d]+-*/()?".toList

/-- A text of digits only, or one that starts with a letter. -/
def IsNumberOrWord (text : List Char) : Prop :=
  (∀ c ∈ text, c.isDigit = true) ∨ ∃ c ∈ text.head?, c.isAlpha = true

/-- Before its comment a line holds characters of the language only, and each of its maximal runs of
word characters is a number or starts with a letter. -/
structure IsLegibleLine (line : List Char) : Prop where
  characters : ∀ p c, IsCodeAt line p c → IsOfLanguage c
  runs : ∀ start stop, IsMaximalRun line start stop →
    IsNumberOrWord ((line.drop start).take (stop - start))

/-- All lines of a text are legible. -/
def IsLegible (source : String) : Prop :=
  ∀ line ∈ linesOf source, IsLegibleLine line

/-- What makes a line illegible: where it starts, what stands there, and what it is taken for. -/
inductive IsOffence (line : List Char) : Nat → List Char → Kind → Prop
  /-- A maximal run of word characters that is no number and does not start with a letter. -/
  | run {start stop : Nat} {text : List Char} (hRun : IsMaximalRun line start stop)
      (hText : text = (line.drop start).take (stop - start)) (hShape : ¬ IsNumberOrWord text) :
      IsOffence line start text .word
  /-- A character that is not of the language. -/
  | character {p : Nat} {c : Char} (hCode : IsCodeAt line p c) (hForeign : ¬ IsOfLanguage c) :
      IsOffence line p [c] .symbol

/-- An offence of a line of a text, the lines counted from zero. -/
def OffendsAt (source : String) (index column : Nat) (text : List Char) (kind : Kind) : Prop :=
  ∃ line, (linesOf source)[index]? = some line ∧ IsOffence line column text kind

/-- An offence at a place of a text before which there is none, from top to bottom and from left to
right. -/
def IsFirstOffence (source : String) (location : Location) (text : List Char) (kind : Kind) : Prop :=
  ∃ (index column : Nat) (line : List Char), (linesOf source)[index]? = some line ∧
    location = ⟨index + 1, column, String.ofList line⟩ ∧ IsOffence line column text kind ∧
    ∀ index' column' text' kind', OffendsAt source index' column' text' kind' →
      index < index' ∨ index = index' ∧ column ≤ column'

/-- A line is legible if nothing in it offends. -/
theorem isLegibleLine_iff :
    IsLegibleLine line ↔ ∀ column text kind, ¬ IsOffence line column text kind := by
  constructor
  · rintro ⟨hCharacters, hRuns⟩ column text kind hOffence
    cases hOffence with
    | run hRun hText hShape => exact hShape (hText ▸ hRuns _ _ hRun)
    | character hCode hForeign => exact hForeign (hCharacters _ _ hCode)
  · intro hNone
    refine ⟨fun p c hCode => ?_, fun start stop hRun => ?_⟩
    · by_contra hForeign
      exact hNone p [c] .symbol (.character hCode hForeign)
    · by_contra hShape
      exact hNone start _ .word (.run hRun rfl hShape)

theorem isLegible_iff :
    IsLegible source ↔ ∀ index column text kind, ¬ OffendsAt source index column text kind := by
  constructor
  · rintro hLegible index column text kind ⟨line, hLine, hOffence⟩
    exact isLegibleLine_iff.mp (hLegible line (List.mem_of_getElem? hLine)) _ _ _ hOffence
  · intro hNone line hLine
    obtain ⟨index, hIndex⟩ := List.mem_iff_getElem?.mp hLine
    exact isLegibleLine_iff.mpr fun column text kind hOffence =>
      hNone index column text kind ⟨line, hIndex, hOffence⟩

/-! ## Units without the shape of their kind -/

theorem IsMaximalRun.isWordCharacter (h : IsMaximalRun line start stop) :
    ∀ c ∈ (line.drop start).take (stop - start), isWordCharacter c = true := by
  intro c hc
  obtain ⟨p, hLength, hChar⟩ := List.mem_take_iff_getElem.mp hc
  have hStop : start + p < stop := by omega
  obtain ⟨d, ⟨hCode, -⟩, hWord⟩ := h.word (start + p) (Nat.le_add_right start p) hStop
  obtain ⟨_, hThere⟩ := List.getElem?_eq_some_iff.mp hCode
  rw [List.getElem_drop, hThere] at hChar
  rwa [← hChar]

theorem mem_symbols_iff {c : Char} : c ∈ symbols ↔ c ∈ "[\x7b\x7d]+-*/()?".toList := by
  simp [symbols]

/-- A run of word characters has the shape of a word if it starts with a letter. -/
theorem isWord_iff_of_forall (hWord : ∀ c ∈ text, isWordCharacter c = true) :
    isWord text = true ↔ ∃ c ∈ text.head?, c.isAlpha = true := by
  cases text with
  | nil => simp [isWord]
  | cons c rest =>
    have hRest : rest.all isWordCharacter = true :=
      List.all_eq_true.mpr fun d hd => hWord d (List.mem_cons_of_mem c hd)
    simp [isWord, hRest]

/-- A run has the shape of the kind that it is given if it is a number or starts with a letter. -/
theorem admits_run_iff (hText : text ≠ []) (hWord : ∀ c ∈ text, isWordCharacter c = true) :
    Kind.admits (if text.all Char.isDigit then .number else .word) (String.ofList text) = true ↔
      IsNumberOrWord text := by
  have hSome : text.isEmpty = false := List.isEmpty_eq_false_iff.mpr hText
  rw [IsNumberOrWord, ← List.all_eq_true, ← isWord_iff_of_forall hWord]
  cases hDigits : text.all Char.isDigit <;> simp [Kind.admits, Numeral.isDigits, hSome, hDigits]

/-- A character that is neither blank nor a word character has the shape of a symbol if it is one of
the language. -/
theorem admits_symbol_iff {c : Char} (hBlank : Text.isBlank c = false)
    (hWord : isWordCharacter c = false) :
    Kind.admits .symbol (String.ofList [c]) = true ↔ IsOfLanguage c := by
  rw [IsOfLanguage, hBlank, hWord, ← mem_symbols_iff]
  simp [Kind.admits, isLanguageSymbol]

/-- A run that is no number is taken for a word. -/
theorem kind_of_not_isNumberOrWord (h : ¬ IsNumberOrWord text) :
    (if text.all Char.isDigit then Kind.number else .word) = .word :=
  if_neg fun hDigits => h (.inl (List.all_eq_true.mp hDigits))

/-- The offences of a line are its units that do not have the shape of their kind. -/
theorem isOffence_iff : IsOffence line column text kind ↔
    IsUnitOf line column text kind ∧ kind.admits (String.ofList text) = false := by
  constructor
  · intro h
    cases h with
    | run hRun hText hShape =>
      have hUnit := IsUnitOf.run hRun hText
      have hAdmits := mt (admits_run_iff hUnit.ne_nil (hText ▸ hRun.isWordCharacter)).mp hShape
      rw [kind_of_not_isNumberOrWord hShape] at hUnit hAdmits
      exact ⟨hUnit, Bool.eq_false_iff.mpr hAdmits⟩
    | @character c hCode hForeign =>
      have hBlank : Text.isBlank c = false := Bool.eq_false_iff.mpr fun h => hForeign (.inl h)
      have hWord : isWordCharacter c = false :=
        Bool.eq_false_iff.mpr fun h => hForeign (.inr (.inl h))
      have hAdmits := mt (admits_symbol_iff hBlank hWord).mp hForeign
      exact ⟨.symbol hCode hBlank hWord, Bool.eq_false_iff.mpr hAdmits⟩
  · rintro ⟨hUnit, hAdmits⟩
    have hNe := hUnit.ne_nil
    cases hUnit with
    | run hRun hText =>
      have hWord := hText ▸ hRun.isWordCharacter
      have hShape := mt (admits_run_iff hNe hWord).mpr (Bool.eq_false_iff.mp hAdmits)
      rw [kind_of_not_isNumberOrWord hShape]
      exact .run hRun hText hShape
    | symbol hCode hBlank hWord =>
      have hForeign := mt (admits_symbol_iff hBlank hWord).mpr (Bool.eq_false_iff.mp hAdmits)
      exact .character hCode hForeign

/-! ## What verification reports -/

/-- Verification reports the first token that does not have the shape of its kind. -/
theorem exists_of_verify_error {tokens : List Token} {diagnostic : Diagnostic}
    (h : verify tokens = .error diagnostic) :
    ∃ before token behind, tokens = before ++ token :: behind ∧
      (∀ other ∈ before, other.isWellFormed = true) ∧ token.isWellFormed = false ∧
      diagnostic = .blame token token.defect := by
  rw [verify] at h
  split at h
  next => cases h
  next token hFind =>
    cases h
    obtain ⟨hToken, before, behind, hTokens, hBefore⟩ := List.find?_eq_some_iff_append.mp hFind
    exact ⟨before, token, behind, hTokens, by simpa using hBefore, by simpa using hToken, rfl⟩

/-- A token of a text that does not have the shape of its kind is an offence of its line. -/
theorem isOffence_of_mem {token : Token} (hToken : token ∈ ofSource source)
    (hShape : token.isWellFormed = false) :
    ∃ (index column : Nat) (line : List Char), (linesOf source)[index]? = some line ∧
      token.location = ⟨index + 1, column, String.ofList line⟩ ∧
      IsOffence line column token.text.toList token.kind := by
  obtain ⟨index, column, line, hLine, hLocation, hUnit⟩ := mem_ofSource.mp hToken
  refine ⟨index, column, line, hLine, hLocation, isOffence_iff.mpr ⟨hUnit, ?_⟩⟩
  rwa [String.ofList_toList]

theorem exists_mem_of_offendsAt {index : Nat} (h : OffendsAt source index column text kind) :
    ∃ token ∈ ofSource source, token.isWellFormed = false ∧ token.location.line = index + 1 ∧
      token.location.column = column := by
  obtain ⟨line, hLine, hOffence⟩ := h
  obtain ⟨hUnit, hShape⟩ := isOffence_iff.mp hOffence
  refine ⟨⟨kind, String.ofList text, ⟨index + 1, column, String.ofList line⟩⟩, ?_, hShape, rfl, rfl⟩
  refine mem_ofSource.mpr ⟨index, column, line, hLine, rfl, ?_⟩
  rwa [String.toList_ofList]

/-- A text is legible if its tokens have the shapes of their kinds. -/
theorem isLegible_iff_forall_mem :
    IsLegible source ↔ ∀ token ∈ ofSource source, token.isWellFormed = true := by
  rw [isLegible_iff]
  constructor
  · intro hNone token hToken
    by_contra hShape
    obtain ⟨index, column, line, hLine, -, hOffence⟩ :=
      isOffence_of_mem hToken (Bool.not_eq_true _ ▸ hShape)
    exact hNone index column _ _ ⟨line, hLine, hOffence⟩
  · intro hAll index column text kind hOffends
    obtain ⟨token, hToken, hShape, -⟩ := exists_mem_of_offendsAt hOffends
    rw [hAll token hToken] at hShape
    cases hShape

theorem IsOffence.defect {token : Token} (h : IsOffence line column text token.kind) :
    token.defect = .malformedToken token.text token.kind.name := by
  rw [Token.defect]
  generalize token.kind = kind at h
  cases h <;> rfl

/-- What verification reports of a text is the first offence of its lines. -/
theorem isFirstOffence_of_verify_error {diagnostic : Diagnostic}
    (h : verify (ofSource source) = .error diagnostic) :
    ∃ location text kind, IsFirstOffence source location text kind ∧
      diagnostic = ⟨.malformedToken (String.ofList text) kind.name, some location⟩ := by
  obtain ⟨before, token, behind, hTokens, hBefore, hShape, rfl⟩ := exists_of_verify_error h
  have hToken : token ∈ ofSource source := by
    rw [hTokens]
    exact List.mem_append_right _ (List.mem_cons_self ..)
  obtain ⟨index, column, line, hLine, hLocation, hOffence⟩ := isOffence_of_mem hToken hShape
  refine ⟨token.location, token.text.toList, token.kind,
    ⟨index, column, line, hLine, hLocation, hOffence, ?_⟩, ?_⟩
  · intro index' column' text' kind' hOffends
    obtain ⟨other, hOther, hShape', hLine', hColumn'⟩ := exists_mem_of_offendsAt hOffends
    have hOrdered := (partitions_ofSource source).ordered
    rw [hTokens] at hOther hOrdered
    -- the tokens in front are in order, and those behind stand further on
    rcases List.mem_append.mp hOther with hFront | hRest
    · rw [hBefore other hFront] at hShape'
      cases hShape'
    · rcases List.mem_cons.mp hRest with rfl | hBehind
      · rw [hLocation] at hLine' hColumn'
        replace hLine' : (index : Int) + 1 = index' + 1 := hLine'
        replace hColumn' : (column : Int) = column' := hColumn'
        omega
      · have hPrecedes : Precedes token other :=
          List.rel_of_pairwise_cons (List.pairwise_append.mp hOrdered).2.1 hBehind
        rw [Precedes, hLocation, hLine', hColumn'] at hPrecedes
        replace hPrecedes : (index : Int) + 1 < index' + 1 ∨
          (index : Int) + 1 = index' + 1 ∧ (column : Int) < column' := hPrecedes
        omega
  · rw [Diagnostic.blame, hOffence.defect, String.ofList_toList]

/-- Verification accepts the legible texts. Of any other text it reports the first offence, as a
token whose text does not have the shape of its kind, and blames whoever assembled the tokens. -/
theorem verify_ofSource (source : String) :
    (verify (ofSource source) = .ok () ↔ IsLegible source) ∧
      (¬ IsLegible source ↔ ∃ diagnostic location text kind,
        verify (ofSource source) = .error diagnostic ∧ diagnostic.category = .internal ∧
        diagnostic.location = some location ∧ IsFirstOffence source location text kind ∧
        diagnostic.problem = .malformedToken (String.ofList text) kind.name) := by
  have hLegible : verify (ofSource source) = .ok () ↔ IsLegible source := by
    rw [isLegible_iff_forall_mem]
    exact ⟨isWellFormed_of_verify, verify_of_isWellFormed⟩
  refine ⟨hLegible, ?_⟩
  rw [← hLegible]
  cases hVerify : verify (ofSource source) with
  | ok => simp
  | error diagnostic =>
    obtain ⟨location, text, kind, hFirst, rfl⟩ := isFirstOffence_of_verify_error hVerify
    refine iff_of_true (by simp) ?_
    exact ⟨_, location, text, kind, rfl, rfl, rfl, hFirst, rfl⟩

example : verify (ofSource "Pen 1 // é\nSet a_b 2é 3x") =
    .error ⟨.malformedToken "é" "symbol", some ⟨2, 9, "Set a_b 2é 3x"⟩⟩ := by
  decide +kernel

end DesignByNumbers.Token
