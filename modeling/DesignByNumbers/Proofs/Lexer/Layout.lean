import Mathlib.Data.List.Chain
import DesignByNumbers.Proofs.Lexer.Unit

/-!
# Proofs.Lexer.Layout — texts that are laid out from tokens

Tokens are written one after the other, with blanks and comments between them as one likes. A
separator starts with a blank, so that the slash of a token and the slashes of a comment behind
it are never taken for one another, and it is needed only where two tokens would run together.

* `contents_eq` — what the tokens of a text say is told line by line, wherever the lines stand.
* `IsFiller.contents_append` — blanks and comments in front of a text change nothing.
* `contents_token` — a token in front of a text is read first, if it does not run into the text.
* `content_ofSource_layout` — a layout of tokens is read back as those tokens.
-/

namespace DesignByNumbers.Token

/-! ## Layouts -/

/-- Blanks, and comments up to and with the ends of their lines. -/
inductive IsFiller : List Char → Prop
  | nil : IsFiller []
  | blank {c : Char} {rest : List Char} (hBlank : Text.isBlank c = true) (hRest : IsFiller rest) :
      IsFiller (c :: rest)
  | comment {text rest : List Char} (hText : '\n' ∉ text) (hRest : IsFiller rest) :
      IsFiller ('/' :: '/' :: (text ++ '\n' :: rest))

/-- What may stand between tokens: nothing, or a blank and further blanks and comments. -/
inductive IsSeparator : List Char → Prop
  | nil : IsSeparator []
  | cons {c : Char} {rest : List Char} (hBlank : Text.isBlank c = true) (hRest : IsFiller rest) :
      IsSeparator (c :: rest)

/-- A token that is written with word characters. -/
def IsRun (token : Token) : Prop :=
  token.kind = .word ∨ token.kind = .number

/-- Two tokens run together if nothing stands between them: into one run of word characters, or
into the slashes of a comment. -/
def RunsInto (token next : Token) : Prop :=
  token.IsRun ∧ next.IsRun ∨ token.isSymbol "/" ∧ next.isSymbol "/"

/-- Tokens with a separator in front of them and one behind each of them, which is not empty
between two tokens that would run together. -/
structure Layout where
  leading : List Char
  entries : List (Token × List Char)
  leading_isSeparator : IsSeparator leading
  isSeparator : ∀ entry ∈ entries, IsSeparator entry.2
  apart : entries.IsChain fun entry next => entry.1.RunsInto next.1 → entry.2 ≠ []

/-- Tokens with what stands behind each of them, one after the other. -/
def spell (entries : List (Token × List Char)) : List Char :=
  entries.flatMap fun (token, separator) => token.text.toList ++ separator

namespace Layout

/-- The tokens that are laid out. -/
def tokens (layout : Layout) : List Token :=
  layout.entries.map Prod.fst

/-- The text in which the tokens are laid out. -/
def text (layout : Layout) : String :=
  String.ofList (layout.leading ++ spell layout.entries)

end Layout

/-! ## What a text says -/

/-- What a lexeme says wherever it stands. -/
def Lexeme.content (lexeme : Lexeme) : Content :=
  ⟨lexeme.kind, String.ofList lexeme.characters⟩

/-- What the tokens of a line say. -/
def lineContents (line : List Char) : List Content :=
  (lexemes 0 (beforeComment line)).map Lexeme.content

/-- What the tokens of a text say. -/
def contents (text : List Char) : List Content :=
  (text.splitOn '\n').flatMap lineContents

/-- The tokens of consecutive lines say the same whichever number the first line has. -/
theorem content_ofLines (line : Nat) (texts : List (List Char)) :
    (ofLines line texts).map content = texts.flatMap lineContents := by
  induction texts generalizing line with
  | nil => rfl
  | cons characters rest ih =>
    have hLine : (ofLine line characters).map content = lineContents characters := by
      rw [ofLine, List.map_map]
      rfl
    rw [ofLines, List.map_append, ih, hLine, List.flatMap_cons]

theorem contents_eq (source : String) : (ofSource source).map content = contents source.toList :=
  content_ofLines 1 (linesOf source)

/-- The lexeme a number of columns further right. -/
def Lexeme.shift (columns : Nat) (lexeme : Lexeme) : Lexeme :=
  { lexeme with column := lexeme.column + columns }

theorem lexemes_add (column columns : Nat) (text : List Char) :
    lexemes (column + columns) text = (lexemes column text).map (Lexeme.shift columns) := by
  induction text generalizing column with
  | nil => rfl
  | cons c rest ih =>
    have hNext : column + columns + 1 = column + 1 + columns := Nat.add_right_comm ..
    simp only [lexemes, hNext, ih]
    split
    · rfl
    · split
      · -- a word character joins the same run in both columns
        generalize lexemes (column + 1) rest = following
        cases following with
        | nil => rfl
        | cons lexeme following =>
          cases startsWithWordCharacter rest <;> rfl
      · rfl

/-- What the lexemes of a text say does not depend on the column where it starts. -/
theorem content_lexemes (column : Nat) (text : List Char) :
    (lexemes column text).map Lexeme.content = (lexemes 0 text).map Lexeme.content := by
  have hShift := lexemes_add 0 column text
  rw [Nat.zero_add] at hShift
  rw [hShift, List.map_map]
  rfl

/-! ## Lines -/

/-- Whatever stands in front of a text without a line feed stands in front of its first line. -/
theorem exists_firstLine (text : List Char) :
    ∃ line lines, line <+: text ∧
      ∀ before, '\n' ∉ before → (before ++ text).splitOn '\n' = (before ++ line) :: lines := by
  induction text with
  | nil =>
    refine ⟨[], [], List.prefix_rfl, fun before hBefore => ?_⟩
    rw [List.append_nil]
    exact List.splitOn_eq_singleton hBefore
  | cons c rest ih =>
    by_cases hFeed : c = '\n'
    · subst hFeed
      refine ⟨[], rest.splitOn '\n', List.nil_prefix, fun before hBefore => ?_⟩
      rw [List.append_nil]
      exact List.splitOn_append_cons_self_of_not_mem hBefore rest
    · -- the character belongs to the line, and so do those in front of it
      obtain ⟨line, lines, hPrefix, hLines⟩ := ih
      refine ⟨c :: line, lines, (List.prefix_cons_inj c).mpr hPrefix, fun before hBefore => ?_⟩
      have hConcat : '\n' ∉ before ++ [c] := by
        simp [hBefore, Ne.symm hFeed]
      rw [List.append_cons, List.append_cons before c line]
      exact hLines (before ++ [c]) hConcat

/-- What stands in front of a text is read first, if that is so on the first line of the text. -/
theorem contents_append (said : List Content) {before text : List Char} (hBefore : '\n' ∉ before)
    (h : ∀ line, line <+: text → lineContents (before ++ line) = said ++ lineContents line) :
    contents (before ++ text) = said ++ contents text := by
  obtain ⟨line, lines, hPrefix, hLines⟩ := exists_firstLine text
  have hText := hLines [] List.not_mem_nil
  rw [List.nil_append, List.nil_append] at hText
  rw [contents, contents, hLines before hBefore, hText, List.flatMap_cons, List.flatMap_cons,
    h line hPrefix, List.append_assoc]

/-- A line that says nothing is passed over. -/
theorem contents_feed {line : List Char} (hLine : '\n' ∉ line) (h : lineContents line = [])
    (text : List Char) : contents (line ++ '\n' :: text) = contents text := by
  rw [contents, List.splitOn_append_cons_self_of_not_mem hLine, List.flatMap_cons, h, List.nil_append]
  rfl

/-- Only two slashes side by side start a comment. -/
theorem beforeComment_cons {c : Char} {line : List Char}
    (h : c = '/' → line.head? ≠ some '/') : beforeComment (c :: line) = c :: beforeComment line := by
  rw [beforeComment]
  rintro rest rfl rfl
  exact h rfl rfl

theorem head?_of_isPrefix {line text : List Char} {c : Char} (hPrefix : line <+: text)
    (h : line.head? = some c) : text.head? = some c := by
  obtain ⟨rest, rfl⟩ := hPrefix
  rw [List.head?_append, h, Option.some_or]

theorem startsWithWordCharacter_of_isPrefix {line text : List Char} (hPrefix : line <+: text)
    (h : startsWithWordCharacter text = false) : startsWithWordCharacter line = false := by
  obtain ⟨rest, rfl⟩ := hPrefix
  cases line with
  | nil => rfl
  | cons c line => exact h

/-! ## Separators -/

theorem contents_blank {c : Char} (hBlank : Text.isBlank c = true) (text : List Char) :
    contents (c :: text) = contents text := by
  by_cases hFeed : c = '\n'
  · subst hFeed
    exact contents_feed List.not_mem_nil rfl text
  · have hSlash : c ≠ '/' := by
      rintro rfl
      revert hBlank
      decide
    have hLine : '\n' ∉ [c] := by
      rw [List.mem_singleton]
      exact Ne.symm hFeed
    refine contents_append [] hLine fun line _ => ?_
    rw [List.singleton_append, List.nil_append, lineContents,
      beforeComment_cons fun h => absurd h hSlash, lexemes, if_pos hBlank, content_lexemes]
    rfl

/-- Blanks and comments in front of a text change nothing. -/
theorem IsFiller.contents_append {filler : List Char} (h : IsFiller filler) (text : List Char) :
    contents (filler ++ text) = contents text := by
  induction h with
  | nil => rfl
  | blank hBlank _ ih => rw [List.cons_append, contents_blank hBlank, ih]
  | @comment comment rest hText _ ih =>
    have hLine : '\n' ∉ '/' :: '/' :: comment := by
      simp [hText]
    have hAppend : '/' :: '/' :: (comment ++ '\n' :: rest) ++ text =
        '/' :: '/' :: comment ++ '\n' :: (rest ++ text) := by
      simp
    -- nothing of the line stands before its comment
    rw [hAppend, contents_feed hLine rfl, ih]

theorem IsSeparator.isFiller {separator : List Char} (h : IsSeparator separator) :
    IsFiller separator := by
  cases h with
  | nil => exact .nil
  | cons hBlank hRest => exact .blank hBlank hRest

/-! ## Tokens -/

/-- A token in front of a text does not run into it. -/
structure Stops (token : Token) (text : List Char) : Prop where
  run : token.IsRun → startsWithWordCharacter text = false
  slash : token.isSymbol "/" → text.head? ≠ some '/'

theorem beforeComment_append {before : List Char} (h : '/' ∉ before) (line : List Char) :
    beforeComment (before ++ line) = before ++ beforeComment line := by
  induction before with
  | nil => rfl
  | cons c before ih =>
    obtain ⟨hHead, hTail⟩ := not_or.mp (mt List.mem_cons.mpr h)
    rw [List.cons_append, beforeComment_cons fun hSlash => absurd hSlash.symm hHead, ih hTail]
    rfl

/-- A run of word characters that ends is one token. -/
theorem contents_run {run text : List Char} (hRun : run ≠ [])
    (hWord : ∀ c ∈ run, isWordCharacter c = true) (hEnd : startsWithWordCharacter text = false) :
    contents (run ++ text) =
      ⟨if run.all Char.isDigit then .number else .word, String.ofList run⟩ :: contents text := by
  have hNot : ∀ c, isWordCharacter c = false → c ∉ run := by
    intro c hc hMem
    rw [hWord c hMem] at hc
    cases hc
  refine contents_append [_] (hNot '\n' (by decide)) fun line hPrefix => ?_
  -- the run ends with its line, or where a comment starts, or in front of another character
  have hLine : startsWithWordCharacter (beforeComment line) = false :=
    startsWithWordCharacter_of_isPrefix ((beforeComment_isPrefix line).trans hPrefix) hEnd
  rw [lineContents, beforeComment_append (hNot '/' (by decide)), lexemes_run hRun hWord hLine,
    List.map_cons, content_lexemes, Lexeme.content, kind_run hRun hWord]
  rfl

/-- Any other character that is not blank is a token of its own. -/
theorem contents_symbol {c : Char} {text : List Char} (hBlank : Text.isBlank c = false)
    (hWord : isWordCharacter c = false) (hSlash : c = '/' → text.head? ≠ some '/') :
    contents (c :: text) = ⟨.symbol, String.ofList [c]⟩ :: contents text := by
  have hFeed : '\n' ∉ [c] := by
    rw [List.mem_singleton]
    rintro rfl
    revert hBlank
    decide
  refine contents_append [_] hFeed fun line hPrefix => ?_
  have hLine : c = '/' → line.head? ≠ some '/' := fun h hHead =>
    hSlash h (head?_of_isPrefix hPrefix hHead)
  rw [List.singleton_append, lineContents, beforeComment_cons hLine, lexemes, hBlank, hWord]
  simp only [Bool.false_eq_true, if_false]
  rw [List.map_cons, content_lexemes, Lexeme.content, kind_symbol hWord]
  rfl

theorem isDigit_of_isAlpha {c : Char} (h : c.isAlpha = true) : c.isDigit = false := by
  rw [Bool.eq_false_iff]
  intro hDigit
  have hLow := (Numeral.toNat_of_isDigit hDigit).2
  have hRanges : (decide (c.val ≥ 'A'.val ∧ c.val ≤ 'Z'.val) ||
      (decide (c.val ≥ 'a'.val) && decide (c.val ≤ 'z'.val))) = true := h
  simp only [Bool.or_eq_true, Bool.and_eq_true, decide_eq_true_eq] at hRanges
  -- letters have the codes from 65 and from 97 on, digits those from 48 to 57
  replace hRanges : (65 ≤ c.toNat ∧ c.toNat ≤ 90) ∨ 97 ≤ c.toNat ∧ c.toNat ≤ 122 := hRanges
  omega

/-- The characters of a symbol are neither blanks nor word characters. -/
theorem isBlank_of_mem_symbols {c : Char} (hc : c ∈ symbols) :
    Text.isBlank c = false ∧ isWordCharacter c = false := by
  have hAll : symbols.all (fun c => !Text.isBlank c && !isWordCharacter c) = true := by decide
  simpa using List.all_eq_true.mp hAll c hc

/-- How the text of a well-formed token is written. -/
inductive IsWritten (token : Token) : Prop
  /-- A run of word characters, which is a number if all of them are digits. -/
  | run (hRun : token.IsRun) (hText : token.text.toList ≠ [])
      (hWord : ∀ c ∈ token.text.toList, isWordCharacter c = true)
      (hKind : token.kind = if token.text.toList.all Char.isDigit then .number else .word)
  /-- A symbol of the language. -/
  | symbol {c : Char} (hc : c ∈ symbols) (hText : token.text.toList = [c])
      (hKind : token.kind = .symbol)

theorem isWritten_of_isWellFormed {token : Token} (h : token.isWellFormed = true) :
    token.IsWritten := by
  rw [isWellFormed] at h
  cases hKind : token.kind with
  | word =>
    rw [hKind] at h
    replace h : isWord token.text.toList = true := h
    cases hText : token.text.toList with
    | nil =>
      rw [hText] at h
      cases h
    | cons c rest =>
      rw [hText, isWord, Bool.and_eq_true, List.all_eq_true] at h
      obtain ⟨hAlpha, hRest⟩ := h
      have hHead : isWordCharacter c = true := by
        simp [isWordCharacter, Char.isAlphanum, hAlpha]
      refine .run (.inl hKind) ?_ ?_ ?_ <;> rw [hText]
      · exact List.cons_ne_nil c rest
      · exact List.forall_mem_cons.mpr ⟨hHead, hRest⟩
      · rw [List.all_cons, isDigit_of_isAlpha hAlpha]
        exact hKind
  | number =>
    rw [hKind] at h
    replace h : Numeral.isDigits token.text.toList = true := h
    have hDigits : token.text.toList.all Char.isDigit = true :=
      List.all_eq_true.mpr fun c hc => Numeral.digit_of_isDigits h hc
    refine .run (.inr hKind) ?_ (fun c hc => ?_) ?_
    · intro hText
      rw [hText] at h
      cases h
    · simp [isWordCharacter, Char.isAlphanum, Numeral.digit_of_isDigits h hc]
    · rw [hDigits]
      exact hKind
  | symbol =>
    rw [hKind] at h
    replace h : isLanguageSymbol token.text.toList = true := h
    unfold isLanguageSymbol at h
    split at h
    next c hText => exact .symbol (List.contains_iff_mem.mp h) hText hKind
    next => cases h
  | unknown name =>
    rw [hKind] at h
    cases h

/-- A token in front of a text that it does not run into is read first. -/
theorem contents_token {token : Token} {text : List Char} (h : token.IsWritten)
    (hStops : token.Stops text) :
    contents (token.text.toList ++ text) = token.content :: contents text := by
  cases h with
  | run hRun hText hWord hKind =>
    rw [contents_run hText hWord (hStops.run hRun), String.ofList_toList, ← hKind]
    rfl
  | @symbol c hc hText hKind =>
    obtain ⟨hBlank, hWord⟩ := isBlank_of_mem_symbols hc
    have hString : String.ofList [c] = token.text := by
      rw [← hText, String.ofList_toList]
    have hSlash : c = '/' → text.head? ≠ some '/' := by
      rintro rfl
      refine hStops.slash ?_
      rw [isSymbol, hKind, ← hString]
      rfl
    rw [hText, List.singleton_append, contents_symbol hBlank hWord hSlash, hString, ← hKind]
    rfl

/-! ## Reading a layout -/

theorem spell_cons (token : Token) (separator : List Char) (rest : List (Token × List Char)) :
    spell ((token, separator) :: rest) = token.text.toList ++ (separator ++ spell rest) := by
  rw [spell, List.flatMap_cons, List.append_assoc]
  rfl

/-- A text that starts with a word character or a slash starts with a token of that sort. -/
theorem isRun_of_startsWithWordCharacter {next : Token} {text : List Char} (h : next.IsWritten)
    (hStart : startsWithWordCharacter (next.text.toList ++ text) = true) : next.IsRun := by
  cases h with
  | run hRun => exact hRun
  | @symbol c hc hText =>
    rw [hText, List.singleton_append, startsWithWordCharacter, (isBlank_of_mem_symbols hc).2] at hStart
    cases hStart

theorem isSymbol_of_head? {next : Token} {text : List Char} (h : next.IsWritten)
    (hHead : (next.text.toList ++ text).head? = some '/') : next.isSymbol "/" = true := by
  cases h with
  | run _ hText hWord =>
    obtain ⟨c, rest, hCons⟩ := List.exists_cons_of_ne_nil hText
    rw [hCons, List.cons_append, List.head?_cons, Option.some.injEq] at hHead
    have hSlash := hWord c (by simp [hCons])
    rw [hHead] at hSlash
    exact absurd hSlash (by decide)
  | @symbol c hc hText hKind =>
    rw [hText, List.singleton_append, List.head?_cons, Option.some.injEq] at hHead
    have hString : next.text = "/" := by
      rw [← String.ofList_toList (s := next.text), hText, hHead]
    rw [isSymbol, hKind, hString]
    rfl

/-- A separator ends a token, and so does the next token where none is needed. -/
theorem stops_separator {token : Token} {separator : List Char}
    {rest : List (Token × List Char)} (hSeparator : IsSeparator separator)
    (hRest : ∀ entry ∈ rest, entry.1.IsWritten)
    (hApart : ∀ entry ∈ rest.head?, token.RunsInto entry.1 → separator ≠ []) :
    token.Stops (separator ++ spell rest) := by
  cases hSeparator with
  | @cons c filler hBlank hFiller =>
    -- a blank is neither a word character nor a slash
    refine ⟨fun _ => isWordCharacter_of_isBlank hBlank, fun _ hHead => ?_⟩
    rw [List.cons_append, List.head?_cons, Option.some.injEq] at hHead
    rw [hHead] at hBlank
    exact absurd hBlank (by decide)
  | nil =>
    cases rest with
    | nil => exact ⟨fun _ => rfl, fun _ hHead => by cases hHead⟩
    | cons entry rest =>
      obtain ⟨next, separator⟩ := entry
      have hNext : next.IsWritten := hRest _ (List.mem_cons_self ..)
      -- nothing stands between the two tokens, so that they do not run together
      have hNot : ¬ token.RunsInto next := fun hInto => hApart _ rfl hInto rfl
      rw [List.nil_append, spell_cons]
      refine ⟨fun hRun => ?_, fun hSlash hHead => ?_⟩
      · rw [Bool.eq_false_iff]
        exact fun hStart => hNot (.inl ⟨hRun, isRun_of_startsWithWordCharacter hNext hStart⟩)
      · exact hNot (.inr ⟨hSlash, isSymbol_of_head? hNext hHead⟩)

theorem contents_spell {entries : List (Token × List Char)}
    (hWritten : ∀ entry ∈ entries, entry.1.IsWritten)
    (hSeparator : ∀ entry ∈ entries, IsSeparator entry.2)
    (hApart : entries.IsChain fun entry next => entry.1.RunsInto next.1 → entry.2 ≠ []) :
    contents (spell entries) = (entries.map Prod.fst).map content := by
  induction entries with
  | nil => rfl
  | cons entry rest ih =>
    obtain ⟨token, separator⟩ := entry
    obtain ⟨hToken, hTokens⟩ := List.forall_mem_cons.mp hWritten
    obtain ⟨hFirst, hOthers⟩ := List.forall_mem_cons.mp hSeparator
    obtain ⟨hNext, hChain⟩ := List.isChain_cons.mp hApart
    have hStops : token.Stops (separator ++ spell rest) :=
      stops_separator hFirst hTokens fun entry hEntry => hNext entry hEntry
    rw [spell_cons, contents_token hToken hStops, hFirst.isFiller.contents_append,
      ih hTokens hOthers hChain]
    rfl

/-- However well-formed tokens are laid out, with blanks and comments between them, their text is
read back as the same kinds and texts. -/
theorem content_ofSource_layout (layout : Layout) (h : Token.verify layout.tokens = .ok ()) :
    (ofSource layout.text).map content = layout.tokens.map content := by
  have hWritten : ∀ entry ∈ layout.entries, entry.1.IsWritten := fun entry hEntry =>
    isWritten_of_isWellFormed (isWellFormed_of_verify h entry.1 (List.mem_map_of_mem hEntry))
  rw [contents_eq, Layout.text, String.toList_ofList,
    layout.leading_isSeparator.isFiller.contents_append,
    contents_spell hWritten layout.isSeparator layout.apart]
  rfl

/-- Two slashes that are symbols, with a comment between them and one above. -/
theorem content_ofSource_layout_slashes :
    ∃ layout : Layout, layout.text = " // a dot\nSet[5/ // half\n/2]\t" ∧
      Token.verify layout.tokens = .ok () ∧
      layout.tokens.map content = [.word "Set", .symbol "[", .number "5", .symbol "/", .symbol "/",
        .number "2", .symbol "]"] ∧
      (ofSource layout.text).map content = layout.tokens.map content := by
  let token (kind : Kind) (text : String) : Token := ⟨kind, text, default⟩
  let comment (text : String) : List Char := ' ' :: '/' :: '/' :: (text.toList ++ ['\n'])
  let entries : List (Token × List Char) :=
    [(token .word "Set", []), (token .symbol "[", []), (token .number "5", []),
      (token .symbol "/", comment " half"), (token .symbol "/", []), (token .number "2", []),
      (token .symbol "]", ['\t'])]
  have hVerify : Token.verify (entries.map Prod.fst) = .ok () := by decide +kernel
  have hText : String.ofList (comment " a dot" ++ spell entries) =
      " // a dot\nSet[5/ // half\n/2]\t" := by decide +kernel
  have hComment (text : String) (hFeed : '\n' ∉ text.toList) : IsSeparator (comment text) :=
    .cons (by decide) (.comment hFeed .nil)
  have hTab : IsSeparator ['\t'] := .cons (by decide) .nil
  have hHalf : IsSeparator (comment " half") := hComment _ (by decide +kernel)
  let layout : Layout :=
    { leading := comment " a dot"
      entries := entries
      leading_isSeparator := hComment _ (by decide +kernel)
      isSeparator := by simp [entries, hHalf, hTab, IsSeparator.nil]
      apart := by simp [entries, RunsInto, IsRun, isSymbol, token, comment] }
  exact ⟨layout, hText, hVerify, rfl, content_ofSource_layout layout hVerify⟩

end DesignByNumbers.Token
