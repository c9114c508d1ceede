import Mathlib.Data.List.OfFn
import Mathlib.Tactic.Choose
import DesignByNumbers.Proofs.Drawable

/-!
# Proofs.Picture.Reading — the colours of a picture read back from its texts

The text that shows the colours gives each cell at least three characters, but a longer colour takes
more, so that columns cannot be told by counting. They can be told by the blanks between them, since a
colour that was drawn is a numeral and has none in it. The other text has one character for each cell
and agrees with the numbers in the first one.

* `words_padded`, `words_line` — a row of colours, word by word.
* `linesOf_encode?` — the text of a picture, line by line.
* `linesOf_test`, `linesOf_binary` — the two encodings.
* `encodings_agree` — both texts of a program.
-/

namespace DesignByNumbers

open Token (linesOf)

/-! ## Words and lines -/

namespace Text

/-- The words of a line: its longest stretches without a blank. -/
def words (line : List Char) : List (List Char) :=
  (line.splitOnP isBlank).filter fun word => !word.isEmpty

/-- The word at a line of a text and a place in that line. -/
def wordAt? (text : String) (row column : Nat) : Option String := do
  let line ← (linesOf text)[row]?
  let word ← (words line)[column]?
  return String.ofList word

/-- A text that is a word by itself. -/
structure IsWord (word : List Char) : Prop where
  ne_nil : word ≠ []
  free : ∀ c ∈ word, isBlank c = false

variable {c : Char} {word : List Char}

theorem words_cons_of_isBlank (h : isBlank c = true) (rest : List Char) :
    words (c :: rest) = words rest := by
  have hSplit := List.splitOnP_append_cons_of_forall_mem (p := isBlank) (List.forall_mem_nil _) c h rest
  rw [List.nil_append] at hSplit
  rw [words, hSplit, List.filter_cons_of_neg (by simp), words]

theorem words_append_cons (hWord : IsWord word) (h : isBlank c = true) (rest : List Char) :
    words (word ++ c :: rest) = word :: words rest := by
  rw [words, List.splitOnP_append_cons_of_forall_mem hWord.free c h rest, List.filter_cons,
    if_pos (by simp [hWord.ne_nil]), words]

theorem words_spaces (n : Nat) (rest : List Char) : words (List.replicate n ' ' ++ rest) = words rest := by
  induction n with
  | zero => rfl
  | succ n ih => rw [List.replicate_succ, List.cons_append, words_cons_of_isBlank (by decide), ih]

/-- The lines of a text each of which is ended by a line feed. -/
theorem linesOf_join {lines : List String} (h : ∀ line ∈ lines, '\n' ∉ line.toList) :
    linesOf (String.join (lines.map (· ++ "\n"))) = lines.map String.toList ++ [[]] := by
  induction lines with
  | nil => rfl
  | cons line rest ih =>
    obtain ⟨hLine, hRest⟩ := List.forall_mem_cons.mp h
    have hRestLines := ih hRest
    rw [linesOf] at hRestLines
    have hText : (String.join ((line :: rest).map (· ++ "\n"))).toList =
        line.toList ++ '\n' :: (String.join (rest.map (· ++ "\n"))).toList := by
      simp
    rw [linesOf, hText, List.splitOn_append_cons_self_of_not_mem hLine, hRestLines]
    rfl

end Text

/-- A numeral is a word. -/
theorem Numeral.IsDrawable.isWord {text : String} (h : IsDrawable text) : Text.IsWord text.toList := by
  obtain ⟨digits, hDigits, hText⟩ := isPlain_iff.mp h.1
  have hDigit : ∀ c ∈ digits, Text.isBlank c = false := by
    intro c hc
    have hRange := toNat_of_isDigit (digit_of_isDigits hDigits hc)
    simp [Text.isBlank]
    omega
  rcases hText with rfl | rfl
  · rw [String.toList_ofList]
    exact ⟨List.cons_ne_nil _ _, List.forall_mem_cons.mpr ⟨by decide, hDigit⟩⟩
  · rw [String.toList_ofList]
    refine ⟨?_, hDigit⟩
    -- an empty text is no numeral
    rintro rfl
    cases hDigits

namespace Picture

open Text (words IsWord)

/-! ## Encodings -/

/-- A cell that shows its colour is that word, with blanks behind it. -/
theorem words_padded {colour : String} (h : IsWord colour.toList) (rest : List Char) :
    words ((Encoding.padded colour).toList ++ rest) = colour.toList :: words rest := by
  have hPadded : (Encoding.padded colour).toList =
      colour.toList ++ (List.replicate (Encoding.cellWidth - colour.length) ' ' ++ [' ']) := by
    simp [Encoding.padded, Diagnostic.spaces]
  -- the blank that is always there comes first as well as last
  rw [hPadded, ← List.replicate_succ', List.replicate_succ, List.append_assoc, List.cons_append,
    Text.words_append_cons h (by decide), Text.words_spaces]

theorem words_line {colours : List String} (h : ∀ colour ∈ colours, IsWord colour.toList) :
    words (String.join (colours.map Encoding.padded)).toList = colours.map String.toList := by
  induction colours with
  | nil => rfl
  | cons colour rest ih =>
    obtain ⟨hColour, hRest⟩ := List.forall_mem_cons.mp h
    rw [List.map_cons, String.join_cons, String.toList_append, words_padded hColour, ih hRest,
      List.map_cons]

variable {picture : Picture}

/-- The lines of a picture whose cells have texts without line feeds. -/
theorem linesOf_encode? {encoding : Encoding} {texts : Fin side → Fin side → String}
    (h : ∀ row column, encoding.cell? (picture.colourAt row column) = some (texts row column))
    (hLine : ∀ row column, '\n' ∉ (texts row column).toList) :
    ∃ text, picture.encode? encoding = some text ∧
      linesOf text = List.ofFn (fun row => (String.join (List.ofFn (texts row))).toList) ++ [[]] := by
  refine ⟨_, encode?_eq_some h, ?_⟩
  -- a line feed in a row would be one in a cell of it
  have hRows : ∀ line ∈ List.ofFn fun row => String.join (List.ofFn (texts row)), '\n' ∉ line.toList := by
    refine List.forall_mem_ofFn_iff.mpr fun row hMem => ?_
    rw [String.toList_join, List.mem_flatMap] at hMem
    obtain ⟨text, hText, hFeed⟩ := hMem
    obtain ⟨column, rfl⟩ := List.mem_ofFn.mp hText
    exact hLine row column hFeed
  have hJoin := Text.linesOf_join hRows
  rwa [List.map_ofFn, List.map_ofFn] at hJoin

/-- Every line of the text that shows the colours has those of its row as its words. -/
theorem linesOf_test (h : ∀ row column, IsWord (picture.colourAt row column).toList) :
    ∃ test lines, picture.encode? .test = some test ∧ linesOf test = lines ++ [[]] ∧
      lines.map words = List.ofFn fun row => List.ofFn fun column =>
        (picture.colourAt row column).toList := by
  have hFeed : ∀ row column, '\n' ∉ (Encoding.padded (picture.colourAt row column)).toList := by
    intro row column hMem
    have hColour : '\n' ∉ (picture.colourAt row column).toList :=
      fun hIn => absurd ((h row column).free _ hIn) (by decide)
    simp [Encoding.padded, Diagnostic.spaces, hColour] at hMem
  have hCell : ∀ row column, Encoding.test.cell? (picture.colourAt row column) =
      some (Encoding.padded (picture.colourAt row column)) := fun _ _ => rfl
  obtain ⟨test, hTest, hLines⟩ := linesOf_encode? hCell hFeed
  refine ⟨test, _, hTest, hLines, ?_⟩
  rw [List.map_ofFn]
  refine congrArg List.ofFn (funext fun row => ?_)
  have hRow : words (String.join ((List.ofFn (picture.colourAt row)).map Encoding.padded)).toList =
      (List.ofFn (picture.colourAt row)).map String.toList :=
    words_line (List.forall_mem_ofFn_iff.mpr (h row))
  simpa only [List.map_ofFn, Function.comp_def] using hRow

/-- The colours are found at their places. -/
theorem wordAt?_of_linesOf {test : String} {lines : List (List Char)} (hLines : linesOf test = lines ++ [[]])
    (hWords : lines.map words = List.ofFn fun row => List.ofFn fun column =>
      (picture.colourAt row column).toList) (row column : Fin side) :
    Text.wordAt? test row column = some (picture.colourAt row column) := by
  have hRow : lines[row.val]?.map words = some (List.ofFn fun column =>
      (picture.colourAt row column).toList) := by
    rw [← List.getElem?_map, hWords, List.getElem?_ofFn, dif_pos row.isLt]
  obtain ⟨line, hLine, hColours⟩ := Option.map_eq_some_iff.mp hRow
  have hInText : (linesOf test)[row.val]? = some line := by
    obtain ⟨hLess, -⟩ := List.getElem?_eq_some_iff.mp hLine
    rw [hLines, List.getElem?_append_left hLess, hLine]
  have hWord : (words line)[column.val]? = some (picture.colourAt row column).toList := by
    rw [hColours, List.getElem?_ofFn, dif_pos column.isLt]
  rw [Text.wordAt?, hInText, Option.bind_eq_bind, Option.bind_some, hWord]
  exact congrArg some String.ofList_toList

/-- The text that tells dark cells from light ones has one character for each cell. -/
theorem linesOf_binary {values : Fin side → Fin side → Int}
    (h : ∀ row column, Numeral.parse? (picture.colourAt row column) = some (values row column)) :
    ∃ binary, picture.encode? .binary = some binary ∧
      linesOf binary = (List.ofFn fun row => List.ofFn fun column =>
        if 50 ≤ values row column then 'o' else ' ') ++ [[]] := by
  have hCell : ∀ row column, Encoding.binary.cell? (picture.colourAt row column) =
      some (String.ofList [if 50 ≤ values row column then 'o' else ' ']) := by
    intro row column
    have hMark : Encoding.mark? (picture.colourAt row column) =
        some (if 50 ≤ values row column then "o" else " ") := by
      rw [Encoding.mark?, h]
      rfl
    rw [Encoding.cell?, hMark]
    split <;> rfl
  have hFeed : ∀ row column,
      '\n' ∉ (String.ofList [if 50 ≤ values row column then 'o' else ' ']).toList := by
    intro row column
    split <;> decide
  obtain ⟨binary, hBinary, hLines⟩ := linesOf_encode? hCell hFeed
  refine ⟨binary, hBinary, ?_⟩
  have hJoin : ∀ marks : List Char,
      (String.join (marks.map fun mark => String.ofList [mark])).toList = marks := by
    intro marks
    induction marks with
    | nil => rfl
    | cons mark rest ih =>
      rw [List.map_cons, String.join_cons, String.toList_append, ih, String.toList_ofList,
        List.singleton_append]
  rw [hLines]
  refine congrArg (· ++ [[]]) (congrArg List.ofFn (funext fun row => ?_))
  simpa only [List.map_ofFn, Function.comp_def] using
    hJoin (List.ofFn fun column => if 50 ≤ values row column then 'o' else ' ')

/-- Pictures with the same text show the same colours. -/
theorem resolved_eq_of_words {picture' : Picture}
    (h : (List.ofFn fun row => List.ofFn fun column => (picture.colourAt row column).toList) =
      List.ofFn fun row => List.ofFn fun column => (picture'.colourAt row column).toList) :
    picture.resolved = picture'.resolved := by
  have hColours : ∀ row column, picture.colourAt row column = picture'.colourAt row column := by
    intro row column
    have hRow := congrFun (List.ofFn_injective h) row
    exact String.toList_inj.mp (congrFun (List.ofFn_injective hRow) column)
  have hPlaces : ∀ i : Fin (side * side), picture.resolved[i] = picture'.resolved[i] := by
    intro i
    obtain ⟨row, column, rfl⟩ := exists_place i
    exact hColours row column
  exact Vector.ext fun i hi => hPlaces ⟨i, hi⟩

end Picture

/-! ## Programs -/

namespace Backend

open Picture (side)

/-- The text that shows the colours of a program's picture. -/
theorem exists_test {tokens : List Token} {context : NameMap Binding} (hContext : HasNumerals context)
    {trace : Array DrawOp} (hTrace : Program.interpret tokens context = .ok trace) :
    ∃ picture test lines, Picture.ofTrace trace.toList = .ok picture ∧
      draw (.raster .test) trace.toList = .ok test ∧ linesOf test = lines ++ [[]] ∧
      lines.map Text.words = List.ofFn fun row => List.ofFn fun column =>
        (picture.colourAt row column).toList := by
  have hDrawable := hContext.isDrawable_of_interpret hTrace
  obtain ⟨picture, hPicture⟩ := Picture.exists_ofTrace hDrawable
  obtain ⟨test, lines, hTest, hLines⟩ := Picture.linesOf_test fun row column =>
    (Picture.isDrawable_colourAt hDrawable hPicture row column).isWord
  exact ⟨picture, test, lines, hPicture, by simp only [draw, hPicture, hTest], hLines⟩

/-- The texts that show the colours of a program's picture and tell its dark cells from its light ones:
each has one line for each row and nothing behind the last one. The words of a line of the first text
are the colours of the row, so that the text tells all colours of the picture. The second text has one
character for each cell, which says whether the number at that place of the first text is at least
fifty. -/
theorem encodings_agree {tokens : List Token} {context : NameMap Binding} (hContext : HasNumerals context)
    {trace : Array DrawOp} (hTrace : Program.interpret tokens context = .ok trace) :
    ∃ picture test binary, Picture.ofTrace trace.toList = .ok picture ∧
      draw (.raster .test) trace.toList = .ok test ∧ draw (.raster .binary) trace.toList = .ok binary ∧
      (∃ lines, linesOf test = lines ++ [[]] ∧ lines.length = side ∧
        lines.map Text.words = List.ofFn fun row => List.ofFn fun column =>
          (picture.colourAt row column).toList) ∧
      (∀ tokens' context' trace', HasNumerals context' →
        Program.interpret tokens' context' = .ok trace' →
        draw (.raster .test) trace'.toList = .ok test →
        ∃ picture', Picture.ofTrace trace'.toList = .ok picture' ∧ picture'.resolved = picture.resolved) ∧
      ∃ values : Fin side → Fin side → Int,
        (∀ row column : Fin side,
          (Text.wordAt? test row column).bind Numeral.parse? = some (values row column)) ∧
        linesOf binary = (List.ofFn fun row => List.ofFn fun column =>
          if 50 ≤ values row column then 'o' else ' ') ++ [[]] := by
  obtain ⟨picture, test, lines, hPicture, hDraw, hLines, hWords⟩ := exists_test hContext hTrace
  have hDrawable := Picture.isDrawable_colourAt (hContext.isDrawable_of_interpret hTrace) hPicture
  have hColours : ∀ row column, ∃ value,
      Numeral.parse? (picture.colourAt row column) = some value :=
    fun row column => (hDrawable row column).exists_parse?
  choose values hValues using hColours
  obtain ⟨binary, hBinary, hMarks⟩ := Picture.linesOf_binary hValues
  have hLength : lines.length = side := by
    rw [← List.length_map, hWords, List.length_ofFn]
  refine ⟨picture, test, binary, hPicture, hDraw, by simp only [draw, hPicture, hBinary],
    ⟨lines, hLines, hLength, hWords⟩, ?_, values, fun row column => ?_, hMarks⟩
  · intro tokens' context' trace' hContext' hTrace' hDraw'
    obtain ⟨picture', test', lines', hPicture', hSame, hLines', hWords'⟩ :=
      exists_test hContext' hTrace'
    -- the lines of the one text are those of the other
    obtain rfl : test' = test := Except.ok.inj (hSame.symm.trans hDraw')
    obtain rfl := List.append_cancel_right (hLines'.symm.trans hLines)
    exact ⟨picture', hPicture', Picture.resolved_eq_of_words (hWords'.symm.trans hWords)⟩
  · rw [Picture.wordAt?_of_linesOf hLines hWords, Option.bind_some, hValues]

/-- A dot whose colour takes more characters than there are for a cell. -/
theorem encodings_agree_dot :
    let shade : Command := ⟨"Shade", ["c"], Token.ofSource "Paper (c / 2)"⟩
    let context : NameMap Binding := .ofList [("Shade", .command shade), ("X", .number "1500")]
    let trace : Array DrawOp := #[.point "1" "100" "1500"]
    HasNumerals context ∧
      Program.interpret (Token.ofSource "Set [1 100] X") context = .ok trace ∧
      ∃ test binary marks, draw (.raster .test) trace.toList = .ok test ∧
        draw (.raster .binary) trace.toList = .ok binary ∧
        Text.wordAt? test 0 0 = some "0" ∧ Text.wordAt? test 0 1 = some "1500" ∧
        (linesOf binary)[0]? = some marks ∧ marks[0]? = some ' ' ∧ marks[1]? = some 'o' := by
  intro shade context trace
  have hContext : HasNumerals context := by
    intro name command hEntry
    rcases List.mem_pair.mp hEntry with hShade | hNumber
    · cases hShade
      exact Token.isNumeral_of_verify (by decide +kernel)
    · cases hNumber
  have hTrace : Program.interpret (Token.ofSource "Set [1 100] X") context = .ok trace := by
    obtain ⟨head, rest, hTokens, hRead⟩ : ∃ head rest, Token.ofSource "Set [1 100] X" = head :: rest ∧
        Instruction.ofStatement (State.initial ⟨context⟩).scope head (head :: rest).getLast? rest =
          .ok (.draw (.point "1" "100" "1500"), []) :=
      ⟨(Token.ofSource "Set [1 100] X").head!, (Token.ofSource "Set [1 100] X").tail, by decide +kernel⟩
    have hVerify : Token.verify (Token.ofSource "Set [1 100] X") = .ok () := by decide +kernel
    have hScope : Scope.ofBindings context = .ok ⟨context⟩ := by decide +kernel
    have hRun := Program.run_single hRead
    rw [Program.interpret, hVerify, hScope]
    simp only [hTokens, hRun]
    rfl
  obtain ⟨picture, test, binary, hPicture, hTest, hBinary, ⟨lines, hLines, -, hWords⟩, -, values,
    hValues, hMarks⟩ := encodings_agree hContext hTrace
  obtain rfl : Picture.blank.paint 1 0 "1500" = picture := by
    have hLeft : Canvas.column? "1" = some 1 := by decide +kernel
    have hTop : Canvas.row? "100" = some 0 := by decide +kernel
    have hDot : Picture.addOp DrawOp.defaultPen (.point "1" "100" "1500") Picture.blank =
        some (Picture.blank.paint 1 0 "1500") := by
      simp [Picture.addOp, hLeft, hTop]
    have hWalk : Canvas.walk Picture.addOp DrawOp.defaultPen Picture.blank
        [.point "1" "100" "1500"] = .ok picture := hPicture
    obtain ⟨between, hStep, hRest⟩ := Canvas.walk_cons.mp hWalk
    cases hRest
    exact Option.some.inj (hDot.symm.trans hStep)
  have hPaper : Text.wordAt? test 0 0 = some "0" := by
    refine (Picture.wordAt?_of_linesOf hLines hWords 0 0).trans (congrArg some ?_)
    rw [Picture.colourAt_eq, Picture.cellAt_paint, if_neg (by decide), Picture.cellAt_blank,
      Picture.background_paint]
    rfl
  have hDot : Text.wordAt? test 0 1 = some "1500" := by
    refine (Picture.wordAt?_of_linesOf hLines hWords 0 1).trans (congrArg some ?_)
    rw [Picture.colourAt_eq, Picture.cellAt_paint, if_pos (by decide)]
    rfl
  have hLight : ¬ 50 ≤ values 0 0 := by
    have hValue : (Text.wordAt? test 0 0).bind Numeral.parse? = some (values 0 0) := hValues 0 0
    have hZero : Numeral.parse? "0" = some 0 := by decide +kernel
    rw [hPaper, Option.bind_some, hZero, Option.some.injEq] at hValue
    omega
  have hDark : 50 ≤ values 0 1 := by
    have hValue : (Text.wordAt? test 0 1).bind Numeral.parse? = some (values 0 1) := hValues 0 1
    have hNumber : Numeral.parse? "1500" = some 1500 := by decide +kernel
    rw [hDot, Option.bind_some, hNumber, Option.some.injEq] at hValue
    omega
  refine ⟨hContext, hTrace, test, binary,
    List.ofFn fun column => if 50 ≤ values 0 column then 'o' else ' ', hTest, hBinary, hPaper, hDot,
    ?_, ?_, ?_⟩
  · rw [hMarks, List.getElem?_append_left (by rw [List.length_ofFn]; decide), List.getElem?_ofFn]
    rfl
  · rw [List.getElem?_ofFn]
    exact congrArg some (if_neg hLight)
  · rw [List.getElem?_ofFn]
    exact congrArg some (if_pos hDark)

end Backend

end DesignByNumbers
