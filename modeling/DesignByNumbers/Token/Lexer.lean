import DesignByNumbers.Token

/-!
# Token.Lexer — from source text to tokens

Each line is read on its own, up to the first pair of slashes. Within a line the lexemes
are the maximal runs of word characters and every other single character that is not
blank. Reading never fails; a lexeme that the language has no use for is refused later.
-/

namespace DesignByNumbers.Token

/-- A stretch of a line: the column where it starts and its characters. -/
structure Lexeme where
  column : Nat
  characters : List Char
deriving Repr, DecidableEq

/-- The part of a line before its comment. -/
def beforeComment : List Char → List Char
  | [] => []
  | '/' :: '/' :: _ => []
  | c :: rest => c :: beforeComment rest

/-- The lexemes with a word character put in front of them: it joins the run that starts
right after it, and otherwise stands as a run of its own. -/
def prependWordCharacter (column : Nat) (c : Char) (nextJoins : Bool) :
    List Lexeme → List Lexeme
  | [] => [⟨column, [c]⟩]
  | lexeme :: rest =>
    if nextJoins then ⟨column, c :: lexeme.characters⟩ :: rest
    else ⟨column, [c]⟩ :: lexeme :: rest

def startsWithWordCharacter : List Char → Bool
  | [] => false
  | c :: _ => isWordCharacter c

/-- The lexemes of a text whose first character stands in the given column. -/
def lexemes (column : Nat) : List Char → List Lexeme
  | [] => []
  | c :: rest =>
    let following := lexemes (column + 1) rest
    if Text.isBlank c then following
    else if isWordCharacter c then
      prependWordCharacter column c (startsWithWordCharacter rest) following
    else ⟨column, [c]⟩ :: following

/-- The kind of a lexeme: digits make a number, a lone other character a symbol, and
everything else a word. -/
def Lexeme.kind (lexeme : Lexeme) : Kind :=
  if Numeral.isDigits lexeme.characters then .number
  else if lexeme.characters.all isWordCharacter then .word
  else .symbol

def ofLine (line : Nat) (characters : List Char) : List Token :=
  let context := String.ofList characters
  (lexemes 0 (beforeComment characters)).map fun lexeme =>
    { kind := lexeme.kind
      text := String.ofList lexeme.characters
      location := { line, column := lexeme.column, context } }

/-- The tokens of consecutive lines, the first of which has the given number. -/
def ofLines (line : Nat) : List (List Char) → List Token
  | [] => []
  | characters :: rest => ofLine line characters ++ ofLines (line + 1) rest

/-- The lines of a source text, ended by line feeds only. -/
def linesOf (source : String) : List (List Char) :=
  source.toList.splitOn '\n'

/-- The tokens of a source text, in reading order. -/
def ofSource (source : String) : List Token :=
  ofLines 1 (linesOf source)

end DesignByNumbers.Token
