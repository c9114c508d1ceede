import DesignByNumbers.Numeral
import DesignByNumbers.Text.Quoted

/-!
# Token — the lexical units of a program

A token has a kind, a text and a place. Three kinds have a meaning; a token sequence made
elsewhere may name others, which verification refuses.
-/

namespace DesignByNumbers

/-- The place of a token: a line counted from one, a column counted in code points from
zero, and the whole line as context. -/
structure Location where
  line : Int
  column : Int
  context : String
deriving Repr, DecidableEq, Inhabited

namespace Token

/-- What sort of lexical unit a token is. -/
inductive Kind
  | word
  | symbol
  | number
  /-- A kind without a meaning, by its name. -/
  | unknown (name : String)
deriving Repr, DecidableEq, Inhabited

def Kind.name : Kind → String
  | .word => "word"
  | .symbol => "symbol"
  | .number => "number"
  | .unknown name => name

def Kind.ofName (name : String) : Kind :=
  if name = "word" then .word
  else if name = "symbol" then .symbol
  else if name = "number" then .number
  else .unknown name

end Token

/-- A lexical unit of a program. The text of a number that was computed may have a sign. -/
structure Token where
  kind : Token.Kind
  text : String
  location : Location
deriving Repr, DecidableEq, Inhabited

namespace Token

def isSymbol (token : Token) (text : String) : Bool :=
  token.kind = .symbol && token.text = text

/-- The number token that stands at the place of this token. -/
def withNumber (token : Token) (text : String) : Token :=
  { token with kind := .number, text }

/-! ## Shape

Words, numbers and symbols have disjoint shapes, and a token is well formed when its text
has the shape of its kind.
-/

/-- Letters, digits and the underscore are what words and numbers are made of. -/
def isWordCharacter (c : Char) : Bool :=
  c.isAlphanum || c = '_'

def symbols : List Char :=
  ['[', '{', '}', ']', '+', '-', '*', '/', '(', ')', '?']

/-- Whether a text is a letter followed by word characters. -/
def isWord : List Char → Bool
  | [] => false
  | c :: rest => c.isAlpha && rest.all isWordCharacter

def isLanguageSymbol : List Char → Bool
  | [c] => symbols.contains c
  | _ => false

/-- Whether a text has the shape of a kind. No text has the shape of an unknown kind. -/
def Kind.admits (kind : Kind) (text : String) : Bool :=
  match kind with
  | .word => isWord text.toList
  | .symbol => isLanguageSymbol text.toList
  | .number => Numeral.isDigits text.toList
  | .unknown _ => false

def isWellFormed (token : Token) : Bool :=
  token.kind.admits token.text

def describe (token : Token) : String :=
  "Token(" ++ Text.quoted token.kind.name ++ ", " ++ Text.quoted token.text ++ ", " ++
    Numeral.decimal token.location.line ++ ":" ++ Numeral.decimal token.location.column ++ ")"

end Token

end DesignByNumbers
