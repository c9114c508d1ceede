import DesignByNumbers.Settings
import DesignByNumbers.Text.Part

/-!
# Settings.Value — settings as they are written

A value is a quoted text, a list, a section, a call of a function, or a word: a number, a
truth value, null or any other text without quotes. A backslash takes the meaning from a
mark or a space. Values that are separated by commas outside of brackets are alternatives,
and so is what the functions for alternatives give.
-/

namespace DesignByNumbers.Settings

inductive Value
  | single (value : Settings)
  /-- Several values of which one has to be chosen. -/
  | alternatives

/-! ## Numbers -/

/-- Whether a text consists of ASCII digits and single underscores between them. -/
def isDigitGroup (text : List Char) : Bool :=
  (Numeral.digits? text).isSome && text.all fun c => c.isDigit || c = '_'

/-- Whether a text is a group of digits without a zero at its start, or a single zero. -/
def isWholeNumber (text : List Char) : Bool :=
  isDigitGroup text && (text.head? != some '0' || text.length = 1)

def isInteger (text : List Char) : Bool :=
  isWholeNumber (Text.splitSign text).2

/-- Whether a text can be the exponent of a real number. -/
def isExponent (text : List Char) : Bool :=
  isDigitGroup (Text.splitSign text).2

/-- Whether a text without a sign is a real number: it has a point, an exponent or both. -/
def isMagnitude (text : List Char) : Bool :=
  let (mantissa, exponent) := Text.cut Double.isExponentMark text
  let (whole, fraction) := Text.cut (· = '.') mantissa
  exponent.all isExponent &&
    match fraction with
    | none => exponent.isSome && isWholeNumber whole
    | some [] => isWholeNumber whole
    | some fraction => isDigitGroup fraction && (whole.isEmpty || isWholeNumber whole)

def lowered (text : List Char) : String := String.ofList (text.map Char.toLower)

/-- Whether a text is a real number or one of the words for infinity and for no number. -/
def isReal (text : List Char) : Bool :=
  let magnitude := (Text.splitSign text).2
  lowered magnitude = "inf" || lowered magnitude = "nan" || isMagnitude magnitude

/-- The scalar that a word stands for. An integer with more digits than a numeral may have
stands for none. -/
def Scalar.ofWord (word : List Char) : Except Refusal Scalar :=
  if lowered word = "true" then .ok (.boolean true)
  else if lowered word = "false" then .ok (.boolean false)
  else if lowered word = "null" then .ok .null
  else if isInteger word then
    match Numeral.parse? (String.ofList word) with
    | some value => .ok (.integer value)
    | none => .error .wrongType
  else if isReal word then
    match Double.parse? word with
    | some value => .ok (.real value)
    | none => .error .unparsable
  else .ok (.text (String.ofList word))

/-! ## Lexemes -/

/-- A unit of what is written. -/
inductive Lexeme
  /-- A character of a word. -/
  | plain (c : Char)
  | blank (c : Char)
  /-- A character whose meaning was taken by a backslash. -/
  | escaped (c : Char)
  | quoted (content : List Char)
  /-- A reference with its braces. -/
  | reference (content : List Char)
  /-- A bracket, a comma or an equals sign. -/
  | mark (c : Char)
  /-- A colon with the blanks around it. -/
  | colon (content : List Char)
deriving Repr, DecidableEq

namespace Lexeme

/-- The characters that a unit gives to a word. -/
def content : Lexeme → List Char
  | .plain c | .blank c | .escaped c | .mark c => [c]
  | .quoted content | .reference content | .colon content => content

def isWordCharacter (c : Char) : Bool :=
  c.isAlphanum || "_/-\\+.$%*@?|".toList.contains c

def isEscapable (c : Char) : Bool := "\\()[]\x7b\x7d:=, \t".toList.contains c

def isMark (c : Char) : Bool := "()[]\x7b\x7d,=".toList.contains c

/-- A quoted text without the backslashes that keep its quotes, behind a number of
backslashes. Those in front of a quote and at the end are halved. -/
def unescapeQuotes (quote : Char) : Nat → List Char → List Char
  | backslashes, [] => List.replicate (backslashes / 2) '\\'
  | backslashes, c :: rest =>
    if c = '\\' then unescapeQuotes quote (backslashes + 1) rest
    else
      List.replicate (if c = quote then backslashes / 2 else backslashes) '\\' ++
        c :: unescapeQuotes quote 0 rest

/-- What is being read. -/
inductive Reading
  | anything
  /-- What follows a backslash. -/
  | escape
  /-- What follows a dollar sign. -/
  | dollar
  /-- A quoted text in reverse order, and whether a backslash keeps the next quote. -/
  | quotation (quote : Char) (kept : Bool) (reversed : List Char)
  /-- A reference in reverse order. -/
  | reference (reversed : List Char)
deriving Repr, DecidableEq

/-- What a character gives where anything may be read, and what is read behind it. -/
def start? (c : Char) : Option (List Lexeme × Reading) :=
  if c = '\\' then some ([], .escape)
  else if c = '$' then some ([], .dollar)
  else if c = '\'' || c = '"' then some ([], .quotation c false [])
  else if c = ' ' || c = '\t' then some ([.blank c], .anything)
  else if c = ':' then some ([.colon [c]], .anything)
  else if isMark c then some ([.mark c], .anything)
  else if isWordCharacter c then some ([.plain c], .anything)
  else none

/-- A unit in front of what a character gives. -/
def before (lexeme : Lexeme) (c : Char) : Option (List Lexeme × Reading) :=
  (start? c).map fun (lexemes, reading) => (lexeme :: lexemes, reading)

/-- What a character gives, and what is read behind it. -/
def step? : Reading → Char → Option (List Lexeme × Reading)
  | .anything, c => start? c
  | .escape, c => if isEscapable c then some ([.escaped c], .anything) else before (.plain '\\') c
  | .dollar, c => if c = '\x7b' then some ([], .reference []) else before (.plain '$') c
  | .quotation quote kept reversed, c =>
    if c = quote ∧ !kept then
      some ([.quoted (unescapeQuotes quote 0 reversed.reverse)], .anything)
    else some ([], .quotation quote (c = '\\' && !kept) (c :: reversed))
  | .reference reversed, c =>
    if c = '\x7b' then none
    else if c = '\x7d' then
      if reversed.isEmpty then none
      else some ([.reference ('$' :: '\x7b' :: (reversed.reverse ++ [c]))], .anything)
    else some ([], .reference (c :: reversed))

def scan? : Reading → List Char → Option (List Lexeme)
  | .anything, [] => some []
  | .escape, [] => some [.plain '\\']
  | .dollar, [] => some [.plain '$']
  | .quotation _ _ _, [] | .reference _, [] => none
  | reading, c :: rest =>
    match step? reading c with
    | some (lexemes, reading) => (scan? reading rest).map (lexemes ++ ·)
    | none => none

def isBlank : Lexeme → Bool
  | .blank _ => true
  | _ => false

/-- Whether a mark takes the blanks in front of it. -/
def takesBlanksBefore (c : Char) : Bool := "()],\x7d".toList.contains c

/-- Whether a mark takes the blanks behind it. -/
def takesBlanksBehind (c : Char) : Bool := "([\x7b,".toList.contains c

/-- A unit in front of others, where marks take the blanks beside them and a colon keeps
those as its own. -/
def cons (lexeme : Lexeme) (rest : List Lexeme) : List Lexeme :=
  match lexeme, rest with
  | .blank c, .mark m :: others =>
    if takesBlanksBefore m then .mark m :: others else .blank c :: .mark m :: others
  | .blank c, .colon content :: others => .colon (c :: content) :: others
  | .mark m, rest => .mark m :: if takesBlanksBehind m then rest.dropWhile isBlank else rest
  | .colon content, rest =>
    .colon (content ++ (rest.takeWhile isBlank).flatMap Lexeme.content) :: rest.dropWhile isBlank
  | lexeme, rest => lexeme :: rest

/-- The units of a text, with blanks only where they count. -/
def ofText? (text : List Char) : Option (List Lexeme) :=
  (scan? .anything text).map (List.foldr cons [])

def isWordPart : Lexeme → Bool
  | .plain _ | .blank _ | .escaped _ | .reference _ | .colon _ => true
  | .quoted _ | .mark _ => false

def isKeyPart : Lexeme → Bool
  | .plain _ | .blank _ | .escaped _ => true
  | _ => false

/-- The character of a word that stands for itself. -/
def plain? : Lexeme → Option Char
  | .plain c => some c
  | _ => none

end Lexeme

/-! ## Words -/

/-- The scalar that units of a word stand for, without the blanks around them. One whose
characters do not all stand for themselves is a text. -/
def Scalar.ofLexemes (lexemes : List Lexeme) : Except Refusal Scalar :=
  let word := Text.trimmed Lexeme.isBlank lexemes
  if word.isEmpty then .error .unparsable
  else
    match word.mapM Lexeme.plain? with
    | some characters => Scalar.ofWord characters
    | none => .ok (.text (String.ofList (word.flatMap Lexeme.content)))

/-- Whether a text is a name: letters, digits, underscores and hyphens, but no digit or
hyphen at its start. -/
def isName : List Char → Bool
  | [] => false
  | c :: rest =>
    (c.isAlpha || c = '_') && rest.all fun c => c.isAlphanum || c = '_' || c = '-'

/-- The name that units of a word are. -/
def nameOf? (lexemes : List Lexeme) : Option String := do
  let characters ← lexemes.mapM Lexeme.plain?
  match isName characters, Scalar.ofWord characters with
  | true, .ok (.text name) => some name
  | _, _ => none

/-! ## Functions -/

mutual

/-- The settings with a function applied to all scalars but keys, if it has a value for
each. -/
def mapScalars? (f : Scalar → Option Scalar) : Settings → Option Settings
  | .scalar value => (f value).map Settings.scalar
  | .list items => (mapItems? f items).map Settings.list
  | .group entries => (mapEntries? f entries).map Settings.group
  | .nullGroup => none

def mapItems? (f : Scalar → Option Scalar) : List Settings → Option (List Settings)
  | [] => some []
  | settings :: rest =>
    match mapScalars? f settings, mapItems? f rest with
    | some settings, some rest => some (settings :: rest)
    | _, _ => none

def mapEntries? (f : Scalar → Option Scalar) :
    List (Scalar × Settings) → Option (List (Scalar × Settings))
  | [] => some []
  | (key, settings) :: rest =>
    match mapScalars? f settings, mapEntries? f rest with
    | some settings, some rest => some ((key, settings) :: rest)
    | _, _ => none

end

namespace Scalar

/-- The integer nearest to a scalar towards nought. -/
def toInteger? : Scalar → Option Scalar
  | .null => none
  | .boolean value => some (.integer (if value then 1 else 0))
  | .integer value => some (.integer value)
  | .real value => value.toRat?.map fun x => .integer (x.num.tdiv x.den)
  | .text content => (Numeral.parse? content).map Scalar.integer

def toReal? : Scalar → Option Scalar
  | .null => none
  | .boolean value => some (.real (.ofInt (if value then 1 else 0)))
  | .integer value =>
    let value := Double.ofInt value
    if value.isFinite then some (.real value) else none
  | .real value => some (.real value)
  | .text content => (Double.parse? (Numeral.trimMargins content.toList)).map Scalar.real

/-- The truth value of a scalar: whether a number is not nought, or the one that a word
names. -/
def toBoolean? : Scalar → Option Scalar
  | .null => none
  | .boolean value => some (.boolean value)
  | .integer value => some (.boolean (value != 0))
  | .real value => some (.boolean (value.toRat? != some 0))
  | .text content =>
    if lowered content.toList = "true" then some (.boolean true)
    else if lowered content.toList = "false" then some (.boolean false)
    else none

/-- The text of a scalar, that of a truth value in lower-case letters. -/
def toText? : Scalar → Option Scalar
  | .null => none
  | .boolean value => some (.text (if value then "true" else "false"))
  | other => some (.text other.print)

end Scalar

/-- A function that makes scalars of one type from others. -/
def conversion? (name : String) : Option (Scalar → Option Scalar) :=
  if name = "int" then some Scalar.toInteger?
  else if name = "float" then some Scalar.toReal?
  else if name = "bool" then some Scalar.toBoolean?
  else if name = "str" then some Scalar.toText?
  else none

/-- The functions that give alternatives. -/
def alternativeFunctions : List String :=
  ["choice", "range", "interval", "glob", "sort", "shuffle", "tag"]

/-- The settings that are written, unless they are alternatives. -/
def Value.settings? : Value → Option Settings
  | .single value => some value
  | .alternatives => none

/-- A list of values. One with alternatives in it has alternatives itself. -/
def Value.ofItems (items : List Value) : Value :=
  match items.mapM Value.settings? with
  | some items => .single (.list items)
  | none => .alternatives

/-- The value that a conversion is applied to: that of its only parameter, or all values
without a name, as a list if there are several. -/
def convertedValue? (arguments : List (Option String × Value)) : Option Value :=
  match arguments with
  | [] => none
  | [(none, value)] => some value
  | [(some name, value)] => if name = "value" then some value else none
  | arguments =>
    if arguments.all fun (name, _) => name.isNone then
      some (.ofItems (arguments.map Prod.snd))
    else none

/-- The value of a function for its arguments. -/
def callFunction (name : String) (arguments : List (Option String × Value)) :
    Except Refusal Value :=
  match conversion? name with
  | some f =>
    match convertedValue? arguments with
    | some (.single value) =>
      match mapScalars? f value with
      | some value => .ok (.single value)
      | none => .error .unparsable
    | some .alternatives => .ok .alternatives
    | none => .error .unparsable
  | none =>
    if alternativeFunctions.contains name && !arguments.isEmpty then .ok .alternatives
    else .error .unparsable

/-! ## Values -/

/-- A part is read from units together with the units behind it. -/
abbrev Reader (α : Type) := List Lexeme → Except Refusal (α × List Lexeme)

/-- Parts that are separated by commas and followed by a bracket. Of parts there are no more
than units. -/
def readSeparated {α : Type} (closing : Char) (part : Reader α) :
    Nat → List Lexeme → Except Refusal (List α × List Lexeme)
  | 0, _ => .error .unparsable
  | limit + 1, lexemes => do
    let (first, rest) ← part lexemes
    match rest with
    | .mark c :: rest =>
      if c = closing then return ([first], rest)
      else if c = ',' then
        let (others, rest) ← readSeparated closing part limit rest
        return (first :: others, rest)
      else .error .unparsable
    | _ => .error .unparsable

/-- Parts between brackets, of which the opening one is read. There may be none. -/
def readBracketed {α : Type} (closing : Char) (part : Reader α)
    (lexemes : List Lexeme) : Except Refusal (List α × List Lexeme) :=
  match lexemes with
  | .mark c :: rest =>
    if c = closing then .ok ([], rest) else readSeparated closing part lexemes.length lexemes
  | _ => readSeparated closing part lexemes.length lexemes

def readEntry (value : Reader Value) (lexemes : List Lexeme) :
    Except Refusal ((Scalar × Value) × List Lexeme) := do
  let key ← Scalar.ofLexemes (lexemes.takeWhile Lexeme.isKeyPart)
  match lexemes.dropWhile Lexeme.isKeyPart with
  | .colon _ :: rest =>
    let (value, rest) ← value rest
    return ((key, value), rest)
  | _ => .error .unparsable

def readArgument (value : Reader Value) (lexemes : List Lexeme) :
    Except Refusal ((Option String × Value) × List Lexeme) := do
  let word := lexemes.takeWhile Lexeme.isWordPart
  match nameOf? word, lexemes.dropWhile Lexeme.isWordPart with
  | some name, .mark '=' :: rest =>
    let (value, rest) ← value rest
    return ((some name, value), rest)
  | _, _ =>
    let (value, rest) ← value lexemes
    return ((none, value), rest)

/-- A section with entries, of which later ones with the same key count. -/
def Value.ofEntries (entries : List (Scalar × Value)) : Value :=
  let settings? := entries.mapM fun (key, value) => value.settings?.map fun settings => (key, settings)
  match settings? with
  | some entries =>
    .single (.group (entries.foldl (fun entries (key, settings) =>
      NameMap.insertEntry key settings entries) []))
  | none => .alternatives

/-- A value at the start of units. Its brackets are no deeper than a limit. -/
def readValue : Nat → List Lexeme → Except Refusal (Value × List Lexeme)
  | 0, _ => .error .unparsable
  | _ + 1, .quoted content :: rest => .ok (.single (text (String.ofList content)), rest)
  | depth + 1, .mark '[' :: rest => do
    let (items, rest) ← readBracketed ']' (readValue depth) rest
    return (.ofItems items, rest)
  | depth + 1, .mark '\x7b' :: rest => do
    let (entries, rest) ← readBracketed '\x7d' (readEntry (readValue depth)) rest
    return (.ofEntries entries, rest)
  | depth + 1, lexemes =>
    let word := lexemes.takeWhile Lexeme.isWordPart
    match lexemes.dropWhile Lexeme.isWordPart with
    | .mark '(' :: rest =>
      match nameOf? word with
      | some name => do
        let (arguments, rest) ← readBracketed ')' (readArgument (readValue depth)) rest
        return (← callFunction name arguments, rest)
      | none => .error .unparsable
    | rest => do return (.single (.scalar (← Scalar.ofLexemes word)), rest)

/-- Values that are separated by commas and end the text. -/
def readAlternatives : Nat → List Lexeme → Except Refusal Value
  | 0, _ => .error .unparsable
  | limit + 1, lexemes => do
    let (first, rest) ← readValue lexemes.length lexemes
    match rest with
    | [] => return first
    | .mark ',' :: rest =>
      let _ ← readAlternatives limit rest
      return .alternatives
    | _ => .error .unparsable

/-- The value that is written in a text. An empty text is the empty value. -/
def Value.parse (written : List Char) : Except Refusal Value :=
  if written.isEmpty then .ok (.single (text ""))
  else
    match Lexeme.ofText? written with
    | some lexemes => readAlternatives (lexemes.length + 1) lexemes
    | none => .error .unparsable

end DesignByNumbers.Settings
