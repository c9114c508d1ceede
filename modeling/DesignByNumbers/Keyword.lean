/-!
# Keyword — the words with a built-in meaning

Ten words begin a built-in statement: six of them draw, assign, loop or define, and four
guard a block with a comparison.
-/

namespace DesignByNumbers

/-- The comparisons that guard a block. The first two compare texts, the others
integers. -/
inductive Comparison
  | same
  | notSame
  | smaller
  | notSmaller
deriving Repr, DecidableEq, Inhabited

def Comparison.text : Comparison → String
  | .same => "Same"
  | .notSame => "NotSame"
  | .smaller => "Smaller"
  | .notSmaller => "NotSmaller"

/-- The words that begin a built-in statement. -/
inductive Keyword
  | paper
  | pen
  | line
  | assign
  | loop
  | define
  | check (comparison : Comparison)
deriving Repr, DecidableEq, Inhabited

namespace Keyword

def text : Keyword → String
  | .paper => "Paper"
  | .pen => "Pen"
  | .line => "Line"
  | .assign => "Set"
  | .loop => "Repeat"
  | .define => "Command"
  | .check comparison => comparison.text

def all : List Keyword :=
  [.paper, .pen, .line, .assign, .loop, .define,
    .check .same, .check .notSame, .check .smaller, .check .notSmaller]

def ofText? (text : String) : Option Keyword :=
  all.find? fun keyword => keyword.text == text

end Keyword

end DesignByNumbers
