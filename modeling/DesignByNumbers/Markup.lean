import DesignByNumbers.NameMap
import DesignByNumbers.Numeral
import DesignByNumbers.Text.Quoted

/-!
# Markup — trees of elements and their text

An element has a tag, attributes in order and children in order. Its text writes every
attribute as a name and a quoted value and closes every element with a tag of its own.
Nothing is escaped.
-/

namespace DesignByNumbers

namespace Markup

inductive Value
  | text (content : String)
  | integer (value : Int)
deriving Repr, DecidableEq, Inhabited

/-- The text of a value, unless it is an integer without one. -/
def Value.print? : Value → Option String
  | .text content => some content
  | .integer value => Numeral.print? value

end Markup

/-- A tree of markup. -/
inductive Element where
  | node (tag : String) (attributes : NameMap Markup.Value) (children : List Element)
deriving Repr, Inhabited

namespace Markup

/-- An attribute: its name and its value between double quotes. -/
def printAttribute? (entry : String × Value) : Option String :=
  entry.2.print?.map fun content => entry.1 ++ "=\"" ++ content ++ "\""

/-- The attributes of an element, separated by spaces. -/
def printAttributes? (attributes : NameMap Value) : Option String :=
  (attributes.toList.mapM printAttribute?).map (String.intercalate " ")

/-- The tag that opens an element. There is no space in it without attributes. -/
def openingTag (tag attributes : String) : String :=
  if attributes.isEmpty then "<" ++ tag ++ ">" else "<" ++ tag ++ " " ++ attributes ++ ">"

def closingTag (tag : String) : String := "</" ++ tag ++ ">"

end Markup

namespace Element

def tag : Element → String
  | .node tag _ _ => tag

def attributes : Element → NameMap Markup.Value
  | .node _ attributes _ => attributes

def children : Element → List Element
  | .node _ _ children => children

mutual

/-- The text of a tree, unless an attribute has none. -/
def print? : Element → Option String
  | .node tag attributes children => do
    let opening ← Markup.printAttributes? attributes
    let inner ← printAll? children
    return Markup.openingTag tag opening ++ String.join inner ++ Markup.closingTag tag

def printAll? : List Element → Option (List String)
  | [] => some []
  | element :: rest => do
    let text ← print? element
    let texts ← printAll? rest
    return text :: texts

end

end Element

end DesignByNumbers
