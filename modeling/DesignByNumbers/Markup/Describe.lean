import DesignByNumbers.Markup
import DesignByNumbers.Scope

/-!
# Markup.Describe — trees as shown to a developer

The description of a tree shows integers bare and texts quoted, in contrast to its markup,
where both look alike.
-/

namespace DesignByNumbers

/-- The value of an attribute as shown to a developer. -/
def Markup.Value.describe? : Markup.Value → Option String
  | .text content => some (Text.quoted content)
  | .integer value => Numeral.print? value

def Markup.describeAttributes? (attributes : NameMap Markup.Value) : Option String := do
  let entries ← attributes.toList.mapM fun (name, value) => do return (name, ← value.describe?)
  return describeEntries entries

namespace Element

mutual

/-- The tree as shown to a developer, unless it holds an integer without a text. -/
def describe? : Element → Option String
  | .node tag attributes children => do
    let attributeText ← Markup.describeAttributes? attributes
    let inner ← describeAll? children
    return "ShapeNode('" ++ tag ++ "', " ++ attributeText ++ ", [" ++
      String.intercalate ", " inner ++ "])"

def describeAll? : List Element → Option (List String)
  | [] => some []
  | element :: rest => do
    let text ← describe? element
    let texts ← describeAll? rest
    return text :: texts

end

end Element

end DesignByNumbers
