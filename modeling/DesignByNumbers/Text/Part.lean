/-!
# Text.Part — parts of texts

A text is cut at its first mark or behind its sign, or freed from what stands around it.
-/

namespace DesignByNumbers.Text

/-- What stands before the first mark of a text, and what stands behind it if there is
one. -/
def cut {α : Type} (isMark : α → Bool) : List α → List α × Option (List α)
  | [] => ([], none)
  | c :: rest =>
    if isMark c then ([], some rest)
    else
      let (before, behind) := cut isMark rest
      (c :: before, behind)

def trimmed {α : Type} (surrounds : α → Bool) (text : List α) : List α :=
  ((text.dropWhile surrounds).reverse.dropWhile surrounds).reverse

/-- Whether a text starts with a minus sign, and what stands behind its sign. -/
def splitSign : List Char → Bool × List Char
  | '-' :: rest => (true, rest)
  | '+' :: rest => (false, rest)
  | rest => (false, rest)

end DesignByNumbers.Text
