import DesignByNumbers.Keyword
import DesignByNumbers.Proofs.Block
import DesignByNumbers.Proofs.Tree

/-!
# Proofs.Tree.Statement — programs as trees

A statement has a tree too, in which the blocks it contains are lists of statements. A program
is such a list.

* `isText_programContents` — the text of a program can stand in a block, at any depth.
-/

namespace DesignByNumbers.Tree

open Token (Content)

/-- A word that is no keyword. -/
abbrev Name := { word : Word // Keyword.ofText? word.val = none }

/-- The tree of a statement. -/
inductive Statement
  | paper (colour : Value)
  | pen (colour : Value)
  | line (x0 y0 x1 y1 : Value)
  | dot (x y colour : Value)
  | assign (target : Word) (value : Value)
  | loop (counter : Word) (start finish : Value) (body : List Statement)
  | check (comparison : Comparison) (left right : Value) (body : List Statement)
  | define (name : Word) (parameters : List Word) (body : List Statement)
  | call (name : Name) (arguments : List Value)

/-! ## Written form -/

/-- A text between braces. -/
def block (contents : List Content) : List Content :=
  .symbol "\x7b" :: (contents ++ [.symbol "\x7d"])

mutual

/-- The tokens of a statement, wherever they stand. -/
def Statement.contents : Statement → List Content
  | .paper colour => .word Keyword.paper.text :: colour.contents
  | .pen colour => .word Keyword.pen.text :: colour.contents
  | .line x0 y0 x1 y1 =>
    .word Keyword.line.text :: (x0.contents ++ (y0.contents ++ (x1.contents ++ y1.contents)))
  | .dot x y colour =>
    .word Keyword.assign.text :: .symbol "[" ::
      (x.contents ++ (y.contents ++ .symbol "]" :: colour.contents))
  | .assign target value =>
    .word Keyword.assign.text :: .word target.val :: value.contents
  | .loop counter start finish body =>
    .word Keyword.loop.text :: .word counter.val ::
      (start.contents ++ (finish.contents ++ block (programContents body)))
  | .check comparison left right body =>
    .word comparison.text :: .symbol "?" ::
      (left.contents ++ (right.contents ++ block (programContents body)))
  | .define name parameters body =>
    .word Keyword.define.text :: .word name.val ::
      (parameters.map (fun parameter => .word parameter.val) ++ block (programContents body))
  | .call name arguments =>
    .word name.val.val :: arguments.flatMap Value.contents

/-- The tokens of a program, wherever they stand. -/
def programContents : List Statement → List Content
  | [] => []
  | statement :: rest => statement.contents ++ programContents rest

end

theorem Statement.contents_ne_nil (statement : Statement) : statement.contents ≠ [] := by
  cases statement <;> simp [contents]

/-! ## Shape -/

theorem Value.isText_contents (tree : Value) : Block.IsText tree.contents := by
  induction tree with
  | number digits => exact Block.IsText.nil.cons digits.property (by simp) (by simp)
  | name word => exact Block.IsText.nil.word word.property
  | negation operand ih => exact ih.cons (by decide +kernel) (by decide) (by decide)
  | calculation left operation right ihLeft ihRight =>
    have hClosing : Block.IsText [.symbol ")"] :=
      Block.IsText.nil.cons (by decide +kernel) (by decide) (by decide)
    refine .cons (by decide +kernel) (by decide) (by decide) (ihLeft.append ?_)
    cases operation <;>
      exact (ihRight.append hClosing).cons (by decide +kernel) (by decide) (by decide)

theorem isText_keyword (keyword : Keyword) {contents : List Content} (h : Block.IsText contents) :
    Block.IsText (.word keyword.text :: contents) := by
  refine h.word ?_
  cases keyword with
  | check comparison => cases comparison <;> decide +kernel
  | _ => decide +kernel

theorem isText_words {words : List Word} {contents : List Content} (h : Block.IsText contents) :
    Block.IsText (words.map (fun word => .word word.val) ++ contents) := by
  induction words with
  | nil => exact h
  | cons word words ih => exact ih.word word.property

theorem isText_values (values : List Value) : Block.IsText (values.flatMap Value.contents) := by
  induction values with
  | nil => exact .nil
  | cons tree values ih => exact tree.isText_contents.append ih

mutual

/-- The text of a statement can stand in a block. -/
theorem Statement.isText_contents : (statement : Statement) → Block.IsText statement.contents
  | .paper colour => isText_keyword .paper colour.isText_contents
  | .pen colour => isText_keyword .pen colour.isText_contents
  | .line x0 y0 x1 y1 =>
    isText_keyword .line (x0.isText_contents.append (y0.isText_contents.append
      (x1.isText_contents.append y1.isText_contents)))
  | .dot x y colour =>
    have hColour : Block.IsText (.symbol "]" :: colour.contents) :=
      colour.isText_contents.cons (by decide +kernel) (by decide) (by decide)
    isText_keyword .assign ((x.isText_contents.append (y.isText_contents.append hColour)).cons
      (by decide +kernel) (by decide) (by decide))
  | .assign target value => isText_keyword .assign (value.isText_contents.word target.property)
  | .loop counter start finish body =>
    isText_keyword .loop ((start.isText_contents.append (finish.isText_contents.append
      (isText_programContents body).braces)).word counter.property)
  | .check comparison left right body =>
    isText_keyword (.check comparison) ((left.isText_contents.append (right.isText_contents.append
      (isText_programContents body).braces)).cons (by decide +kernel) (by decide) (by decide))
  | .define name parameters body =>
    isText_keyword .define ((isText_words (isText_programContents body).braces).word name.property)
  | .call name arguments => (isText_values arguments).word name.val.property

/-- The text of a program can stand in a block. -/
theorem isText_programContents : (body : List Statement) → Block.IsText (programContents body)
  | [] => .nil
  | statement :: rest => statement.isText_contents.append (isText_programContents rest)

end

end DesignByNumbers.Tree
