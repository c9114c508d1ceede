import DesignByNumbers.Settings
import DesignByNumbers.Text.Part

/-!
# Settings.Reference — texts that refer to other settings

A text may hold references to settings by their paths, from the root or from a section
around the text. A text that is nothing but a reference stands for the settings it leads to;
in any other text a reference stands for the text of those. Backslashes in front of a
reference are halved, and an odd one keeps it from being one.
-/

namespace DesignByNumbers.Settings

/-! ## Reading -/

/-- A path that a text refers to. -/
inductive Reference
  /-- A path from the root. -/
  | absolute (path : List String)
  /-- A path from the section around the text, or from one that lies further out. -/
  | relative (levels : Nat) (path : List String)
  /-- What is no setting. -/
  | other
deriving Repr, DecidableEq

inductive TextPart
  | plain (content : String)
  | reference (reference : Reference)
deriving Repr, DecidableEq

def isSpace (c : Char) : Bool := c = ' ' || c = '\t'

def isReferenceCharacter (c : Char) : Bool :=
  !("\\\x7b\x7d()[]:.'\"".toList.contains c || isSpace c)

/-- The names along a path that are separated by points. -/
def pathNames? (path : List Char) : Option (List String) :=
  (path.splitOn '.').mapM fun name =>
    if !name.isEmpty && name.all isReferenceCharacter then some (String.ofList name) else none

/-- The reference that stands between its braces. -/
def Reference.parse? (content : List Char) : Option Reference :=
  let content := Text.trimmed isSpace content
  if content.contains ':' then some .other
  else
    let levels := (content.takeWhile (· = '.')).length
    (pathNames? (content.dropWhile (· = '.'))).map fun path =>
      if levels = 0 then .absolute path else .relative (levels - 1) path

/-- A plain part in front of others, unless it is empty. Its characters are in reverse
order. -/
def consPlain (reversed : List Char) (parts : List TextPart) : List TextPart :=
  if reversed.isEmpty then parts else .plain (String.ofList reversed.reverse) :: parts

/-- The parts of a text behind the characters of a plain part, in reverse order, or of a
reference, in reverse order as well. -/
def partsFrom? : List Char → Option (List Char) → List Char → Option (List TextPart)
  | plain, none, [] => some (consPlain plain [])
  | _, some _, [] => none
  | plain, none, '$' :: '\x7b' :: rest =>
    let backslashes := (plain.takeWhile (· = '\\')).length
    let kept := List.replicate (backslashes / 2) '\\' ++ plain.drop backslashes
    if backslashes % 2 = 1 then partsFrom? ('\x7b' :: '$' :: kept) none rest
    else (partsFrom? [] (some []) rest).map (consPlain kept)
  | plain, none, c :: rest => partsFrom? (c :: plain) none rest
  | plain, some content, c :: rest =>
    if c = '\x7d' then
      match Reference.parse? content.reverse with
      | some reference => (partsFrom? [] none rest).map (.reference reference :: ·)
      | none => none
    else partsFrom? plain (some (c :: content)) rest

/-- Whether a text may hold references. -/
def holdsReference : List Char → Bool
  | '$' :: '\x7b' :: _ => true
  | _ :: rest => holdsReference rest
  | [] => false

def textParts? (content : String) : Option (List TextPart) :=
  if holdsReference content.toList then partsFrom? [] none content.toList
  else some [.plain content]

/-! ## Well-formed settings -/

/-- Whether a scalar can be a setting: its references can be read. -/
def Scalar.isWellFormed : Scalar → Bool
  | .text content => (textParts? content).isSome
  | _ => true

mutual

/-- Whether settings can be used: all references can be read, and no key is null. -/
def isWellFormed : Settings → Bool
  | .scalar value => value.isWellFormed
  | .list items => areWellFormed items
  | .group entries => areWellFormedEntries entries
  | .nullGroup => true

def areWellFormed : List Settings → Bool
  | [] => true
  | settings :: rest => settings.isWellFormed && areWellFormed rest

def areWellFormedEntries : List (Scalar × Settings) → Bool
  | [] => true
  | (key, settings) :: rest =>
    key != .null && settings.isWellFormed && areWellFormedEntries rest

end

/-! ## Resolution -/

/-- The path that a reference leads to from the path of its text. -/
def Reference.target : Reference → List String → Except Refusal (List String)
  | .absolute path, _ => .ok path
  | .relative levels path, place =>
    if levels < place.length then .ok (place.take (place.length - 1 - levels) ++ path)
    else .error .brokenReference
  | .other, _ => .error .unknownReference

/-- The settings that stand in the place of a text with parts, once those for its references
are known. -/
def assemble (resolve : List String → Settings → Except Refusal Settings) (root : Settings)
    (place : List String) (parts : List TextPart) : Except Refusal Settings := do
  let follow (reference : Reference) : Except Refusal Settings := do
    let target ← reference.target place
    match root.select? target with
    | none => .error .brokenReference
    | some (.scalar value) =>
      if value = .notGiven then .error .referenceToNotGiven else resolve target (.scalar value)
    | some settings => resolve target settings
  match parts with
  | [.reference reference] => follow reference
  | parts =>
    let texts ← parts.mapM fun part => match part with
      | .plain content => .ok content
      | .reference reference => (follow reference).map print
    return text (String.join texts)

/-- The settings at a path with all references in them replaced, in a number of steps. -/
def resolveFrom (root : Settings) : Nat → List String → Settings → Except Refusal Settings
  | 0, _, _ => .error .circularReference
  | steps + 1, place, .scalar (.text content) =>
    match textParts? content with
    | some parts => assemble (resolveFrom root steps) root place parts
    | none => .error .brokenReference
  | _ + 1, _, .scalar value => .ok (.scalar value)
  | steps + 1, place, .list items => do
    let items ← items.zipIdx.mapM fun (item, index) =>
      resolveFrom root steps (place ++ [index.repr]) item
    return .list items
  | steps + 1, place, .group entries => do
    let entries ← entries.mapM fun (key, settings) => do
      return (key, ← resolveFrom root steps (place ++ [key.print]) settings)
    return .group entries
  | _ + 1, _, .nullGroup => .ok .nullGroup

mutual

def count : Settings → Nat
  | .scalar _ | .nullGroup => 1
  | .list items => 1 + countItems items
  | .group entries => 1 + countEntries entries

def countItems : List Settings → Nat
  | [] => 0
  | settings :: rest => settings.count + countItems rest

def countEntries : List (Scalar × Settings) → Nat
  | [] => 0
  | (_, settings) :: rest => settings.count + countEntries rest

end

/-- The settings at a path of a tree with all references in them replaced. A step leads to
an item, an entry or the target of a reference, so that one which needs more steps than
there are pairs of settings leads back to where it was. -/
def resolve (root : Settings) (place : List String) (settings : Settings) :
    Except Refusal Settings :=
  resolveFrom root ((root.count + 1) * (root.count + 1)) place settings

end DesignByNumbers.Settings
