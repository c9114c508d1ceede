import DesignByNumbers.Proofs.Markup.Readable

/-!
# Proofs.Markup.Reader — a tree read back from its text

A text is read one character at a time. What has to be kept in mind are the elements that are open,
each with the attributes and the children read so far, and what the next character is part of. The
reader knows nothing but the characters: a name ends at the first of those that stand around names, a
value ends at its closing quote, whatever else is in it, and a closing tag has to name the element
that it closes.

What is read of a value is its text, so that a tree is read back up to integers that look like texts.

* `Reading.step`, `Element.read?` — the reader.
* `reads_opening`, `reads_closing` — the two tags of an element.
* `reads_chars`, `reads_charsAll` — trees and their children, in front of any other text.
* `print?_readable` — trees are told apart by their texts, and read back from them.
-/

namespace DesignByNumbers

/-! ## The reader -/

namespace Markup

/-- Attributes whose values are texts. -/
def textAttributes (entries : List (String × String)) : NameMap Value :=
  ⟨entries.map fun entry => (entry.1, .text entry.2)⟩

/-- An element of which attributes and children have been read. -/
structure Frame where
  tag : String
  entries : List (String × String)
  children : List Element

namespace Frame

/-- The element that has been read when its closing tag comes. -/
def element (frame : Frame) : Element :=
  .node frame.tag (textAttributes frame.entries) frame.children

def addEntry (frame : Frame) (name content : List Char) : Frame :=
  { frame with entries := frame.entries ++ [(String.ofList name, String.ofList content)] }

def addChild (frame : Frame) (child : Element) : Frame :=
  { frame with children := frame.children ++ [child] }

/-- What stands around all elements of a text. -/
def text : Frame := ⟨"", [], []⟩

end Frame

/-- What the next character is part of, with the characters that have been read of it. -/
inductive Phase
  | content
  | bracket
  | tag (name : List Char)
  | attribute (name : List Char)
  | sign (name : List Char)
  | value (name content : List Char)
  | quote
  | closing (name : List Char)

/-- A text that has been read up to some point: the elements around the innermost one that is open,
from the inside to the outside, that one, and what comes next. -/
structure Reading where
  around : List Frame
  frame : Frame
  phase : Phase

namespace Reading

/-- Inside a new element. -/
def enter (reading : Reading) (name : List Char) (phase : Phase) : Reading :=
  ⟨reading.frame :: reading.around, ⟨String.ofList name, [], []⟩, phase⟩

/-- Behind the innermost element, if it has the name in the closing tag. -/
def leave? (reading : Reading) (name : List Char) : Option Reading :=
  match reading.around with
  | [] => none
  | outer :: around =>
    if reading.frame.tag = String.ofList name then
      some ⟨around, outer.addChild reading.frame.element, .content⟩
    else none

/-- Reads one more character. -/
def step (reading : Reading) (c : Char) : Option Reading :=
  match reading.phase with
  | .content => if c = '<' then some { reading with phase := .bracket } else none
  | .bracket => some { reading with phase := if c = '/' then .closing [] else .tag [c] }
  | .tag name =>
    if c = ' ' then some (reading.enter name (.attribute []))
    else if c = '>' then some (reading.enter name .content)
    else some { reading with phase := .tag (name ++ [c]) }
  | .attribute name =>
    some { reading with phase := if c = '=' then .sign name else .attribute (name ++ [c]) }
  | .sign name => if c = '"' then some { reading with phase := .value name [] } else none
  | .value name content =>
    if c = '"' then some { reading with frame := reading.frame.addEntry name content, phase := .quote }
    else some { reading with phase := .value name (content ++ [c]) }
  | .quote =>
    if c = ' ' then some { reading with phase := .attribute [] }
    else if c = '>' then some { reading with phase := .content }
    else none
  | .closing name =>
    if c = '>' then reading.leave? name
    else some { reading with phase := .closing (name ++ [c]) }

/-- The one element that a text has been found to be. -/
def result? : Reading → Option Element
  | ⟨[], ⟨_, _, [element]⟩, .content⟩ => some element
  | _ => none

end Reading

end Markup

/-- Reads a tree back from its text. -/
def Element.read? (text : String) : Option Element := do
  let reading ← text.toList.foldlM Markup.Reading.step ⟨[], .text, .content⟩
  reading.result?

/-! ## Tags -/

namespace Markup

/-- Characters lead from one point of a text to another one. -/
def Reads (chars : List Char) (reading reading' : Reading) : Prop :=
  chars.foldlM Reading.step reading = some reading'

section Reads

variable {chars chars' : List Char} {reading between reading' : Reading}

theorem reads_nil (reading : Reading) : Reads [] reading reading :=
  rfl

theorem Reads.append (h : Reads chars reading between) (h' : Reads chars' between reading') :
    Reads (chars ++ chars') reading reading' := by
  rw [Reads, List.foldlM_append, h]
  exact h'

theorem Reads.cons {c : Char} (hStep : reading.step c = some between)
    (h : Reads chars between reading') : Reads (c :: chars) reading reading' := by
  rw [Reads, List.foldlM_cons, hStep]
  exact h

theorem reads_singleton {c : Char} (hStep : reading.step c = some reading') :
    Reads [c] reading reading' :=
  .cons hStep (reads_nil reading')

end Reads

variable {around : List Frame} {frame : Frame}

/-- A part of a tag is read up to a character that ends it. -/
theorem reads_part {stops : List Char} {phase : List Char → Phase}
    (hStep : ∀ before c, c ∉ stops →
      Reading.step ⟨around, frame, phase before⟩ c = some ⟨around, frame, phase (before ++ [c])⟩)
    (before : List Char) {part : List Char} (h : ∀ c ∈ part, c ∉ stops) :
    Reads part ⟨around, frame, phase before⟩ ⟨around, frame, phase (before ++ part)⟩ := by
  induction part generalizing before with
  | nil =>
    rw [List.append_nil]
    exact reads_nil _
  | cons c rest ih =>
    obtain ⟨hFirst, hRest⟩ := List.forall_mem_cons.mp h
    rw [List.append_cons]
    exact .cons (hStep before c hFirst) (ih (before ++ [c]) hRest)

/-- An attribute is read where the space in front of it leads on to its name. -/
theorem reads_attribute {entry : String × String} (h : IsAttribute entry) {reading : Reading}
    (hSpace : reading.step ' ' = some ⟨around, frame, .attribute []⟩) :
    Reads (attributeChars entry) reading
      ⟨around, { frame with entries := frame.entries ++ [entry] }, .quote⟩ := by
  have hName : Reads entry.1.toList ⟨around, frame, .attribute []⟩
      ⟨around, frame, .attribute entry.1.toList⟩ := by
    refine reads_part (fun before c hc => ?_) [] h.name.not_mem
    have hSign : c ≠ '=' := fun hEq => hc (by simp [hEq])
    simp [Reading.step, hSign]
  have hValue : Reads entry.2.toList ⟨around, frame, .value entry.1.toList []⟩
      ⟨around, frame, .value entry.1.toList entry.2.toList⟩ := by
    refine reads_part (fun before c hc => ?_) [] h.not_mem
    have hQuote : c ≠ '"' := fun hEq => hc (by simp [hEq])
    simp [Reading.step, hQuote]
  refine .cons hSpace (hName.append (.cons rfl (.cons rfl (hValue.append (reads_singleton ?_)))))
  simp [Reading.step, Frame.addEntry]

/-- The attributes of a tag behind the first one, up to its end. -/
theorem reads_attributes {entries : List (String × String)} (h : ∀ entry ∈ entries, IsAttribute entry) :
    Reads (entries.flatMap attributeChars ++ ['>']) ⟨around, frame, .quote⟩
      ⟨around, { frame with entries := frame.entries ++ entries }, .content⟩ := by
  induction entries generalizing frame with
  | nil =>
    rw [List.append_nil]
    exact reads_singleton rfl
  | cons entry rest ih =>
    obtain ⟨hEntry, hRest⟩ := List.forall_mem_cons.mp h
    rw [List.flatMap_cons, List.append_assoc, List.append_cons frame.entries]
    exact (reads_attribute hEntry rfl).append (ih hRest)

variable (around frame)

/-- The tag with which an element starts leads into it. -/
theorem reads_opening {tag : String} (hTag : IsName tag) {entries : List (String × String)}
    (hEntries : ∀ entry ∈ entries, IsAttribute entry) :
    Reads ('<' :: (tag.toList ++ (entries.flatMap attributeChars ++ ['>']))) ⟨around, frame, .content⟩
      ⟨frame :: around, ⟨tag, entries, []⟩, .content⟩ := by
  have hName : Reads tag.toList ⟨around, frame, .bracket⟩ ⟨around, frame, .tag tag.toList⟩ := by
    have hFree := hTag.not_mem
    obtain ⟨first, rest, hChars⟩ := List.exists_cons_of_ne_nil hTag.ne_nil
    rw [hChars] at hFree ⊢
    obtain ⟨hFirst, hRest⟩ := List.forall_mem_cons.mp hFree
    -- the slash of a closing tag is not the start of a name
    have hSlash : first ≠ '/' := fun hEq => hFirst (by simp [hEq])
    refine .cons (by simp [Reading.step, hSlash]) (reads_part (fun before c hc => ?_) [first] hRest)
    have hSpace : c ≠ ' ' := fun hEq => hc (by simp [hEq])
    have hEnd : c ≠ '>' := fun hEq => hc (by simp [hEq])
    simp [Reading.step, hSpace, hEnd]
  refine .cons rfl (hName.append ?_)
  -- without attributes the tag ends behind its name, else the first of them starts there
  cases entries with
  | nil => exact reads_singleton (by simp [Reading.step, Reading.enter])
  | cons entry rest =>
    obtain ⟨hEntry, hRest⟩ := List.forall_mem_cons.mp hEntries
    have hSpace : Reading.step ⟨around, frame, .tag tag.toList⟩ ' ' =
        some ⟨frame :: around, ⟨tag, [], []⟩, .attribute []⟩ := by
      simp [Reading.step, Reading.enter]
    rw [List.flatMap_cons, List.append_assoc]
    exact (reads_attribute hEntry hSpace).append (reads_attributes hRest)

/-- The tag with which an element ends leads out of it. -/
theorem reads_closing (inner : Frame) (hTag : IsName inner.tag) :
    Reads ('<' :: '/' :: (inner.tag.toList ++ ['>'])) ⟨frame :: around, inner, .content⟩
      ⟨around, frame.addChild inner.element, .content⟩ := by
  have hName : Reads inner.tag.toList ⟨frame :: around, inner, .closing []⟩
      ⟨frame :: around, inner, .closing inner.tag.toList⟩ := by
    refine reads_part (fun before c hc => ?_) [] hTag.not_mem
    have hEnd : c ≠ '>' := fun hEq => hc (by simp [hEq])
    simp [Reading.step, hEnd]
  refine .cons rfl (.cons rfl (hName.append (reads_singleton ?_)))
  simp [Reading.step, Reading.leave?]

end Markup

/-! ## Trees -/

namespace Element

open Markup (IsAttribute IsName Frame Reads textAttributes written reads_nil reads_opening reads_closing)

mutual

/-- A tree with the texts of its values in place of them. -/
def plain : Element → Element
  | .node tag attributes children => .node tag (textAttributes (written attributes)) (plainAll children)

def plainAll : List Element → List Element
  | [] => []
  | element :: rest => plain element :: plainAll rest

end

mutual

theorem alike_plain : ∀ element : Element, element.Alike element.plain
  | .node tag attributes children => by
    have hWritten : written attributes = written (textAttributes (written attributes)) := by
      simp [textAttributes, written, NameMap.toList, Markup.Value.content, Function.comp_def]
    exact .node tag hWritten (allAlike_plainAll children)

theorem allAlike_plainAll : ∀ elements : List Element, List.Forall₂ Alike elements (plainAll elements)
  | [] => .nil
  | element :: rest => .cons (alike_plain element) (allAlike_plainAll rest)

end

mutual

/-- A tree is read and becomes a child of what is around it. -/
theorem reads_chars : ∀ {element : Element}, element.IsReadable → ∀ (around : List Frame) (frame : Frame),
    Reads element.chars ⟨around, frame, .content⟩ ⟨around, frame.addChild element.plain, .content⟩
  | .node tag attributes children, h, around, frame => by
    cases h with
    | node hTag hAttributes hChildren =>
      -- the children are added to the new frame, and all of it to the one around when it closes
      have hOpening := reads_opening around frame hTag hAttributes
      have hInside := reads_charsAll hChildren (frame :: around) ⟨tag, written attributes, []⟩
      have hClosing := reads_closing around frame ⟨tag, written attributes, plainAll children⟩ hTag
      rw [plain, chars]
      simpa only [List.cons_append, List.append_assoc, List.nil_append, Frame.element] using
        hOpening.append (hInside.append hClosing)

theorem reads_charsAll : ∀ {elements : List Element}, (∀ element ∈ elements, element.IsReadable) →
    ∀ (around : List Frame) (frame : Frame), Reads (charsAll elements) ⟨around, frame, .content⟩
      ⟨around, { frame with children := frame.children ++ plainAll elements }, .content⟩
  | [], _, around, frame => by
    rw [plainAll, List.append_nil]
    exact reads_nil _
  | element :: rest, h, around, frame => by
    obtain ⟨hElement, hRest⟩ := List.forall_mem_cons.mp h
    rw [charsAll, plainAll, List.append_cons]
    exact (reads_chars hElement around frame).append (reads_charsAll hRest around _)

end

/-- A tree is read back from its text, with texts for values. -/
theorem read?_of_print? {element : Element} {text : String} (h : element.IsReadable)
    (hText : element.print? = some text) : read? text = some element.plain := by
  have hReads : Reads text.toList ⟨[], .text, .content⟩
      ⟨[], Frame.text.addChild element.plain, .content⟩ := by
    rw [toList_of_print? hText]
    exact reads_chars h [] .text
  rw [read?, hReads]
  rfl

/-- Trees whose names are free of markup and whose values are free of quotes are told apart by their
texts, and each of them is read back from its text, up to integers that look like texts. -/
theorem print?_readable {element : Element} {text : String} (h : element.IsReadable)
    (hText : element.print? = some text) :
    (∃ element', read? text = some element' ∧ element.Alike element') ∧
      ∀ other : Element, other.IsReadable → other.print? = some text → element.Alike other := by
  refine ⟨⟨element.plain, read?_of_print? h hText, element.alike_plain⟩, fun other hOther hSame => ?_⟩
  have hChars : element.chars ++ [] = other.chars ++ [] := by
    rw [← toList_of_print? hText, toList_of_print? hSame]
  exact (alike_of_chars h hOther hChars).1

/-- Elements of one tag in each other, and values with brackets and blanks in them. An integer and a
text that looks like it are told apart by nothing. -/
theorem print?_readable_nested :
    let inner : Element := .node "g" ⟨[("id", .text "</g> <g>")]⟩ []
    let element : Element := .node "g" ⟨[("x", .integer 1), ("y", .text "")]⟩ [inner, inner]
    let other : Element := .node "g" ⟨[("x", .text "1"), ("y", .text "")]⟩ [inner, inner]
    let text := "<g x=\"1\" y=\"\"><g id=\"</g> <g>\"></g><g id=\"</g> <g>\"></g></g>"
    element.IsReadable ∧ element.print? = some text ∧ other.IsReadable ∧ other.print? = some text ∧
      (∃ element', read? text = some element' ∧ element.Alike element') ∧ element.Alike other := by
  intro inner element other text
  have hTag : IsName "g" := by decide +kernel
  have hInner : inner.IsReadable :=
    .node hTag (List.forall_mem_singleton.mpr ⟨by decide +kernel, by decide⟩) (List.forall_mem_nil _)
  have hChildren : ∀ child ∈ [inner, inner], child.IsReadable := by simp [hInner]
  have hEntries : ∀ entry ∈ [("x", "1"), ("y", "")], IsAttribute entry :=
    List.forall_mem_cons.mpr ⟨⟨by decide +kernel, by decide⟩,
      List.forall_mem_singleton.mpr ⟨by decide +kernel, by decide⟩⟩
  have hElement : element.IsReadable := .node hTag hEntries hChildren
  have hOther : other.IsReadable := .node hTag hEntries hChildren
  have hText : element.print? = some text := by decide +kernel
  have hSame : other.print? = some text := by decide +kernel
  obtain ⟨hRead, hAlike⟩ := print?_readable hElement hText
  exact ⟨hElement, hText, hOther, hSame, hRead, hAlike other hOther hSame⟩

end Element

end DesignByNumbers
