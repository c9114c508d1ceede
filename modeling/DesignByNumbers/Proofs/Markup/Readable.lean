import DesignByNumbers.Markup
import DesignByNumbers.Proofs.Numeral
import Mathlib.Data.List.Forall2

/-!
# Proofs.Markup.Readable — trees can be told apart by their texts

Nothing in the text of a tree is escaped. Still it says all about the tree, up to integers that look
like texts, where names are free of the characters around them and values are free of quotes: a name
ends where one of those characters stands, a value ends at the next quote, and a closing tag is told
from the next child by its slash.

* `toList_of_print?` — the text of a tree as a sequence of characters.
* `parts_injective`, `attributes_injective` — the parts of a tag, up to its end.
* `alike_of_chars`, `allAlike_of_chars` — a tree and its children at the start of a text.
-/

namespace DesignByNumbers

namespace Markup

/-- The text of a value of any size. -/
def Value.content : Value → String
  | .text content => content
  | .integer value => Numeral.decimal value

/-- The names of attributes with the texts of their values. -/
def written (attributes : NameMap Value) : List (String × String) :=
  attributes.toList.map fun entry => (entry.1, entry.2.content)

/-- The characters of an attribute, with the space in front of it. -/
def attributeChars (entry : String × String) : List Char :=
  ' ' :: (entry.1.toList ++ '=' :: '"' :: (entry.2.toList ++ ['"']))

/-- A character that is not blank and none of those that stand around names. -/
def isNameCharacter (c : Char) : Bool :=
  !Text.isBlank c && !(['<', '>', '/', '=', '"'].contains c)

/-- A tag or the name of an attribute, as it should be. -/
structure IsName (name : String) : Prop where
  ne_nil : name.toList ≠ []
  free : name.toList.all isNameCharacter = true

instance (name : String) : Decidable (IsName name) :=
  decidable_of_iff (name.toList ≠ [] ∧ name.toList.all isNameCharacter = true)
    ⟨fun h => ⟨h.1, h.2⟩, fun h => ⟨h.ne_nil, h.free⟩⟩

/-- An attribute with a name as it should be, and a value that does not end early. -/
structure IsAttribute (entry : String × String) : Prop where
  name : IsName entry.1
  value : '"' ∉ entry.2.toList

end Markup

namespace Element

open Markup (IsName IsAttribute written attributeChars)

mutual

/-- The characters of a tree. -/
def chars : Element → List Char
  | .node tag attributes children =>
    '<' :: (tag.toList ++ ((written attributes).flatMap attributeChars ++
      '>' :: (charsAll children ++ '<' :: '/' :: (tag.toList ++ ['>']))))

def charsAll : List Element → List Char
  | [] => []
  | element :: rest => chars element ++ charsAll rest

end

/-- A tree whose tags and attributes are as they should be, at every depth. -/
inductive IsReadable : Element → Prop
  | node {tag : String} {attributes : NameMap Markup.Value} {children : List Element}
      (hTag : IsName tag) (hAttributes : ∀ entry ∈ written attributes, IsAttribute entry)
      (hChildren : ∀ child ∈ children, IsReadable child) : IsReadable (.node tag attributes children)

/-- Two trees have the same tags, and the same attributes with the same texts of values in the same
order, at every depth. -/
inductive Alike : Element → Element → Prop
  | node (tag : String) {attributes attributes' : NameMap Markup.Value}
      {children children' : List Element} (hAttributes : written attributes = written attributes')
      (hChildren : List.Forall₂ Alike children children') :
      Alike (.node tag attributes children) (.node tag attributes' children')

theorem Alike.written_eq {element element' : Element} (h : element.Alike element') :
    written element.attributes = written element'.attributes := by
  cases h with
  | node tag hAttributes => exact hAttributes

end Element

/-! ## Texts as characters -/

namespace Markup

theorem Value.eq_content_of_print? {value : Value} {text : String} (h : value.print? = some text) :
    text = value.content := by
  cases value with
  | text content => exact (Option.some.inj h).symm
  | integer value => exact (Numeral.print?_eq_some_iff.mp h).2

/-- A text with a space in front of each part, from a text with a space between parts. -/
theorem toList_intercalate_space {texts : List String} (h : texts ≠ []) :
    ' ' :: (String.intercalate " " texts).toList = texts.flatMap fun text => ' ' :: text.toList := by
  induction texts with
  | nil => exact absurd rfl h
  | cons text rest ih =>
    cases rest with
    | nil => simp
    | cons next others =>
      rw [String.intercalate_cons_cons, List.flatMap_cons, ← ih (List.cons_ne_nil next others)]
      simp

/-- The texts of attributes that are printed one after the other. -/
theorem flatMap_of_mapM {entries : List (String × Value)} {texts : List String}
    (h : entries.mapM printAttribute? = some texts) :
    (texts.flatMap fun text => ' ' :: text.toList) =
      (entries.map fun entry => (entry.1, entry.2.content)).flatMap attributeChars := by
  induction entries generalizing texts with
  | nil =>
    cases h
    rfl
  | cons entry rest ih =>
    rw [List.mapM_cons] at h
    obtain ⟨text, hText, h⟩ := Option.bind_eq_some_iff.mp h
    obtain ⟨others, hOthers, h⟩ := Option.bind_eq_some_iff.mp h
    obtain ⟨content, hContent, rfl⟩ := Option.map_eq_some_iff.mp hText
    cases h
    rw [List.flatMap_cons, List.map_cons, List.flatMap_cons, ih hOthers,
      Value.eq_content_of_print? hContent, attributeChars]
    simp

/-- The tag that opens an element has a space in front of each attribute. -/
theorem toList_openingTag {tag opening : String} {attributes : NameMap Value}
    (h : printAttributes? attributes = some opening) :
    (openingTag tag opening).toList =
      '<' :: (tag.toList ++ ((written attributes).flatMap attributeChars ++ ['>'])) := by
  obtain ⟨texts, hTexts, rfl⟩ := Option.map_eq_some_iff.mp h
  have hChars := flatMap_of_mapM hTexts
  rw [written, openingTag]
  cases texts with
  | nil =>
    rw [if_pos (by decide +kernel), ← hChars]
    simp
  | cons text others =>
    have hSpaces := (toList_intercalate_space (List.cons_ne_nil text others)).trans hChars
    -- the first attribute has at least the sign between its name and its value
    have hNonempty : ¬ (String.intercalate " " (text :: others)).isEmpty = true := by
      intro hEmpty
      rw [String.isEmpty_iff.mp hEmpty] at hSpaces
      cases hEntries : attributes.toList with
      | nil => simp [hEntries] at hSpaces
      | cons entry rest => simp [hEntries, attributeChars] at hSpaces
    rw [if_neg hNonempty, ← hSpaces]
    simp

end Markup

namespace Element

mutual

/-- The text of a tree is made of its characters. -/
theorem toList_of_print? : ∀ {element : Element} {text : String}, element.print? = some text →
    text.toList = element.chars
  | .node tag attributes children, text, h => by
    rw [print?] at h
    obtain ⟨opening, hOpening, h⟩ := Option.bind_eq_some_iff.mp h
    obtain ⟨inner, hInner, h⟩ := Option.bind_eq_some_iff.mp h
    cases h
    rw [String.toList_append, String.toList_append, Markup.toList_openingTag hOpening,
      toList_of_printAll? hInner, chars]
    simp [Markup.closingTag]

theorem toList_of_printAll? : ∀ {elements : List Element} {texts : List String},
    printAll? elements = some texts → (String.join texts).toList = charsAll elements
  | [], texts, h => by
    cases h
    rfl
  | element :: rest, texts, h => by
    rw [printAll?] at h
    obtain ⟨text, hText, h⟩ := Option.bind_eq_some_iff.mp h
    obtain ⟨others, hOthers, h⟩ := Option.bind_eq_some_iff.mp h
    cases h
    rw [String.join_cons, String.toList_append, toList_of_print? hText, toList_of_printAll? hOthers,
      charsAll]

end

end Element

/-! ## Parts of a tag -/

namespace Markup

/-- Two parts at the start of a text are the same, if they end where the first of certain characters
stands. -/
theorem parts_injective {stops : List Char} {part part' : List Char}
    (h : ∀ c ∈ part, c ∉ stops) (h' : ∀ c ∈ part', c ∉ stops) {c c' : Char} (hc : c ∈ stops)
    (hc' : c' ∈ stops) {rest rest' : List Char} (hChars : part ++ c :: rest = part' ++ c' :: rest') :
    part = part' ∧ c = c' ∧ rest = rest' := by
  induction part generalizing part' with
  | nil =>
    cases part' with
    | nil => exact ⟨rfl, List.cons.inj hChars⟩
    | cons first' others' =>
      obtain ⟨rfl, -⟩ := List.cons.inj hChars
      exact absurd hc (h' c (List.mem_cons_self ..))
  | cons first others ih =>
    cases part' with
    | nil =>
      obtain ⟨rfl, -⟩ := List.cons.inj hChars
      exact absurd hc' (h first (List.mem_cons_self ..))
    | cons first' others' =>
      obtain ⟨rfl, hOthers⟩ := List.cons.inj hChars
      obtain ⟨rfl, hRest⟩ := ih (List.forall_mem_cons.mp h).2 (List.forall_mem_cons.mp h').2 hOthers
      exact ⟨rfl, hRest⟩

theorem IsName.not_mem {name : String} (h : IsName name) :
    ∀ c ∈ name.toList, c ∉ [' ', '<', '>', '/', '=', '"'] := by
  intro c hc hMem
  have hFree := List.all_eq_true.mp h.free c hc
  rw [isNameCharacter, Bool.and_eq_true] at hFree
  rcases List.mem_cons.mp hMem with rfl | hMem
  · exact absurd hFree.1 (by decide)
  · simp [hMem] at hFree

theorem IsAttribute.not_mem {entry : String × String} (h : IsAttribute entry) :
    ∀ c ∈ entry.2.toList, c ∉ ['"'] :=
  fun _ hc hMem => h.value (List.mem_singleton.mp hMem ▸ hc)

/-- An attribute at the start of a text. -/
theorem attributeChars_injective {entry entry' : String × String} (h : IsAttribute entry)
    (h' : IsAttribute entry') {rest rest' : List Char}
    (hChars : attributeChars entry ++ rest = attributeChars entry' ++ rest') :
    entry = entry' ∧ rest = rest' := by
  simp only [attributeChars, List.cons_append, List.append_assoc, List.nil_append,
    List.cons.injEq, true_and] at hChars
  -- the name ends at the sign behind it, and the value at its closing quote
  obtain ⟨hName, -, hChars⟩ :=
    parts_injective h.name.not_mem h'.name.not_mem (by decide) (by decide) hChars
  obtain ⟨hValue, -, hRest⟩ :=
    parts_injective h.not_mem h'.not_mem (by decide) (by decide) (List.cons.inj hChars).2
  exact ⟨Prod.ext (String.toList_inj.mp hName) (String.toList_inj.mp hValue), hRest⟩

/-- The attributes at the start of a text, up to the end of their tag. -/
theorem attributes_injective {entries entries' : List (String × String)}
    (h : ∀ entry ∈ entries, IsAttribute entry) (h' : ∀ entry ∈ entries', IsAttribute entry)
    {rest rest' : List Char}
    (hChars : entries.flatMap attributeChars ++ '>' :: rest =
      entries'.flatMap attributeChars ++ '>' :: rest') : entries = entries' ∧ rest = rest' := by
  induction entries generalizing entries' with
  | nil =>
    cases entries' with
    | nil => exact ⟨rfl, (List.cons.inj hChars).2⟩
    | cons entry' others' =>
      -- another attribute would start with a space
      simp [attributeChars] at hChars
  | cons entry others ih =>
    cases entries' with
    | nil => simp [attributeChars] at hChars
    | cons entry' others' =>
      obtain ⟨hEntry, hOthers⟩ := List.forall_mem_cons.mp h
      obtain ⟨hEntry', hOthers'⟩ := List.forall_mem_cons.mp h'
      rw [List.flatMap_cons, List.flatMap_cons, List.append_assoc, List.append_assoc] at hChars
      obtain ⟨rfl, hBehind⟩ := attributeChars_injective hEntry hEntry' hChars
      obtain ⟨rfl, hRest⟩ := ih hOthers hOthers' hBehind
      exact ⟨rfl, hRest⟩

/-- What follows a tag: the space in front of an attribute, or the end of the tag. -/
theorem exists_cons_of_attributes (entries : List (String × String)) (rest : List Char) :
    ∃ c behind, entries.flatMap attributeChars ++ '>' :: rest = c :: behind ∧ c ∈ [' ', '>'] := by
  cases entries with
  | nil => exact ⟨'>', rest, rfl, by decide⟩
  | cons entry others =>
    rw [List.flatMap_cons, attributeChars]
    exact ⟨' ', _, rfl, by decide⟩

/-- The tag at the start of a text ends in front of its attributes. -/
theorem tag_injective {tag tag' : String} (h : IsName tag) (h' : IsName tag')
    {entries entries' : List (String × String)} {rest rest' : List Char}
    (hChars : tag.toList ++ (entries.flatMap attributeChars ++ '>' :: rest) =
      tag'.toList ++ (entries'.flatMap attributeChars ++ '>' :: rest')) :
    tag = tag' ∧ entries.flatMap attributeChars ++ '>' :: rest =
      entries'.flatMap attributeChars ++ '>' :: rest' := by
  obtain ⟨c, behind, hBehind, hc⟩ := exists_cons_of_attributes entries rest
  obtain ⟨c', behind', hBehind', hc'⟩ := exists_cons_of_attributes entries' rest'
  have hStops : [' ', '>'] ⊆ [' ', '<', '>', '/', '=', '"'] := by decide
  rw [hBehind, hBehind'] at hChars ⊢
  obtain ⟨hTag, rfl, rfl⟩ := parts_injective h.not_mem h'.not_mem (hStops hc) (hStops hc') hChars
  exact ⟨String.toList_inj.mp hTag, rfl⟩

end Markup

/-! ## Trees -/

namespace Element

/-- An element does not start with the slash of a closing tag. -/
theorem chars_ne_closing {element : Element} (h : element.IsReadable) (rest rest' : List Char) :
    element.chars ++ rest ≠ '<' :: '/' :: rest' := by
  cases h with
  | @node tag attributes children hTag =>
    intro hChars
    obtain ⟨c, others, hCons⟩ := List.exists_cons_of_ne_nil hTag.ne_nil
    have hFirst := hTag.not_mem c (by simp [hCons])
    rw [chars, hCons] at hChars
    simp only [List.cons_append, List.cons.injEq, true_and] at hChars
    rw [hChars.1] at hFirst
    exact hFirst (by decide)

mutual

/-- A tree at the start of a text. -/
theorem alike_of_chars : ∀ {element element' : Element} {rest rest' : List Char},
    element.IsReadable → element'.IsReadable → element.chars ++ rest = element'.chars ++ rest' →
    element.Alike element' ∧ rest = rest'
  | .node tag attributes children, .node tag' attributes' children', rest, rest', h, h', hChars => by
    cases h with
    | node hTag hAttributes hChildren =>
      cases h' with
      | node hTag' hAttributes' hChildren' =>
        simp only [chars, List.cons_append, List.append_assoc, List.nil_append, List.cons.injEq,
          true_and] at hChars
        obtain ⟨rfl, hChars⟩ := Markup.tag_injective hTag hTag' hChars
        obtain ⟨hWritten, hChars⟩ := Markup.attributes_injective hAttributes hAttributes' hChars
        obtain ⟨hAlike, hChars⟩ := allAlike_of_chars hChildren hChildren' hChars
        -- both are closed with the same tag
        have hRest := List.append_cancel_left hChars
        exact ⟨.node tag hWritten hAlike, (List.cons.inj hRest).2⟩

/-- The children at the start of a text, up to the closing tag behind them. -/
theorem allAlike_of_chars : ∀ {elements elements' : List Element} {rest rest' : List Char},
    (∀ element ∈ elements, element.IsReadable) → (∀ element ∈ elements', element.IsReadable) →
    charsAll elements ++ '<' :: '/' :: rest = charsAll elements' ++ '<' :: '/' :: rest' →
    List.Forall₂ Alike elements elements' ∧ rest = rest'
  | [], [], rest, rest', _, _, hChars => by
    simpa [charsAll] using hChars
  | [], element' :: others', rest, rest', _, h', hChars => by
    rw [charsAll, charsAll, List.append_assoc] at hChars
    exact absurd hChars.symm (chars_ne_closing (h' element' (List.mem_cons_self ..)) _ _)
  | element :: others, [], rest, rest', h, _, hChars => by
    rw [charsAll, charsAll, List.append_assoc] at hChars
    exact absurd hChars (chars_ne_closing (h element (List.mem_cons_self ..)) _ _)
  | element :: others, element' :: others', rest, rest', h, h', hChars => by
    obtain ⟨hElement, hOthers⟩ := List.forall_mem_cons.mp h
    obtain ⟨hElement', hOthers'⟩ := List.forall_mem_cons.mp h'
    rw [charsAll, charsAll, List.append_assoc, List.append_assoc] at hChars
    obtain ⟨hAlike, hChars⟩ := alike_of_chars hElement hElement' hChars
    obtain ⟨hAll, hRest⟩ := allAlike_of_chars hOthers hOthers' hChars
    exact ⟨.cons hAlike hAll, hRest⟩

end

end Element

end DesignByNumbers
