import Mathlib.Data.List.Forall2
import Mathlib.Logic.Relator
import DesignByNumbers.NameMap

/-!
# Proofs.NameMap — the entries of maps

An entry of a map is one of those that were inserted. Two maps are related when their entries
are, one after the other. Every operation on maps preserves this, so that whatever is known of the
values of one map can be told of the other.

* `mem_toList_insert`, `mem_toList_insertAll` — where an entry comes from.
* `filter_toList_insert` — an insertion leaves all other entries in their places.
* `get?_ofList` — what is found in a map that arises from distinct names.
* `Related.get?`, `Related.insert`, `Related.insertAll` — one lemma for each operation.
-/

namespace DesignByNumbers.NameMap

variable {α β : Type}

theorem mem_toList_of_get? {map : NameMap α} {name : String} {value : α}
    (h : map.get? name = some value) : (name, value) ∈ map.toList := by
  obtain ⟨before, behind, hEntries, -⟩ := List.lookup_eq_some_iff.mp h
  rw [NameMap.toList, hEntries]
  exact List.mem_append_right before (List.mem_cons_self ..)

/-! ## Entries -/

theorem mem_insertEntry {entries : List (String × α)} {name : String} {value : α}
    {entry : String × α} (h : entry ∈ insertEntry name value entries) :
    entry = (name, value) ∨ entry ∈ entries := by
  induction entries with
  | nil => exact .inl (List.mem_singleton.mp h)
  | cons first rest ih =>
    obtain ⟨other, old⟩ := first
    rw [insertEntry] at h
    split at h
    next =>
      rcases List.mem_cons.mp h with hNew | hRest
      · exact .inl hNew
      · exact .inr (List.mem_cons_of_mem _ hRest)
    next =>
      rcases List.mem_cons.mp h with hFirst | hRest
      · exact .inr (hFirst ▸ List.mem_cons_self ..)
      · exact (ih hRest).imp_right (List.mem_cons_of_mem _)

/-- An entry of a map is the one that was inserted, or was there before. -/
theorem mem_toList_insert {map : NameMap α} {name : String} {value : α} {entry : String × α}
    (h : entry ∈ (map.insert name value).toList) : entry = (name, value) ∨ entry ∈ map.toList :=
  mem_insertEntry h

/-- An insertion changes nothing among the entries under other names. -/
theorem filter_toList_insert {map : NameMap α} {name : String} {value : α}
    {keeps : String × α → Bool} (hName : ∀ value, keeps (name, value) = false) :
    (map.insert name value).toList.filter keeps = map.toList.filter keeps := by
  obtain ⟨entries⟩ := map
  show (insertEntry name value entries).filter keeps = entries.filter keeps
  induction entries with
  | nil => rw [insertEntry, List.filter_cons_of_neg (Bool.eq_false_iff.mp (hName value))]
  | cons entry rest ih =>
    obtain ⟨other, old⟩ := entry
    rw [insertEntry]
    split
    next hOther =>
      subst hOther
      rw [List.filter_cons_of_neg (Bool.eq_false_iff.mp (hName value)),
        List.filter_cons_of_neg (Bool.eq_false_iff.mp (hName old))]
    next => rw [List.filter_cons, List.filter_cons, ih]

theorem mem_toList_insertAll {map : NameMap α} {entries : List (String × α)} {entry : String × α}
    (h : entry ∈ (map.insertAll entries).toList) : entry ∈ entries ∨ entry ∈ map.toList := by
  induction entries generalizing map with
  | nil => exact .inr h
  | cons first rest ih =>
    rcases ih h with hRest | hInsert
    · exact .inl (List.mem_cons_of_mem _ hRest)
    · rcases mem_toList_insert hInsert with rfl | hMap
      · exact .inl (List.mem_cons_self ..)
      · exact .inr hMap

theorem mem_toList_ofList {entries : List (String × α)} {entry : String × α}
    (h : entry ∈ (ofList entries).toList) : entry ∈ entries :=
  (mem_toList_insertAll h).resolve_right List.not_mem_nil

/-! ## Maps of distinct names -/

theorem get?_insertAll {map : NameMap α} {entries : List (String × α)}
    (hNames : (entries.map Prod.fst).Nodup) {name : String} {value : α} :
    (map.insertAll entries).get? name = some value ↔
      (name, value) ∈ entries ∨ name ∉ entries.map Prod.fst ∧ map.get? name = some value := by
  induction entries generalizing map with
  | nil => simp [insertAll]
  | cons entry rest ih =>
    obtain ⟨first, old⟩ := entry
    obtain ⟨hFirst, hRest⟩ := List.nodup_cons.mp hNames
    have hInsert : map.insertAll ((first, old) :: rest) = (map.insert first old).insertAll rest := rfl
    rw [hInsert, ih hRest, get?_insert]
    by_cases hName : name = first
    · subst hName
      -- no later entry has the name of the first one
      have hNotRest : (name, value) ∉ rest := fun h => hFirst (List.mem_map.mpr ⟨_, h, rfl⟩)
      simp only [List.map_cons, List.mem_cons, Prod.mk.injEq, true_and, hNotRest, or_false, false_or,
        if_true, Option.some.injEq, true_or, not_true_eq_false, false_and]
      exact ⟨fun h => h.2.symm, fun h => ⟨hFirst, h.symm⟩⟩
    · simp [hName]

/-- A map that arises from distinct names gives each of them its value, in whatever order they were
inserted. -/
theorem get?_ofList {entries : List (String × α)} (hNames : (entries.map Prod.fst).Nodup)
    {name : String} {value : α} :
    (ofList entries).get? name = some value ↔ (name, value) ∈ entries := by
  rw [ofList, get?_insertAll hNames, show (empty : NameMap α).get? name = none from rfl]
  simp

/-! ## Related maps -/

/-- The names of two entry lists are related one after the other, and so are the values. -/
def EntriesRelated (named : String → String → Prop) (R : α → β → Prop)
    (entries : List (String × α)) (entries' : List (String × β)) : Prop :=
  List.Forall₂ (fun entry entry' => named entry.1 entry'.1 ∧ R entry.2 entry'.2) entries entries'

/-- Two maps with related entries in the same order. -/
def Related (named : String → String → Prop) (R : α → β → Prop) (map : NameMap α)
    (map' : NameMap β) : Prop :=
  EntriesRelated named R map.entries map'.entries

theorem biUnique_eq : Relator.BiUnique (Eq : String → String → Prop) :=
  ⟨fun _ _ _ h h' => h.trans h'.symm, fun _ _ _ h h' => h.symm.trans h'⟩

section Related

variable {named : String → String → Prop} {R : α → β → Prop} {map : NameMap α} {map' : NameMap β}
  {name name' : String}

theorem Related.empty : Related named R (empty : NameMap α) (empty : NameMap β) :=
  .nil

theorem Related.toList (h : Related named R map map') :
    EntriesRelated named R map.toList map'.toList :=
  h

theorem Related.get? (hUnique : Relator.BiUnique named) (h : Related named R map map')
    (hName : named name name') : Option.Rel R (map.get? name) (map'.get? name') := by
  obtain ⟨entries⟩ := map
  obtain ⟨entries'⟩ := map'
  replace h : EntriesRelated named R entries entries' := h
  show Option.Rel R (entries.lookup name) (entries'.lookup name')
  induction h with
  | nil => exact .none
  | @cons entry entry' rest rest' hEntry _ ih =>
    obtain ⟨key, value⟩ := entry
    obtain ⟨key', value'⟩ := entry'
    obtain ⟨hKey, hValue⟩ := hEntry
    have hEq := Relator.rel_eq hUnique hName hKey
    rw [List.lookup_cons, List.lookup_cons]
    by_cases hSame : name = key
    · have hSame' : name' = key' := hEq.mp hSame
      subst hSame hSame'
      simpa using Option.Rel.some hValue
    · have hOther : name' ≠ key' := fun hSame' => hSame (hEq.mpr hSame')
      simpa [beq_eq_false_iff_ne.mpr hSame, beq_eq_false_iff_ne.mpr hOther] using ih

theorem Related.contains (hUnique : Relator.BiUnique named) (h : Related named R map map')
    (hName : named name name') : map'.contains name' = map.contains name := by
  have hGet := h.get? hUnique hName
  rw [NameMap.contains, NameMap.contains]
  generalize map.get? name = value at hGet
  generalize map'.get? name' = value' at hGet
  cases hGet <;> rfl

theorem Related.insert (hUnique : Relator.BiUnique named) (h : Related named R map map')
    (hName : named name name') {value : α} {value' : β} (hValue : R value value') :
    Related named R (map.insert name value) (map'.insert name' value') := by
  obtain ⟨entries⟩ := map
  obtain ⟨entries'⟩ := map'
  replace h : EntriesRelated named R entries entries' := h
  show EntriesRelated named R (insertEntry name value entries) (insertEntry name' value' entries')
  induction h with
  | nil => exact .cons ⟨hName, hValue⟩ .nil
  | @cons entry entry' rest rest' hEntry hRest ih =>
    obtain ⟨key, old⟩ := entry
    obtain ⟨key', old'⟩ := entry'
    obtain ⟨hKey, hOld⟩ := hEntry
    have hEq := Relator.rel_eq hUnique hKey hName
    by_cases hSame : key = name
    · rw [insertEntry, insertEntry, if_pos hSame, if_pos (hEq.mp hSame)]
      exact .cons ⟨hName, hValue⟩ hRest
    · rw [insertEntry, insertEntry, if_neg hSame, if_neg fun hSame' => hSame (hEq.mpr hSame')]
      exact .cons ⟨hKey, hOld⟩ ih

theorem Related.insertAll (hUnique : Relator.BiUnique named) (h : Related named R map map')
    {entries : List (String × α)} {entries' : List (String × β)}
    (hEntries : EntriesRelated named R entries entries') :
    Related named R (map.insertAll entries) (map'.insertAll entries') := by
  induction hEntries generalizing map map' with
  | nil => exact h
  | cons hEntry _ ih => exact ih (h.insert hUnique hEntry.1 hEntry.2)

theorem Related.ofList (hUnique : Relator.BiUnique named) {entries : List (String × α)}
    {entries' : List (String × β)} (hEntries : EntriesRelated named R entries entries') :
    Related named R (ofList entries) (ofList entries') :=
  Related.empty.insertAll hUnique hEntries

end Related

end DesignByNumbers.NameMap
