/-!
# NameMap — values under names, in order of arrival

A map keeps its names in the order in which they were first inserted. Inserting a name
again replaces the value and leaves the place.
-/

namespace DesignByNumbers

/-- Values under names, each name at most once. -/
structure NameMap (α : Type) where
  entries : List (String × α)
deriving Repr, DecidableEq

namespace NameMap

variable {κ α : Type}

def empty : NameMap α := ⟨[]⟩

instance : Inhabited (NameMap α) := ⟨empty⟩

/-- The entries with the first value of a key replaced, or with the key at the end. -/
def insertEntry [DecidableEq κ] (name : κ) (value : α) : List (κ × α) → List (κ × α)
  | [] => [(name, value)]
  | (other, old) :: rest =>
    if other = name then (name, value) :: rest else (other, old) :: insertEntry name value rest

def insert (map : NameMap α) (name : String) (value : α) : NameMap α :=
  ⟨insertEntry name value map.entries⟩

def get? (map : NameMap α) (name : String) : Option α :=
  map.entries.lookup name

def contains (map : NameMap α) (name : String) : Bool :=
  (map.get? name).isSome

/-- The map with all given entries, inserted from left to right. -/
def insertAll (map : NameMap α) (entries : List (String × α)) : NameMap α :=
  entries.foldl (fun map (name, value) => map.insert name value) map

/-- The map that arises from inserting entries from left to right. -/
def ofList (entries : List (String × α)) : NameMap α :=
  empty.insertAll entries

def toList (map : NameMap α) : List (String × α) := map.entries

/-! ## Views -/

theorem lookup_insertEntry [DecidableEq κ] (name key : κ) (value : α) (entries : List (κ × α)) :
    (insertEntry name value entries).lookup key =
      if key = name then some value else entries.lookup key := by
  induction entries with
  | nil =>
    by_cases h : key = name
    · simp [insertEntry, h]
    · simp [insertEntry, List.lookup_cons, h, beq_eq_false_iff_ne.mpr h]
  | cons entry rest ih =>
    obtain ⟨other, old⟩ := entry
    by_cases ho : other = name
    · subst ho
      by_cases h : key = other
      · simp [insertEntry, h]
      · simp [insertEntry, List.lookup_cons, h, beq_eq_false_iff_ne.mpr h]
    · by_cases hk : key = other
      · subst hk
        simp [insertEntry, ho]
      · simp [insertEntry, List.lookup_cons, ho, ih, beq_eq_false_iff_ne.mpr hk]

/-- A look-up sees the last insertion under its name. -/
theorem get?_insert (map : NameMap α) (name key : String) (value : α) :
    (map.insert name value).get? key = if key = name then some value else map.get? key :=
  lookup_insertEntry name key value map.entries

end NameMap

end DesignByNumbers
