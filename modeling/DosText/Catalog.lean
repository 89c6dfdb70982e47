/-! A catalog lists values under distinct keys, in the order in which the keys arrived.
`find?` is the view through which every other operation is described. -/

namespace DosText

/-- Values filed under distinct keys. -/
structure Catalog (Key Value : Type) where
  entries : List (Key × Value)
  distinct : (entries.map Prod.fst).Nodup

namespace Catalog

variable {Key Value : Type}

/-- A catalog is its list of entries. -/
@[ext] theorem ext {left right : Catalog Key Value} (same : left.entries = right.entries) :
    left = right := by
  cases left; cases right; cases same; rfl

/-- The catalog that lists nothing. -/
def empty : Catalog Key Value := ⟨[], List.nodup_nil⟩

instance : Inhabited (Catalog Key Value) := ⟨empty⟩

/-- The keys, in order of arrival. -/
def keys (catalog : Catalog Key Value) : List Key := catalog.entries.map Prod.fst

def size (catalog : Catalog Key Value) : Nat := catalog.entries.length

variable [DecidableEq Key]

/-- The value among listed entries that is filed under a key. -/
def lookup (key : Key) : List (Key × Value) → Option Value
  | [] => none
  | (first, value) :: rest => if first = key then some value else lookup key rest

/-- The value filed under a key. -/
def find? (catalog : Catalog Key Value) (key : Key) : Option Value := lookup key catalog.entries

/-- Replaces the value of a listed key in its place; a new key goes to the end. -/
def place (key : Key) (value : Value) : List (Key × Value) → List (Key × Value)
  | [] => [(key, value)]
  | (first, old) :: rest =>
    if first = key then (key, value) :: rest else (first, old) :: place key value rest

theorem mem_keys_place (key : Key) (value : Value) (entries : List (Key × Value)) (other : Key) :
    other ∈ (place key value entries).map Prod.fst ↔
      other = key ∨ other ∈ entries.map Prod.fst := by
  induction entries with
  | nil => simp [place]
  | cons entry rest ih =>
    obtain ⟨first, old⟩ := entry
    by_cases same : first = key
    · subst same; simp [place]
    · simp only [place, same, if_false, List.map_cons, List.mem_cons, ih]
      constructor
      · rintro (atFirst | atKey | later)
        · exact Or.inr (Or.inl atFirst)
        · exact Or.inl atKey
        · exact Or.inr (Or.inr later)
      · rintro (atKey | atFirst | later)
        · exact Or.inr (Or.inl atKey)
        · exact Or.inl atFirst
        · exact Or.inr (Or.inr later)

theorem nodup_place (key : Key) (value : Value) (entries : List (Key × Value))
    (distinct : (entries.map Prod.fst).Nodup) :
    ((place key value entries).map Prod.fst).Nodup := by
  induction entries with
  | nil => simp [place]
  | cons entry rest ih =>
    obtain ⟨first, old⟩ := entry
    simp only [List.map_cons, List.nodup_cons] at distinct
    by_cases same : first = key
    · subst same; simpa [place] using distinct
    · simp only [place, same, if_false, List.map_cons, List.nodup_cons]
      refine ⟨?_, ih distinct.2⟩
      rw [mem_keys_place]
      rintro (atKey | later)
      · exact same atKey
      · exact distinct.1 later

/-- Files a value under a key, in place of the value filed there before. -/
def insert (catalog : Catalog Key Value) (key : Key) (value : Value) : Catalog Key Value :=
  ⟨place key value catalog.entries, nodup_place key value catalog.entries catalog.distinct⟩

/-- Removes what is filed under a key. -/
def erase (catalog : Catalog Key Value) (key : Key) : Catalog Key Value :=
  ⟨catalog.entries.filter (·.1 ≠ key),
    catalog.distinct.sublist (List.filter_sublist.map Prod.fst)⟩

/-- Files the listed values in turn; of two under one key the later stays. -/
def ofList (entries : List (Key × Value)) : Catalog Key Value :=
  entries.foldl (fun catalog entry => catalog.insert entry.1 entry.2) empty

@[simp] theorem find?_empty (key : Key) : (empty : Catalog Key Value).find? key = none := rfl

theorem find?_insert (catalog : Catalog Key Value) (key other : Key) (value : Value) :
    (catalog.insert key value).find? other =
      if other = key then some value else catalog.find? other := by
  obtain ⟨entries, distinct⟩ := catalog
  show lookup other (place key value entries) =
    if other = key then some value else lookup other entries
  clear distinct
  induction entries with
  | nil => by_cases same : other = key <;> simp [place, lookup, same, Ne.symm]
  | cons entry rest ih =>
    obtain ⟨first, old⟩ := entry
    by_cases atFirst : first = key
    · subst atFirst
      by_cases same : other = first
      · subst same; simp [place, lookup]
      · simp [place, lookup, same, Ne.symm same]
    · by_cases found : first = other
      · subst found; simp [place, lookup, atFirst]
      · simp [place, lookup, atFirst, found, ih]

@[simp] theorem find?_insert_self (catalog : Catalog Key Value) (key : Key) (value : Value) :
    (catalog.insert key value).find? key = some value := by
  simp [find?_insert]

private theorem place_place (key : Key) (first second : Value) (entries : List (Key × Value)) :
    place key second (place key first entries) = place key second entries := by
  induction entries with
  | nil => simp [place]
  | cons entry rest ih =>
    obtain ⟨listed, old⟩ := entry
    by_cases same : listed = key
    · simp [place, same]
    · simp [place, same, ih]

private theorem place_of_lookup {key : Key} {value : Value} {entries : List (Key × Value)}
    (found : lookup key entries = some value) : place key value entries = entries := by
  induction entries with
  | nil => cases found
  | cons entry rest ih =>
    obtain ⟨listed, old⟩ := entry
    by_cases same : listed = key
    · simp only [lookup, same, if_true, Option.some.injEq] at found
      simp [place, same, found]
    · simp only [lookup, same, if_false] at found
      simp [place, same, ih found]

/-- Of two values under one key the later stays. -/
theorem insert_insert (catalog : Catalog Key Value) (key : Key) (first second : Value) :
    (catalog.insert key first).insert key second = catalog.insert key second :=
  ext (place_place key first second catalog.entries)

/-- Filing again what is filed under a key changes nothing. -/
theorem insert_of_find? {catalog : Catalog Key Value} {key : Key} {value : Value}
    (found : catalog.find? key = some value) : catalog.insert key value = catalog :=
  ext (place_of_lookup found)

theorem find?_erase (catalog : Catalog Key Value) (key other : Key) :
    (catalog.erase key).find? other = if other = key then none else catalog.find? other := by
  obtain ⟨entries, distinct⟩ := catalog
  show lookup other (entries.filter (·.1 ≠ key)) =
    if other = key then none else lookup other entries
  clear distinct
  induction entries with
  | nil => simp [lookup]
  | cons entry rest ih =>
    obtain ⟨first, old⟩ := entry
    by_cases atFirst : first = key
    · subst atFirst
      by_cases same : other = first
      · subst same; simp; simpa using ih
      · simp [lookup, same, Ne.symm same]; simpa [same] using ih
    · by_cases found : first = other
      · subst found; simp [lookup, atFirst]
      · simp [lookup, atFirst, found]; simpa using ih

theorem mem_of_lookup (key : Key) (value : Value) (entries : List (Key × Value))
    (found : lookup key entries = some value) : (key, value) ∈ entries := by
  induction entries with
  | nil => simp [lookup] at found
  | cons entry rest ih =>
    obtain ⟨first, old⟩ := entry
    by_cases atFirst : first = key
    · simp only [lookup, atFirst, if_true, Option.some.injEq] at found
      simp [atFirst, found]
    · simp only [lookup, atFirst, if_false] at found
      exact List.mem_cons_of_mem _ (ih found)

/-- Looking a key up and listing the entries agree. -/
theorem find?_eq_some_iff (catalog : Catalog Key Value) (key : Key) (value : Value) :
    catalog.find? key = some value ↔ (key, value) ∈ catalog.entries := by
  obtain ⟨entries, distinct⟩ := catalog
  refine ⟨mem_of_lookup key value entries, ?_⟩
  show (key, value) ∈ entries → lookup key entries = some value
  induction entries with
  | nil => intro member; cases member
  | cons entry rest ih =>
    obtain ⟨first, old⟩ := entry
    simp only [List.map_cons, List.nodup_cons] at distinct
    intro member
    rcases List.mem_cons.mp member with here | later
    · cases here; simp [lookup]
    · have other : first ≠ key := by
        intro same
        subst same
        exact distinct.1 (List.mem_map.mpr ⟨(first, value), later, rfl⟩)
      simp [lookup, other, ih distinct.2 later]

theorem mem_keys_iff (catalog : Catalog Key Value) (key : Key) :
    key ∈ catalog.keys ↔ ∃ value, catalog.find? key = some value := by
  simp only [keys, List.mem_map, find?_eq_some_iff, Prod.exists, exists_and_right, exists_eq_right]

end Catalog

end DosText
