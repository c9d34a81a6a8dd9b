/-!
# Tables

A table holds one entry for each of its keys, in the order in which the keys
first came in.  Putting a key that is there already replaces its value and keeps
its place.  Sorted lists of entries serve where the order of the keys is fixed.

Main results:

- Theorem `Table.get?_put`: what a table holds after one entry is put.
- Theorem `Table.keys_put`: where a key that is put ends up.
-/

namespace Formulary

/-- Puts an entry: in place if the key is there, at the end otherwise. -/
def putEntry {α : Type} (key : String) (value : α) :
    List (String × α) → List (String × α)
  | [] => [(key, value)]
  | (k, v) :: rest => if k = key then (key, value) :: rest else (k, v) :: putEntry key value rest

/-- Puts an entry into a list that is sorted by key. -/
def putSorted {α : Type} (key : String) (value : α) :
    List (String × α) → List (String × α)
  | [] => [(key, value)]
  | (k, v) :: rest =>
      if k = key then (key, value) :: rest
      else if key < k then (key, value) :: (k, v) :: rest
      else (k, v) :: putSorted key value rest

/-- The entries sorted by key; the last one of a key stays. -/
def sortEntries {α : Type} (entries : List (String × α)) : List (String × α) :=
  entries.foldl (fun acc (k, v) => putSorted k v acc) []

/-- The value of a key. -/
def findEntry {α : Type} (key : String) : List (String × α) → Option α
  | [] => none
  | (k, v) :: rest => if k = key then some v else findEntry key rest

/-- Adds a name at the end of a list that does not have it. -/
def addName (name : String) (names : List String) : List String :=
  if name ∈ names then names else names ++ [name]

/-- The names without repetition, in the order of first occurrence. -/
def distinctNames (names : List String) : List String :=
  names.foldl (fun acc name => addName name acc) []

/-- The keys after an entry is put. -/
theorem map_fst_putEntry {α : Type} (key : String) (value : α) (entries : List (String × α)) :
    (putEntry key value entries).map Prod.fst = addName key (entries.map Prod.fst) := by
  induction entries with
  | nil => rfl
  | cons entry rest ih =>
    obtain ⟨k, v⟩ := entry
    by_cases h : k = key
    · simp [putEntry, addName, h]
    · have h' : ¬key = k := fun e => h e.symm
      simp only [putEntry, h, if_false, List.map_cons, ih, addName, List.mem_cons, h', false_or]
      split <;> simp

/-- A name that is added is not repeated. -/
theorem nodup_addName {name : String} {names : List String} (h : names.Nodup) :
    (addName name names).Nodup := by
  unfold addName
  split
  · exact h
  · next hn =>
    refine List.nodup_append.2 ⟨h, by simp, ?_⟩
    intro a ha b hb
    simp only [List.mem_singleton] at hb
    rintro rfl
    exact hn (hb ▸ ha)

/-- The value of a key after an entry is put. -/
theorem findEntry_putEntry {α : Type} (key k : String) (value : α)
    (entries : List (String × α)) :
    findEntry k (putEntry key value entries) =
      if key = k then some value else findEntry k entries := by
  induction entries with
  | nil => simp [putEntry, findEntry]
  | cons entry rest ih =>
    obtain ⟨k', v⟩ := entry
    by_cases h : k' = key
    · subst h
      by_cases h' : k' = k <;> simp [putEntry, findEntry, h']
    · by_cases h' : k' = k
      · subst h'
        have : ¬key = k' := fun e => h e.symm
        simp [putEntry, findEntry, h, this]
      · simp [putEntry, findEntry, h, h', ih]

/-- An entry that is found is there. -/
theorem mem_of_findEntry {α : Type} {key : String} {value : α} {entries : List (String × α)}
    (h : findEntry key entries = some value) : (key, value) ∈ entries := by
  induction entries with
  | nil => cases h
  | cons entry rest ih =>
    rcases entry with ⟨k, v⟩
    rw [findEntry] at h
    split at h
    · next hk =>
      cases h
      rw [hk]
      exact List.mem_cons_self ..
    · exact List.mem_cons_of_mem _ (ih h)

/-- A key that no entry has is not found. -/
theorem findEntry_eq_none {α : Type} {key : String} {entries : List (String × α)}
    (h : key ∉ entries.map Prod.fst) : findEntry key entries = none := by
  induction entries with
  | nil => rfl
  | cons entry rest ih =>
    rcases entry with ⟨k, v⟩
    rw [List.map_cons, List.mem_cons, not_or] at h
    rw [findEntry, if_neg fun heq => h.1 heq.symm, ih h.2]

/-- A key that some entry has is found. -/
theorem ne_none_of_mem_keys {α : Type} {key : String} {entries : List (String × α)}
    (h : key ∈ entries.map Prod.fst) : findEntry key entries ≠ none := by
  induction entries with
  | nil => cases h
  | cons entry rest ih =>
    rcases entry with ⟨k, v⟩
    rw [findEntry]
    by_cases hk : k = key
    · simp [hk]
    · rw [if_neg hk]
      rcases List.mem_cons.1 h with heq | hrest
      · exact absurd heq.symm hk
      · exact ih hrest

/-- Entries with distinct keys, in the order in which the keys first came in. -/
structure Table (α : Type) where
  entries : List (String × α)
  distinct : (entries.map Prod.fst).Nodup

namespace Table

variable {α : Type}

/-- The table without entries. -/
def empty : Table α :=
  ⟨[], List.nodup_nil⟩

instance : Inhabited (Table α) :=
  ⟨empty⟩

/-- Puts an entry: in place if the key is there, at the end otherwise. -/
def put (t : Table α) (key : String) (value : α) : Table α :=
  ⟨putEntry key value t.entries, by rw [map_fst_putEntry]; exact nodup_addName t.distinct⟩

/-- The value of a key. -/
def get? (t : Table α) (key : String) : Option α :=
  findEntry key t.entries

/-- The keys in order. -/
def keys (t : Table α) : List String :=
  t.entries.map Prod.fst

/-- The values in order. -/
def values (t : Table α) : List α :=
  t.entries.map Prod.snd

/-- Whether a key has a value. -/
def contains (t : Table α) (key : String) : Bool :=
  (t.get? key).isSome

/-- Number of entries. -/
def size (t : Table α) : Nat :=
  t.entries.length

/-- Puts entries one after the other. -/
def putAll (t : Table α) (entries : List (String × α)) : Table α :=
  entries.foldl (fun t (k, v) => t.put k v) t

/-- The table of some entries; the last one of a key stays, in the first one's place. -/
def ofList (entries : List (String × α)) : Table α :=
  empty.putAll entries

@[simp]
theorem get?_empty (key : String) : (empty : Table α).get? key = none :=
  rfl

/-- What a table holds after one entry is put. -/
@[simp]
theorem get?_put (t : Table α) (key k : String) (value : α) :
    (t.put key value).get? k = if key = k then some value else t.get? k :=
  findEntry_putEntry key k value t.entries

/-- A key that is put keeps its place, or comes last. -/
@[simp]
theorem keys_put (t : Table α) (key : String) (value : α) :
    (t.put key value).keys = addName key t.keys :=
  map_fst_putEntry key value t.entries

end Table
end Formulary
