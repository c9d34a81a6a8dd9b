import Formulary.Proofs.Toml.Document

/-!
# Documents with entries deleted

Entries may be deleted from the tables of a document, and from the tables inside them
and inside their lists.  What is left is written and read back like the document, and
under a key that is still there is what is left of its value.

Main definitions:

- `prune` and `pruneEntries`: what is left of values and of tables.
- `IsTextOf`: a text is read as a document of some entries, in some order.

Main results:

- Theorem `findEntry_pruneEntries`: what is left under a key.
- Theorem `pruneEntries_nothing`: a table stays as it is if nothing is deleted.
- Theorem `Sectioned.isTextOf_write`: a document of sections is written as a text of its
  entries.
- Theorem `Sectioned.pruneEntries`: what is left of a document of sections is one.
-/

namespace Formulary
namespace Toml

/-! ## Paths -/

/-- A step from a value to one inside it. -/
inductive Step where
  | key (name : String)
  | item (index : Nat)
  deriving DecidableEq

/-- The way to a value inside another. -/
abbrev Path := List Step

/-- Which of the paths are gone that begin with a step. -/
def inside (gone : Path → Bool) (step : Step) : Path → Bool :=
  fun path => gone (step :: path)

/-! ## What is left -/

mutual

/-- What is left of a value when the entries at some paths are deleted. -/
def prune (gone : Path → Bool) : Toml → Toml
  | table entries => .table (pruneEntries gone entries)
  | list items => .list (pruneItems gone 0 items)
  | v => v

/-- What is left of the entries of a table. -/
def pruneEntries (gone : Path → Bool) : List (String × Toml) → List (String × Toml)
  | [] => []
  | (key, v) :: entries =>
      if gone [.key key] then pruneEntries gone entries
      else (key, prune (inside gone (.key key)) v) :: pruneEntries gone entries

/-- What is left of the items of a list, the first of which has a number.  They stay, and
may have entries deleted inside them. -/
def pruneItems (gone : Path → Bool) (number : Nat) : List Toml → List Toml
  | [] => []
  | v :: items => prune (inside gone (.item number)) v :: pruneItems gone (number + 1) items

end

/-- What is left under a key: nothing if its entry is gone, otherwise what is left of its value. -/
theorem findEntry_pruneEntries (gone : Path → Bool) (key : String)
    (entries : List (String × Toml)) :
    findEntry key (pruneEntries gone entries) =
      if gone [.key key] then none
      else (findEntry key entries).map (prune (inside gone (.key key))) := by
  induction entries with
  | nil => simp [pruneEntries, findEntry]
  | cons e entries ih =>
    obtain ⟨k, v⟩ := e
    rw [pruneEntries, findEntry]
    by_cases hk : k = key
    · subst hk
      split
      · next hgone => rw [ih, if_pos hgone]
      · rw [findEntry, if_pos rfl, if_pos rfl, Option.map_some]
    · rw [if_neg hk]
      split
      · exact ih
      · rw [findEntry, if_neg hk, ih]

mutual

/-- Nothing is gone if no path is. -/
theorem prune_nothing (v : Toml) : prune (fun _ => false) v = v := by
  cases v with
  | table entries => rw [prune, pruneEntries_nothing]
  | list items => rw [prune, pruneItems_nothing]
  | _ => rfl

/-- A table stays as it is if nothing is deleted. -/
theorem pruneEntries_nothing (entries : List (String × Toml)) :
    pruneEntries (fun _ => false) entries = entries := by
  cases entries with
  | nil => rfl
  | cons e entries =>
    obtain ⟨key, v⟩ := e
    rw [pruneEntries, if_neg Bool.false_ne_true, pruneEntries_nothing entries]
    exact congrArg (fun v => (key, v) :: entries) (prune_nothing v)

theorem pruneItems_nothing (number : Nat) (items : List Toml) :
    pruneItems (fun _ => false) number items = items := by
  cases items with
  | nil => rfl
  | cons v items =>
    rw [pruneItems, pruneItems_nothing (number + 1) items]
    exact congrArg (· :: items) (prune_nothing v)

end

/-! ## Sections -/

/-- The keys that are left are in order. -/
theorem sublist_map_fst_pruneEntries (gone : Path → Bool) (entries : List (String × Toml)) :
    ((pruneEntries gone entries).map Prod.fst).Sublist (entries.map Prod.fst) := by
  induction entries with
  | nil => exact .refl _
  | cons e entries ih =>
    obtain ⟨key, v⟩ := e
    rw [pruneEntries]
    split
    · exact ih.cons key
    · exact ih.cons_cons key

/-- Every entry that is left has what is left of the value of an entry. -/
theorem exists_of_mem_pruneEntries {gone : Path → Bool} {entries : List (String × Toml)}
    {e : String × Toml} (h : e ∈ pruneEntries gone entries) :
    ∃ e' ∈ entries, e = (e'.1, prune (inside gone (.key e'.1)) e'.2) := by
  induction entries with
  | nil => cases h
  | cons first entries ih =>
    obtain ⟨key, v⟩ := first
    rw [pruneEntries] at h
    split at h
    · rcases ih h with ⟨e', hmem, heq⟩
      exact ⟨e', List.mem_cons_of_mem _ hmem, heq⟩
    · rcases List.mem_cons.1 h with rfl | h
      · exact ⟨(key, v), List.mem_cons_self .., rfl⟩
      · rcases ih h with ⟨e', hmem, heq⟩
        exact ⟨e', List.mem_cons_of_mem _ hmem, heq⟩

theorem pruneItems_texts (gone : Path → Bool) (number : Nat) (items : List String) :
    pruneItems gone number (items.map .text) = items.map .text := by
  induction items generalizing number with
  | nil => rfl
  | cons s items ih => exact congrArg (Toml.text s :: ·) (ih (number + 1))

/-- In a plain value there are no entries. -/
theorem Plain.prune_eq {v : Toml} (h : Plain v) (gone : Path → Bool) : prune gone v = v := by
  cases h with
  | texts items => rw [prune, pruneItems_texts]
  | _ => rfl

/-- The keys that are left are bare if all were. -/
theorem bare_pruneEntries {entries : List (String × Toml)} (h : ∀ e ∈ entries, IsBareKey e.1)
    (gone : Path → Bool) : ∀ e ∈ pruneEntries gone entries, IsBareKey e.1 := by
  intro e he
  rcases exists_of_mem_pruneEntries he with ⟨e', hmem, rfl⟩
  exact h e' hmem

theorem distinct_pruneEntries {entries : List (String × Toml)}
    (h : (entries.map Prod.fst).Nodup) (gone : Path → Bool) :
    ((pruneEntries gone entries).map Prod.fst).Nodup :=
  h.sublist (sublist_map_fst_pruneEntries gone entries)

/-- What is left of a flat table is flat. -/
theorem Flat.pruneEntries {entries : List (String × Toml)} (h : Flat entries)
    (gone : Path → Bool) : Flat (pruneEntries gone entries) := by
  refine ⟨bare_pruneEntries h.bare gone, distinct_pruneEntries h.distinct gone, fun e he => ?_⟩
  rcases exists_of_mem_pruneEntries he with ⟨e', hmem, rfl⟩
  rw [(h.plain e' hmem).prune_eq]
  exact h.plain e' hmem

/-- Tables of plain entries are left where there were some. -/
theorem exists_pruneItems_eq {gone : Path → Bool} {items : List (List (String × Toml))}
    (h : ∀ entries ∈ items, Flat entries) (number : Nat) :
    ∃ left : List (List (String × Toml)), pruneItems gone number (items.map .table) =
      left.map .table ∧ left.length = items.length ∧ ∀ entries ∈ left, Flat entries := by
  induction items generalizing number with
  | nil => exact ⟨[], rfl, rfl, h⟩
  | cons entries items ih =>
    rw [List.forall_mem_cons] at h
    rcases ih h.2 (number + 1) with ⟨left, hleft, hlength, hflat⟩
    refine ⟨Toml.pruneEntries (inside gone (.item number)) entries :: left, ?_, ?_, ?_⟩
    · rw [List.map_cons, pruneItems, hleft]
      rfl
    · rw [List.length_cons, List.length_cons, hlength]
    · rw [List.forall_mem_cons]
      exact ⟨h.1.pruneEntries _, hflat⟩

theorem Part.prune {v : Toml} (h : Part v) (gone : Path → Bool) : Part (prune gone v) := by
  cases h with
  | plain h =>
    rw [h.prune_eq]
    exact .plain h
  | table h => exact .table (h.pruneEntries gone)
  | tables hne h =>
    rcases exists_pruneItems_eq h 0 with ⟨left, hleft, hlength, hflat⟩
    rw [Toml.prune, hleft]
    refine .tables (fun hnil => hne ?_) hflat
    rw [← List.length_eq_zero_iff, ← hlength, hnil, List.length_nil]

/-- What is left of a document of sections is a document of sections. -/
theorem Sectioned.pruneEntries {entries : List (String × Toml)} (h : Sectioned entries)
    (gone : Path → Bool) : Sectioned (pruneEntries gone entries) := by
  refine ⟨bare_pruneEntries h.bare gone, distinct_pruneEntries h.distinct gone, fun e he => ?_⟩
  rcases exists_of_mem_pruneEntries he with ⟨e', hmem, rfl⟩
  exact (h.parts e' hmem).prune _

/-! ## Texts -/

/-- The text is read as a document of these entries, in some order. -/
def IsTextOf (content : String) (entries : List (String × Toml)) : Prop :=
  ∃ document, read? content = some (.table document) ∧ document.Perm entries

/-- A document of sections is written as a text of its entries. -/
theorem Sectioned.isTextOf_write {entries : List (String × Toml)} (h : Sectioned entries) :
    IsTextOf (write entries) entries :=
  ⟨_, read?_write h, List.filter_append_perm _ entries⟩

end Toml
end Formulary
