import Formulary.Table

/-!
# Entries under keys

An entry is found under its key if no key comes twice.  Maps and objects keep their entries
in ascending order of the keys, each key once.  Entries that are put one after the other end
up in that order, whatever order they came in, and lists in that order are equal once they
hold the same under every key.

Main definitions:

- `Ascending`: the keys ascend, each of them once.

Main results:

- Theorem `findEntry_eq_some_iff`: which entries are found.
- Theorem `ascending_sortEntries`: sorting leaves the keys in ascending order.
- Theorem `findEntry_sortEntries`: sorting keeps what every key has, if no key comes twice.
- Theorem `sortEntries_of_ascending`: sorting leaves sorted entries alone.
- Theorem `Ascending.ext`: sorted entries that hold the same are the same.
-/

namespace Formulary

variable {α : Type}

/-! ## Finding -/

/-- A key of entries with distinct keys has the value of its entry. -/
theorem findEntry_of_mem {entries : List (String × α)} (h : (entries.map Prod.fst).Nodup)
    {key : String} {value : α} (hmem : (key, value) ∈ entries) :
    findEntry key entries = some value := by
  induction entries with
  | nil => cases hmem
  | cons entry rest ih =>
    obtain ⟨k, v⟩ := entry
    obtain ⟨hk, hrest⟩ := List.nodup_cons.1 h
    rw [findEntry]
    rcases List.mem_cons.1 hmem with heq | hmem
    · cases heq
      exact if_pos rfl
    · have hkey : key ∈ rest.map Prod.fst := List.mem_map_of_mem (f := Prod.fst) hmem
      have hne : k ≠ key := fun heq => hk (heq ▸ hkey)
      rw [if_neg hne, ih hrest hmem]

/-- If the keys are distinct, what is found under a key is what stands there. -/
theorem findEntry_eq_some_iff {entries : List (String × α)}
    (h : (entries.map Prod.fst).Nodup) {key : String} {value : α} :
    findEntry key entries = some value ↔ (key, value) ∈ entries :=
  ⟨mem_of_findEntry, findEntry_of_mem h⟩

/-- The order of entries does not count if no key comes twice. -/
theorem findEntry_perm {entries others : List (String × α)}
    (h : entries.Perm others) (hdistinct : (others.map Prod.fst).Nodup) (key : String) :
    findEntry key entries = findEntry key others := by
  refine Option.ext fun value => ?_
  have hdistinct' := (h.map Prod.fst).nodup_iff.2 hdistinct
  rw [findEntry_eq_some_iff hdistinct, findEntry_eq_some_iff hdistinct', h.mem_iff]

/-! ## Appending -/

/-- A new key comes in behind all others. -/
theorem putEntry_append {key : String} {entries : List (String × α)}
    (h : key ∉ entries.map Prod.fst) (value : α) (more : List (String × α)) :
    putEntry key value (entries ++ more) = entries ++ putEntry key value more := by
  induction entries with
  | nil => rfl
  | cons entry entries ih =>
    obtain ⟨k, v⟩ := entry
    rw [List.map_cons, List.mem_cons, not_or] at h
    have hk : ¬k = key := fun heq => h.1 heq.symm
    simp [putEntry, hk, ih h.2]

/-- An entry is the one that was put or was there before. -/
theorem mem_of_mem_putEntry {key : String} {value : α} {entries : List (String × α)}
    {entry : String × α} (h : entry ∈ putEntry key value entries) :
    entry = (key, value) ∨ entry ∈ entries := by
  induction entries with
  | nil => simpa [putEntry] using h
  | cons first entries ih =>
    obtain ⟨k, v⟩ := first
    by_cases hk : k = key
    · simp only [putEntry, hk, if_true, List.mem_cons] at h
      rcases h with rfl | h
      · exact .inl rfl
      · exact .inr (List.mem_cons_of_mem _ h)
    · simp only [putEntry, hk, if_false, List.mem_cons] at h
      rcases h with rfl | h
      · exact .inr (List.mem_cons_self ..)
      · rcases ih h with rfl | hmem
        · exact .inl rfl
        · exact .inr (List.mem_cons_of_mem _ hmem)

/-- The entries in front are found first. -/
theorem findEntry_append (key : String) (entries more : List (String × α)) :
    findEntry key (entries ++ more) = (findEntry key entries).or (findEntry key more) := by
  induction entries with
  | nil => rfl
  | cons entry entries ih =>
    obtain ⟨k, v⟩ := entry
    rw [List.cons_append, findEntry, findEntry, ih]
    split <;> rfl

/-! ## Order of keys -/

/-- The keys ascend, each of them once. -/
def Ascending (entries : List (String × α)) : Prop :=
  (entries.map Prod.fst).Pairwise (· < ·)

instance (entries : List (String × α)) : Decidable (Ascending entries) :=
  inferInstanceAs (Decidable ((entries.map Prod.fst).Pairwise (· < ·)))

@[simp]
theorem ascending_nil : Ascending ([] : List (String × α)) :=
  List.Pairwise.nil

/-- Keys ascend if the first one is below the others and those ascend. -/
@[simp]
theorem ascending_cons {key : String} {value : α} {entries : List (String × α)} :
    Ascending ((key, value) :: entries) ↔
      (∀ k ∈ entries.map Prod.fst, key < k) ∧ Ascending entries :=
  List.pairwise_cons

/-- Keys in strictly ascending order are distinct. -/
theorem Ascending.nodup {entries : List (String × α)} (h : Ascending entries) :
    (entries.map Prod.fst).Nodup := by
  refine List.Pairwise.imp (fun {a b} (hlt : a < b) => ?_) h
  intro heq
  exact String.lt_irrefl b (heq ▸ hlt)

/-! ## Putting one entry -/

theorem mem_keys_putSorted {key k : String} {value : α} {entries : List (String × α)} :
    k ∈ (putSorted key value entries).map Prod.fst ↔ k = key ∨ k ∈ entries.map Prod.fst := by
  induction entries with
  | nil => simp [putSorted]
  | cons entry rest ih =>
    obtain ⟨l, v⟩ := entry
    by_cases heq : l = key
    · simp [putSorted, heq]
    by_cases hlt : key < l
    · simp [putSorted, heq, hlt]
    · simp only [putSorted, heq, hlt, if_false, List.map_cons, List.mem_cons, ih]
      exact or_left_comm

/-- What a list of entries holds after one entry is put. -/
theorem findEntry_putSorted (key k : String) (value : α) (entries : List (String × α)) :
    findEntry k (putSorted key value entries) =
      if key = k then some value else findEntry k entries := by
  induction entries with
  | nil => simp [putSorted, findEntry]
  | cons entry rest ih =>
    obtain ⟨l, v⟩ := entry
    by_cases heq : l = key
    · subst heq
      by_cases hk : l = k <;> simp [putSorted, findEntry, hk]
    by_cases hlt : key < l
    · simp [putSorted, findEntry, heq, hlt]
    · rw [putSorted, if_neg heq, if_neg hlt, findEntry, findEntry, ih]
      by_cases hk : l = k
      · have hne : key ≠ k := fun h => heq (hk.trans h.symm)
        simp [hk, hne]
      · simp [hk]

/-- Of two different texts that are not in order, the other order holds. -/
theorem lt_of_not_lt {a b : String} (hne : a ≠ b) (h : ¬b < a) : a < b := by
  refine Decidable.byContradiction fun hnot => hne ?_
  exact String.le_antisymm (String.not_lt.1 h) (String.not_lt.1 hnot)

/-- Putting an entry keeps the order. -/
theorem Ascending.putSorted {entries : List (String × α)} (h : Ascending entries)
    (key : String) (value : α) : Ascending (putSorted key value entries) := by
  induction entries with
  | nil => simp [Formulary.putSorted]
  | cons entry rest ih =>
    obtain ⟨l, v⟩ := entry
    obtain ⟨hhead, hrest⟩ := ascending_cons.1 h
    by_cases heq : l = key
    · subst heq
      rw [Formulary.putSorted, if_pos rfl, ascending_cons]
      exact ⟨hhead, hrest⟩
    by_cases hlt : key < l
    · simp only [Formulary.putSorted, heq, hlt, if_false, if_true, ascending_cons]
      refine ⟨fun k hk => ?_, hhead, hrest⟩
      rcases List.mem_cons.1 hk with hk | hk
      · exact hk ▸ hlt
      · exact String.lt_trans hlt (hhead k hk)
    · simp only [Formulary.putSorted, heq, hlt, if_false, ascending_cons]
      refine ⟨fun k hk => ?_, ih hrest⟩
      rcases mem_keys_putSorted.1 hk with hk | hk
      · exact hk ▸ lt_of_not_lt heq hlt
      · exact hhead k hk

/-- A key above all others goes to the end. -/
theorem putSorted_of_forall_lt {key : String} {value : α} {entries : List (String × α)}
    (h : ∀ k ∈ entries.map Prod.fst, k < key) :
    putSorted key value entries = entries ++ [(key, value)] := by
  induction entries with
  | nil => simp [putSorted]
  | cons entry rest ih =>
    obtain ⟨l, v⟩ := entry
    obtain ⟨hhead, hrest⟩ := List.forall_mem_cons.1 h
    have heq : l ≠ key := fun heq => String.lt_irrefl key (heq ▸ hhead)
    simp [putSorted, heq, String.lt_asymm hhead, ih hrest]

/-! ## Sorting -/

/-- Puts entries one after the other into entries that are sorted. -/
def putAllSorted (sorted entries : List (String × α)) : List (String × α) :=
  entries.foldl (fun acc (k, v) => putSorted k v acc) sorted

@[simp]
theorem putAllSorted_cons (sorted : List (String × α)) (key : String) (value : α)
    (entries : List (String × α)) :
    putAllSorted sorted ((key, value) :: entries) =
      putAllSorted (putSorted key value sorted) entries :=
  rfl

/-- Putting entries one by one keeps the keys in order. -/
theorem Ascending.putAllSorted {sorted : List (String × α)} (h : Ascending sorted)
    (entries : List (String × α)) : Ascending (putAllSorted sorted entries) := by
  induction entries generalizing sorted with
  | nil => exact h
  | cons entry rest ih => exact ih (h.putSorted entry.1 entry.2)

/-- Sorting leaves the keys in ascending order. -/
theorem ascending_sortEntries (entries : List (String × α)) :
    Ascending (sortEntries entries) :=
  ascending_nil.putAllSorted entries

/-- An entry is the one that was put or was there before, also in sorted entries. -/
theorem mem_of_mem_putSorted {key : String} {value : α} {entries : List (String × α)}
    {entry : String × α} (h : entry ∈ putSorted key value entries) :
    entry = (key, value) ∨ entry ∈ entries := by
  induction entries with
  | nil => simpa [putSorted] using h
  | cons first entries ih =>
    obtain ⟨k, v⟩ := first
    rw [putSorted] at h
    split at h
    · rcases List.mem_cons.1 h with rfl | h
      · exact .inl rfl
      · exact .inr (List.mem_cons_of_mem _ h)
    · split at h
      · exact List.mem_cons.1 h
      · rcases List.mem_cons.1 h with rfl | h
        · exact .inr (List.mem_cons_self ..)
        · exact (ih h).imp_right (List.mem_cons_of_mem _)

/-- Sorting brings in no entry. -/
theorem mem_of_mem_sortEntries {entries : List (String × α)} {entry : String × α}
    (h : entry ∈ sortEntries entries) : entry ∈ entries := by
  have run : ∀ sorted : List (String × α),
      entry ∈ putAllSorted sorted entries → entry ∈ sorted ∨ entry ∈ entries := by
    clear h
    induction entries with
    | nil => exact fun sorted h => .inl h
    | cons first entries ih =>
      intro sorted h
      obtain ⟨k, v⟩ := first
      rw [putAllSorted_cons] at h
      rcases ih _ h with h | h
      · rcases mem_of_mem_putSorted h with rfl | h
        · exact .inr (List.mem_cons_self ..)
        · exact .inl h
      · exact .inr (List.mem_cons_of_mem _ h)
  exact (run [] h).resolve_left (List.not_mem_nil)

/-- What is put hides what was there. -/
theorem findEntry_putAllSorted {entries : List (String × α)}
    (h : (entries.map Prod.fst).Nodup) (sorted : List (String × α)) (k : String) :
    findEntry k (putAllSorted sorted entries) =
      (findEntry k entries).or (findEntry k sorted) := by
  induction entries generalizing sorted with
  | nil => rfl
  | cons entry rest ih =>
    obtain ⟨key, value⟩ := entry
    obtain ⟨hkey, hrest⟩ := List.nodup_cons.1 h
    rw [putAllSorted_cons, ih hrest, findEntry_putSorted, findEntry]
    by_cases heq : key = k
    · subst heq
      simp [findEntry_eq_none hkey]
    · simp [heq]

/-- Sorting keeps what every key has, if no key comes twice. -/
theorem findEntry_sortEntries {entries : List (String × α)}
    (h : (entries.map Prod.fst).Nodup) (k : String) :
    findEntry k (sortEntries entries) = findEntry k entries :=
  (findEntry_putAllSorted h [] k).trans (Option.or_none ..)

/-- Entries that ascend come in one behind the other. -/
theorem putAllSorted_of_ascending {sorted entries : List (String × α)}
    (h : Ascending (sorted ++ entries)) : putAllSorted sorted entries = sorted ++ entries := by
  induction entries generalizing sorted with
  | nil => exact (List.append_nil sorted).symm
  | cons entry rest ih =>
    obtain ⟨key, value⟩ := entry
    have hbelow : ∀ k ∈ sorted.map Prod.fst, k < key := by
      rw [Ascending, List.map_append, List.map_cons, List.pairwise_append] at h
      exact fun k hk => h.2.2 k hk key List.mem_cons_self
    rw [putAllSorted_cons, putSorted_of_forall_lt hbelow, ih] <;>
      rw [List.append_assoc, List.singleton_append]
    exact h

/-- Sorting leaves sorted entries alone. -/
theorem sortEntries_of_ascending {entries : List (String × α)} (h : Ascending entries) :
    sortEntries entries = entries :=
  @putAllSorted_of_ascending _ [] _ h

/-! ## Equality -/

/-- No key of sorted entries is below the first one. -/
theorem Ascending.not_lt_head {key k : String} {value v : α} {entries : List (String × α)}
    (h : Ascending ((key, value) :: entries))
    (hfind : findEntry k ((key, value) :: entries) = some v) : ¬k < key := by
  have hmem := List.mem_map_of_mem (f := Prod.fst) (mem_of_findEntry hfind)
  rcases List.mem_cons.1 hmem with heq | hrest
  · have hkey : k = key := heq
    exact hkey ▸ String.lt_irrefl k
  · exact String.lt_asymm ((ascending_cons.1 h).1 k hrest)

/-- Sorted entries that hold the same under every key are the same. -/
theorem Ascending.ext {a b : List (String × α)} (ha : Ascending a) (hb : Ascending b)
    (h : ∀ k, findEntry k a = findEntry k b) : a = b := by
  induction a generalizing b with
  | nil =>
    cases b with
    | nil => rfl
    | cons entry rest =>
      have hhead := h entry.1
      simp [findEntry] at hhead
  | cons entry as ih =>
    obtain ⟨k, v⟩ := entry
    cases b with
    | nil =>
      have hhead := h k
      simp [findEntry] at hhead
    | cons entry bs =>
      obtain ⟨l, w⟩ := entry
      have hk : findEntry k ((l, w) :: bs) = some v := by rw [← h k, findEntry, if_pos rfl]
      have hl : findEntry l ((k, v) :: as) = some w := by rw [h l, findEntry, if_pos rfl]
      -- Each first key is found in the other list, so neither is below the other.
      have hkey : k = l := by
        by_cases heq : k = l
        · exact heq
        · exact absurd (lt_of_not_lt heq (ha.not_lt_head hl)) (hb.not_lt_head hk)
      subst hkey
      rw [findEntry, if_pos rfl] at hk
      have htail : as = bs := by
        refine ih (ascending_cons.1 ha).2 (ascending_cons.1 hb).2 fun key => ?_
        have hkey := h key
        rw [findEntry, findEntry] at hkey
        by_cases heq : k = key
        · subst heq
          rw [findEntry_eq_none (List.nodup_cons.1 ha.nodup).1,
            findEntry_eq_none (List.nodup_cons.1 hb.nodup).1]
        · rwa [if_neg heq, if_neg heq] at hkey
      rw [htail, Option.some.inj hk]

end Formulary
