import Formulary.Function.Registry
import Formulary.Proofs.Value.Entries

/-!
# What registries hold

A registry in the making holds the conditional under its own name, and under every other
name the function that was registered last.  It notes which registrations could not be
followed.  Every registration keeps this so.  A registry that could be made holds nothing
that cannot be called.

Main definitions:

- `Registered`: the functions that some registrations may bring in.
- `Registration.introduced` and `Registration.unknown?`: what one registration brings in, and
  what it asks for in vain.
- `latest?`: the function that comes last under a name.
- `RegistryDraft.Records`: the invariant that links a draft to its registrations.
- `RegistryDraft.Regular`: what holds of every draft.

Main results:

- Theorem `distinctNames_eq_eraseDups`: names without repetition stand where they first
  occurred.
- Theorem `RegistryDraft.Records.follow`: every registration keeps the invariant.
- Theorem `RegistryDraft.records_ofRegistrations`: every draft records its registrations.
- Theorems `FunctionRegistry.find?_conditionalName` and `FunctionRegistry.of_find?`: what
  a registry holds.
- Theorem `FunctionRegistry.names_of_build`: in which order it holds them.
-/

namespace Formulary

/-! ## Tables -/

/-- What a table holds after entries with distinct keys are put. -/
theorem Table.get?_putAll {α : Type} (t : Table α) {entries : List (String × α)}
    (h : (entries.map Prod.fst).Nodup) (key : String) :
    (t.putAll entries).get? key = (findEntry key entries).or (t.get? key) := by
  induction entries generalizing t with
  | nil => rfl
  | cons entry rest ih =>
    rcases entry with ⟨k, v⟩
    rw [List.map_cons, List.nodup_cons] at h
    have hrest := ih (t.put k v) h.2
    rw [Table.putAll, List.foldl_cons]
    rw [Table.putAll] at hrest
    rw [hrest, Table.get?_put, findEntry]
    split
    · next heq =>
      subst heq
      rw [findEntry_eq_none h.1]
      rfl
    · rfl

/-- Among entries that are chosen by their keys those of the chosen keys are found. -/
theorem findEntry_filter {α : Type} (chosen : String → Bool) (key : String)
    (entries : List (String × α)) :
    findEntry key (entries.filter fun entry => chosen entry.1) =
      if chosen key = true then findEntry key entries else none := by
  induction entries with
  | nil => simp [findEntry]
  | cons entry rest ih =>
    rcases entry with ⟨k, v⟩
    by_cases hchosen : chosen k = true
    · rw [List.filter_cons, if_pos hchosen, findEntry, findEntry, ih]
      by_cases hk : k = key
      · rw [if_pos hk, if_pos hk, if_pos (hk ▸ hchosen)]
      · rw [if_neg hk, if_neg hk]
    · rw [List.filter_cons, if_neg hchosen, ih, findEntry]
      by_cases hk : k = key
      · rw [if_neg (hk ▸ hchosen), if_neg (hk ▸ hchosen)]
      · rw [if_neg hk]

/-- The entries whose values can be changed, with the changed values. -/
def changeValues {α β : Type} (g : α → Option β) (entries : List (String × α)) :
    List (String × β) :=
  entries.filterMap fun (k, a) => (g a).map fun b => (k, b)

theorem changeValues_of_none {α β : Type} {g : α → Option β} {v : α} (hv : g v = none)
    (k : String) (rest : List (String × α)) :
    changeValues g ((k, v) :: rest) = changeValues g rest := by
  simp [changeValues, hv]

theorem changeValues_of_some {α β : Type} {g : α → Option β} {v : α} {b : β} (hv : g v = some b)
    (k : String) (rest : List (String × α)) :
    changeValues g ((k, v) :: rest) = (k, b) :: changeValues g rest := by
  simp [changeValues, hv]

/-- Entries whose values are changed or dropped are found as before. -/
theorem findEntry_changeValues {α β : Type} (g : α → Option β) {entries : List (String × α)}
    (h : (entries.map Prod.fst).Nodup) (key : String) :
    findEntry key (changeValues g entries) = (findEntry key entries).bind g := by
  induction entries with
  | nil => rfl
  | cons entry rest ih =>
    rcases entry with ⟨k, v⟩
    rw [List.map_cons, List.nodup_cons] at h
    have hrest := ih h.2
    rw [findEntry]
    by_cases hk : k = key
    · subst hk
      rw [findEntry_eq_none h.1, Option.bind_none] at hrest
      rw [if_pos rfl, Option.bind_some]
      cases hv : g v with
      | none => rw [changeValues_of_none hv, hrest]
      | some b => rw [changeValues_of_some hv, findEntry, if_pos rfl]
    · rw [if_neg hk, ← hrest]
      cases hv : g v with
      | none => rw [changeValues_of_none hv]
      | some b => rw [changeValues_of_some hv, findEntry, if_neg hk]

/-- Keys stay distinct when values are changed or dropped. -/
theorem sublist_keys_changeValues {α β : Type} (g : α → Option β)
    (entries : List (String × α)) :
    ((changeValues g entries).map Prod.fst).Sublist (entries.map Prod.fst) := by
  induction entries with
  | nil => exact .slnil
  | cons entry rest ih =>
    rcases entry with ⟨k, v⟩
    cases hv : g v with
    | none =>
      rw [changeValues_of_none hv]
      exact ih.cons k
    | some b =>
      rw [changeValues_of_some hv]
      exact ih.cons_cons k

/-! ## Names -/

/-- Names are added behind those that are there, each one where it first occurred. -/
theorem foldl_addName (names acc : List String) :
    names.foldl (fun acc name => addName name acc) acc =
      acc ++ (names.filter fun name => !acc.contains name).eraseDups := by
  induction names generalizing acc with
  | nil => simp
  | cons name names ih =>
    rw [List.foldl_cons, ih]
    by_cases h : name ∈ acc
    · simp [addName, h]
    · have hfilter : (names.filter fun n => !(acc ++ [name]).contains n) =
          (names.filter fun n => !acc.contains n).filter fun n => !n == name := by
        rw [List.filter_filter]
        apply List.filter_congr
        intro n _
        rw [Bool.eq_iff_iff]
        simp [and_comm]
      simp only [addName, h, if_false, hfilter]
      simp [h, List.eraseDups_cons]

/-- Names without repetition stand where they first occurred. -/
theorem distinctNames_eq_eraseDups (names : List String) :
    distinctNames names = names.eraseDups := by
  have hall : (names.filter fun name => !([] : List String).contains name) = names :=
    List.filter_eq_self.2 fun _ _ => rfl
  rw [distinctNames, foldl_addName, hall, List.nil_append]

/-- A name at the end is added unless it was there. -/
theorem distinctNames_append_singleton (names : List String) (name : String) :
    distinctNames (names ++ [name]) = addName name (distinctNames names) :=
  List.foldl_append

theorem nodup_distinctNames (names : List String) : (distinctNames names).Nodup := by
  have run : ∀ acc : List String, acc.Nodup →
      (names.foldl (fun acc name => addName name acc) acc).Nodup := by
    induction names with
    | nil => exact fun _ h => h
    | cons name names ih => exact fun acc h => ih _ (nodup_addName h)
  exact run [] List.nodup_nil

/-- Names may be chosen before or after repetitions are dropped. -/
theorem filter_eraseDups (p : String → Bool) (names : List String) :
    names.eraseDups.filter p = (names.filter p).eraseDups := by
  -- on the length, for dropping the repetitions of one name leaves no tail of the list
  induction hlength : names.length using Nat.strongRecOn generalizing names with
  | ind n ih =>
    subst hlength
    cases names with
    | nil => rfl
    | cons name names =>
      have hshorter : (names.filter fun n => !n == name).length < (name :: names).length :=
        Nat.lt_succ_of_le (List.length_filter_le ..)
      have hrest := ih _ hshorter _ rfl
      rw [List.eraseDups_cons]
      by_cases hp : p name = true
      · have hcomm : (names.filter fun n => !n == name).filter p =
            (names.filter p).filter fun n => !n == name := by
          rw [List.filter_filter, List.filter_filter]
          simp only [Bool.and_comm]
        rw [List.filter_cons_of_pos hp, List.filter_cons_of_pos hp, List.eraseDups_cons, hrest,
          hcomm]
      · rw [List.filter_cons_of_neg hp, List.filter_cons_of_neg hp, hrest, List.filter_filter]
        congr 1
        apply List.filter_congr
        intro n _
        by_cases hn : n = name
        · simp [hn, hp]
        · simp [hn]

/-! ## Registrations -/

/-- The function is one of the host's registrations or a standard function. -/
def Registered (registrations : List Registration) (f : FunctionDescriptor) : Prop :=
  Registration.function f ∈ registrations ∨ ∃ s, f = .ofStandard s

namespace Registration

/-- The functions that a registration brings in, in order. -/
def introduced : Registration → List FunctionDescriptor
  | .function f => [f]
  | .standard name => ((StandardFunction.ofName? name).map .ofStandard).toList
  | .library => StandardFunction.all.map .ofStandard

/-- The name of a standard function that a registration asks for in vain. -/
def unknown? : Registration → Option String
  | .standard name => if (StandardFunction.ofName? name).isSome then none else some name
  | _ => none

/-- The functions that registrations bring in, in order. -/
def allIntroduced (registrations : List Registration) : List FunctionDescriptor :=
  registrations.flatMap introduced

/-- The names of the functions that registrations bring in, in order. -/
def allNames (registrations : List Registration) : List String :=
  (allIntroduced registrations).map FunctionDescriptor.name

end Registration

open Registration

/-- What registrations bring in is registered. -/
theorem registered_of_mem_allIntroduced {registrations : List Registration}
    {f : FunctionDescriptor} (h : f ∈ allIntroduced registrations) :
    Registered registrations f := by
  obtain ⟨r, hr, hf⟩ := List.mem_flatMap.1 h
  cases r with
  | function g =>
    rw [introduced, List.mem_singleton] at hf
    exact .inl (hf ▸ hr)
  | standard name =>
    obtain ⟨s, -, rfl⟩ := Option.map_eq_some_iff.1 (Option.mem_toList.1 hf)
    exact .inr ⟨s, rfl⟩
  | library =>
    obtain ⟨s, -, rfl⟩ := List.mem_map.1 hf
    exact .inr ⟨s, rfl⟩

/-- The function that comes last under a name. -/
def latest? (fs : List FunctionDescriptor) (name : String) : Option FunctionDescriptor :=
  fs.reverse.find? fun f => f.name == name

/-- The last function is the latest of its name. -/
theorem latest?_append_singleton (fs : List FunctionDescriptor) (f : FunctionDescriptor)
    (name : String) :
    latest? (fs ++ [f]) name = if f.name = name then some f else latest? fs name := by
  by_cases h : f.name = name <;> simp [latest?, h]

theorem name_of_latest? {fs : List FunctionDescriptor} {name : String} {f : FunctionDescriptor}
    (h : latest? fs name = some f) : f.name = name := by
  simpa using List.find?_some h

theorem mem_of_latest? {fs : List FunctionDescriptor} {name : String} {f : FunctionDescriptor}
    (h : latest? fs name = some f) : f ∈ fs :=
  List.mem_reverse.1 (List.mem_of_find?_eq_some h)

/-! ## Drafts -/

namespace RegistryDraft

variable {d : RegistryDraft}

/-- A function that is registered has its name added; the reserved name is there already. -/
theorem keys_register (h : conditionalName ∈ d.functions.keys) (f : FunctionDescriptor) :
    (d.register f).functions.keys = addName f.name d.functions.keys := by
  unfold register
  split
  · next hname => rw [hname, addName, if_pos h]
  · exact Table.keys_put ..

/-- A standard function is known by its name. -/
theorem registerStandard_name (d : RegistryDraft) (f : StandardFunction) :
    d.registerStandard f.name = d.register (.ofStandard f) := by
  cases f <;> rfl

/-- A registration that asks for nothing in vain registers the functions that it
brings in. -/
theorem follow_of_known {r : Registration} (h : r.unknown? = none) (d : RegistryDraft) :
    d.follow r = r.introduced.foldl register d := by
  cases r with
  | function f => rfl
  | standard name =>
    simp only [follow, registerStandard, Registration.introduced]
    cases hfind : StandardFunction.ofName? name with
    | none => simp [Registration.unknown?, hfind] at h
    | some f => rfl
  | library =>
    simp only [follow, Registration.introduced, List.foldl_map, registerStandard_name]

/-- A registration that asks for something in vain leaves nothing but a note of it. -/
theorem follow_of_unknown {r : Registration} {name : String} (h : r.unknown? = some name)
    (d : RegistryDraft) :
    r.introduced = [] ∧ d.follow r = { d with unknown := d.unknown ++ [name] } := by
  cases r with
  | standard asked =>
    simp only [follow, registerStandard, Registration.introduced]
    cases hfind : StandardFunction.ofName? asked with
    | some f => simp [Registration.unknown?, hfind] at h
    | none =>
      simp only [Registration.unknown?, hfind, Option.isSome_none, Bool.false_eq_true, if_false,
        Option.some.injEq] at h
      simp [h]
  | _ => cases h

/-- The draft holds the conditional and the last function under every other name, in the
order in which the names first came in, and has notes of the taken names and of those asked
for in vain. -/
structure Records (fs : List FunctionDescriptor) (asked : List String) (d : RegistryDraft) :
    Prop where
  keys : d.functions.keys = distinctNames (conditionalName :: fs.map FunctionDescriptor.name)
  held : ∀ name, d.functions.get? name =
    if name = conditionalName then some conditional else latest? fs name
  reserved : d.reserved = (fs.map FunctionDescriptor.name).filter (· == conditionalName)
  unknown : d.unknown = asked

variable {fs : List FunctionDescriptor} {asked : List String}

theorem records_start : Records [] [] start where
  keys := rfl
  held name := by
    simp only [start, Table.get?_put, Table.get?_empty, eq_comm (a := name)]
    rfl
  reserved := rfl
  unknown := rfl

theorem Records.mem_keys (h : Records fs asked d) : conditionalName ∈ d.functions.keys := by
  rw [h.keys, distinctNames_eq_eraseDups, List.mem_eraseDups]
  exact List.mem_cons_self

/-- A draft in which a function is registered records it. -/
theorem Records.register (h : Records fs asked d) (f : FunctionDescriptor) :
    Records (fs ++ [f]) asked (d.register f) := by
  have hkeys : (d.register f).functions.keys =
      distinctNames (conditionalName :: (fs ++ [f]).map FunctionDescriptor.name) := by
    rw [keys_register h.mem_keys, h.keys, List.map_append, ← List.cons_append]
    exact (distinctNames_append_singleton ..).symm
  unfold RegistryDraft.register at hkeys ⊢
  by_cases hname : f.name = conditionalName
  · rw [if_pos hname] at hkeys ⊢
    refine ⟨hkeys, fun name => ?_, ?_, h.unknown⟩
    · rw [h.held, latest?_append_singleton, hname]
      by_cases heq : name = conditionalName
      · rw [if_pos heq, if_pos heq]
      · rw [if_neg heq, if_neg heq, if_neg fun heq' => heq heq'.symm]
    · simp [h.reserved, hname]
  · rw [if_neg hname] at hkeys ⊢
    refine ⟨hkeys, fun name => ?_, ?_, h.unknown⟩
    · rw [Table.get?_put, h.held, latest?_append_singleton]
      by_cases heq : f.name = name
      · rw [if_pos heq, if_pos heq, if_neg (heq ▸ hname)]
      · rw [if_neg heq, if_neg heq]
    · simp [h.reserved, hname]

/-- A draft in which functions are registered records them in order. -/
theorem Records.foldl_register (h : Records fs asked d) (more : List FunctionDescriptor) :
    Records (fs ++ more) asked (more.foldl RegistryDraft.register d) := by
  induction more generalizing fs d with
  | nil => simpa using h
  | cons f more ih =>
    have hrest := ih (h.register f)
    rwa [List.append_assoc, List.singleton_append] at hrest

/-- Every registration is recorded. -/
theorem Records.follow (h : Records fs asked d) (r : Registration) :
    Records (fs ++ r.introduced) (asked ++ r.unknown?.toList) (d.follow r) := by
  cases hr : r.unknown? with
  | none =>
    rw [follow_of_known hr]
    simpa using h.foldl_register r.introduced
  | some name =>
    obtain ⟨hnothing, hfollow⟩ := follow_of_unknown hr d
    rw [hfollow, hnothing, List.append_nil]
    exact ⟨h.keys, h.held, h.reserved, by simp [h.unknown]⟩

/-- Every draft records its registrations. -/
theorem records_ofRegistrations (registrations : List Registration) :
    Records (allIntroduced registrations) (registrations.filterMap unknown?)
      (ofRegistrations registrations) := by
  have run : ∀ (rs : List Registration) {fs asked} {d : RegistryDraft}, Records fs asked d →
      Records (fs ++ rs.flatMap introduced) (asked ++ rs.filterMap unknown?)
        (rs.foldl RegistryDraft.follow d) := by
    intro rs
    induction rs with
    | nil => exact fun h => by simpa using h
    | cons r rs ih =>
      intro fs asked d h
      have hrest := ih (h.follow r)
      rw [List.append_assoc, List.append_assoc] at hrest
      have hasked : r.unknown?.toList ++ rs.filterMap unknown? = (r :: rs).filterMap unknown? := by
        cases hr : r.unknown? <;> simp [hr]
      rwa [hasked] at hrest
  exact run registrations records_start

/-- The conditional has its name, and every other function is a known one under the name
that it carries. -/
structure Regular (known : FunctionDescriptor → Prop) (d : RegistryDraft) : Prop where
  builtIn : d.functions.get? conditionalName = some conditional
  named : ∀ key f, d.functions.get? key = some f → f.name = key
  known : ∀ key f, d.functions.get? key = some f → key ≠ conditionalName → known f

/-- Every draft is regular. -/
theorem regular_ofRegistrations (registrations : List Registration) :
    Regular (Registered registrations) (ofRegistrations registrations) := by
  have hrecords := records_ofRegistrations registrations
  have hlatest : ∀ key f, (ofRegistrations registrations).functions.get? key = some f →
      key ≠ conditionalName → latest? (allIntroduced registrations) key = some f := by
    intro key f hf hkey
    rwa [hrecords.held, if_neg hkey] at hf
  refine ⟨(hrecords.held conditionalName).trans (if_pos rfl), fun key f hf => ?_,
    fun key f hf hkey => ?_⟩
  · by_cases hkey : key = conditionalName
    · rw [hrecords.held, if_pos hkey] at hf
      cases hf
      exact hkey.symm
    · exact name_of_latest? (hlatest key f hf hkey)
  · exact registered_of_mem_allIntroduced (mem_of_latest? (hlatest key f hf hkey))

/-- A draft without faults is finished if all its functions can be called, and then it is
the registry. -/
theorem finish_eq_ok_iff {functions : FunctionRegistry} :
    d.finish = .ok functions ↔ functions = ⟨d.functions⟩ ∧ d.reserved = [] ∧ d.unknown = [] ∧
      ∀ f ∈ d.functions.values, f.isCallable = true := by
  unfold finish
  constructor
  · intro h
    split at h
    · cases h
    · next hreserved =>
      split at h
      · cases h
      · next hunknown =>
        split at h
        · cases h
        · next hnone =>
          cases h
          exact ⟨rfl, hreserved, hunknown, by simpa using hnone⟩
  · rintro ⟨rfl, hreserved, hunknown, hcallable⟩
    have hnone : (d.functions.values.find? fun f => !f.isCallable) = none := by
      simpa using hcallable
    simp [hreserved, hunknown, hnone]

end RegistryDraft

namespace FunctionRegistry

variable {registrations : List Registration} {functions : FunctionRegistry}

/-- A registry has the conditional first, and then the registered functions where each
name was first registered. -/
theorem names_of_build (h : build registrations = .ok functions) :
    functions.names = (conditionalName ::
      (registrations.flatMap Registration.introduced).map FunctionDescriptor.name).eraseDups := by
  rcases RegistryDraft.finish_eq_ok_iff.1 h with ⟨rfl, -⟩
  rw [← distinctNames_eq_eraseDups]
  exact (RegistryDraft.records_ofRegistrations registrations).keys

/-- The conditional is in every registry. -/
theorem find?_conditionalName (h : build registrations = .ok functions) :
    functions.find? conditionalName = some conditional := by
  rcases RegistryDraft.finish_eq_ok_iff.1 h with ⟨rfl, -⟩
  exact (RegistryDraft.regular_ofRegistrations registrations).builtIn

/-- A function that is found carries its name, can be called, and is registered unless it
is the conditional. -/
theorem of_find? (h : build registrations = .ok functions) {key : String}
    {f : FunctionDescriptor} (hf : functions.find? key = some f) :
    f.name = key ∧ f.isCallable = true ∧
      (key ≠ conditionalName → Registered registrations f) := by
  rcases RegistryDraft.finish_eq_ok_iff.1 h with ⟨rfl, -, -, hcallable⟩
  have hregular := RegistryDraft.regular_ofRegistrations registrations
  refine ⟨hregular.named key f hf, hcallable f ?_, hregular.known key f hf⟩
  exact List.mem_map_of_mem (f := Prod.snd) (mem_of_findEntry hf)

/-- If no function of the host rewrites, the conditional is the only one that does. -/
theorem eq_conditionalName_of_rewrite (h : build registrations = .ok functions)
    (hplain : ∀ f, Registration.function f ∈ registrations → f.rewrite = none) {key : String}
    {f : FunctionDescriptor} (hf : functions.find? key = some f)
    (hrewrite : f.rewrite.isSome = true) : key = conditionalName := by
  rcases of_find? h hf with ⟨-, -, hregistered⟩
  by_cases hkey : key = conditionalName
  · exact hkey
  · rcases hregistered hkey with hmem | ⟨s, rfl⟩
    · rw [hplain f hmem] at hrewrite
      cases hrewrite
    · cases hrewrite

/-- The names are those under which functions are found. -/
theorem mem_names_iff (functions : FunctionRegistry) {key : String} :
    key ∈ functions.names ↔ ∃ f, functions.find? key = some f := by
  constructor
  · intro hmem
    cases hfind : functions.find? key with
    | some f => exact ⟨f, rfl⟩
    | none =>
      have hkeys : functions.names = functions.functions.entries.map Prod.fst := rfl
      rw [hkeys] at hmem
      exact absurd hfind (ne_none_of_mem_keys hmem)
  · rintro ⟨f, hfind⟩
    exact List.mem_map_of_mem (f := Prod.fst) (mem_of_findEntry hfind)

/-- The table of the implementations that are chosen by name. -/
theorem get?_implementations (functions : FunctionRegistry) (chosen : String → Bool)
    (key : String) :
    (Table.ofList (functions.implementations.filter fun f => chosen f.1)).get? key =
      if chosen key = true then (functions.find? key).bind FunctionDescriptor.implementation
      else none := by
  have heq : functions.implementations =
      changeValues FunctionDescriptor.implementation functions.functions.entries := rfl
  have hsublist := sublist_keys_changeValues FunctionDescriptor.implementation
    functions.functions.entries
  have hdistinct : ((functions.implementations.filter fun f => chosen f.1).map Prod.fst).Nodup :=
    functions.functions.distinct.sublist ((List.filter_sublist.map Prod.fst).trans hsublist)
  rw [Table.ofList, Table.get?_putAll _ hdistinct, Table.get?_empty, Option.or_none,
    findEntry_filter, heq, findEntry_changeValues _ functions.functions.distinct]
  rfl

end FunctionRegistry
end Formulary
