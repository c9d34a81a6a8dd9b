import Formulary.Proofs.Compilation.Registry
import Mathlib.Data.List.Basic
import Mathlib.Data.List.Find

/-!
# What comes of registrations

No registration fails by itself: what is wrong with one is noted, and reported when the
registry is made.  A taken name comes before a name that is asked for in vain, and that
before a function that cannot be called.  What is reported, and what the registry holds if
nothing is, can be read off the registrations, since a draft is determined by the functions
that they bring in and by what they ask for in vain.

Main definitions:

- `firstUncallable?`: the first name that comes last with a function that cannot be called.
- `Registration.fails`: a registration that is noted as a fault.
- `Registration.Harmless`: a registration without influence on what is reported.

Main results:

- Theorem `FunctionRegistry.build_filter_fails`: once one registration fails, those that do
  not have no influence.
- Theorem `FunctionRegistry.build_insert`: a harmless registration has no influence on the
  error.
- Theorem `build_registrations`: what comes of registrations, and what it depends on.
-/

namespace Formulary

/-! ## Tables -/

/-- The values of a table are those of its keys. -/
theorem Table.values_eq_filterMap {α : Type} (t : Table α) :
    t.values = t.keys.filterMap t.get? := by
  have hget : ∀ entry ∈ t.entries, t.get? entry.1 = some entry.2 :=
    fun entry hentry => findEntry_of_mem t.distinct hentry
  rw [keys, List.filterMap_map, values, ← List.filterMap_eq_map]
  exact List.filterMap_congr fun entry hentry => (hget entry hentry).symm

/-- The first value of a kind is that of the first key that has one. -/
theorem Table.find?_values {α : Type} (t : Table α) (p : α → Bool) :
    t.values.find? p = (t.keys.find? fun key => (t.get? key).any p).bind t.get? := by
  rw [values_eq_filterMap, List.find?_filterMap]

/-- The first name of a kind is found whether names are repeated or not. -/
theorem find?_eraseDups (p : String → Bool) (names : List String) :
    names.eraseDups.find? p = names.find? p := by
  have hhead : ∀ l : List String, l.eraseDups.head? = l.head? := by
    intro l
    cases l with
    | nil => rfl
    | cons name l => rw [List.eraseDups_cons, List.head?_cons, List.head?_cons]
  rw [← List.head?_filter, filter_eraseDups, hhead, List.head?_filter]

/-! ## Functions that cannot be called -/

/-- The first name that comes last with a function that cannot be called. -/
def firstUncallable? (fs : List FunctionDescriptor) : Option String :=
  (fs.map FunctionDescriptor.name).find? fun name => (latest? fs name).any fun f => !f.isCallable

/-- Some function under the name cannot be called. -/
def hasUncallable (fs : List FunctionDescriptor) (name : String) : Bool :=
  fs.any fun f => f.name == name && !f.isCallable

/-- Whether a function of a name cannot be called. -/
theorem hasUncallable_eq_true_iff {fs : List FunctionDescriptor} {name : String} :
    hasUncallable fs name = true ↔ ∃ f ∈ fs, f.name = name ∧ f.isCallable = false := by
  simp [hasUncallable]

/-- Functions under names of a kind are those that matter to a name of that kind. -/
theorem latest?_filter (fs : List FunctionDescriptor) {kind : String → Bool} {name : String}
    (h : kind name = true) :
    latest? (fs.filter fun f => kind f.name) name = latest? fs name := by
  rw [latest?, ← List.filter_reverse, List.find?_filter, latest?]
  apply List.find?_congr
  intro f _
  by_cases hname : f.name = name
  · simp [hname, h]
  · simp [hname]

/-- Only functions under names that some function that cannot be called has matter to the
first such name. -/
theorem firstUncallable?_filter {fs : List FunctionDescriptor} {kind : String → Bool}
    (h : ∀ f ∈ fs, f.isCallable = false → kind f.name = true) :
    firstUncallable? (fs.filter fun f => kind f.name) = firstUncallable? fs := by
  have hnames : (fs.filter fun f => kind f.name).map FunctionDescriptor.name =
      (fs.map FunctionDescriptor.name).filter kind := by
    rw [List.filter_map]
    rfl
  rw [firstUncallable?, firstUncallable?, hnames, List.find?_filter]
  apply List.find?_congr
  intro name _
  by_cases hkind : kind name = true
  · simp [hkind, latest?_filter fs hkind]
  · cases hlatest : latest? fs name with
    | none => simp [hkind]
    | some f =>
      cases hcallable : f.isCallable with
      | true => simp [hkind, hcallable]
      | false =>
        have hf := h f (mem_of_latest? hlatest) hcallable
        exact absurd (name_of_latest? hlatest ▸ hf) hkind

/-- Functions may come in anywhere if no function under their names is one that cannot be
called. -/
theorem firstUncallable?_insert {before fs after : List FunctionDescriptor}
    (h : ∀ f ∈ fs, hasUncallable (before ++ (fs ++ after)) f.name = false) :
    firstUncallable? (before ++ after) = firstUncallable? (before ++ (fs ++ after)) := by
  have hkind : ∀ f ∈ before ++ (fs ++ after), f.isCallable = false →
      hasUncallable (before ++ (fs ++ after)) f.name = true :=
    fun f hf hcallable => hasUncallable_eq_true_iff.2 ⟨f, hf, rfl, hcallable⟩
  have hothers : ∀ f ∈ before ++ after, f.isCallable = false →
      hasUncallable (before ++ (fs ++ after)) f.name = true := by
    intro f hf
    rw [List.mem_append] at hf
    refine hkind f ?_
    rw [List.mem_append, List.mem_append]
    exact hf.imp_right .inr
  have hnone : (fs.filter fun f => hasUncallable (before ++ (fs ++ after)) f.name) = [] := by
    rw [List.filter_eq_nil_iff]
    intro f hf
    rw [h f hf]
    exact Bool.false_ne_true
  rw [← firstUncallable?_filter hkind, ← firstUncallable?_filter hothers]
  simp only [List.filter_append, hnone, List.nil_append]

namespace Registration

/-- The registration is noted as a fault: it asks for a standard function in vain, or
brings in a function under the name of the conditional. -/
def fails (r : Registration) : Bool :=
  r.unknown?.isSome || r.introduced.any fun f => f.name == conditionalName

/-- The registration is not noted as a fault, and no function under one of its names is one
that cannot be called. -/
structure Harmless (registrations : List Registration) (r : Registration) : Prop where
  succeeds : r.fails = false
  callable : ∀ f ∈ r.introduced, hasUncallable (allIntroduced registrations) f.name = false

end Registration

open Registration

/-! ## What is reported -/

namespace RegistryDraft

variable {d : RegistryDraft} {fs : List FunctionDescriptor} {asked : List String}

/-- If no function comes under the name of the conditional, the names are those of the
functions behind it. -/
theorem Records.keys_of_free (h : Records fs asked d)
    (hfree : conditionalName ∉ fs.map FunctionDescriptor.name) :
    d.functions.keys = conditionalName :: (fs.map FunctionDescriptor.name).eraseDups := by
  have hothers : (fs.map FunctionDescriptor.name).filter (fun name => !name == conditionalName) =
      fs.map FunctionDescriptor.name := by
    rw [List.filter_eq_self]
    intro name hname
    have hne : name ≠ conditionalName := fun heq => hfree (heq ▸ hname)
    simpa using hne
  rw [h.keys, distinctNames_eq_eraseDups, List.eraseDups_cons, hothers]

/-- No reserved name was asked for exactly if none was introduced. -/
theorem Records.reserved_eq_nil_iff (h : Records fs asked d) :
    d.reserved = [] ↔ conditionalName ∉ fs.map FunctionDescriptor.name := by
  rw [h.reserved, List.filter_eq_nil_iff]
  constructor
  · exact fun hnone hmem => hnone _ hmem (beq_self_eq_true _)
  · intro hmem name hname heq
    exact hmem (beq_iff_eq.1 heq ▸ hname)

/-- A taken name is reported first. -/
theorem Records.finish_of_reserved (h : Records fs asked d)
    (hreserved : conditionalName ∈ fs.map FunctionDescriptor.name) :
    d.finish = .error (.reservedName conditionalName) := by
  unfold finish
  cases hd : d.reserved with
  | nil => exact absurd hreserved (h.reserved_eq_nil_iff.1 hd)
  | cons name rest =>
    have hname : name ∈ (fs.map FunctionDescriptor.name).filter (· == conditionalName) := by
      rw [← h.reserved, hd]
      exact List.mem_cons_self
    rw [beq_iff_eq.1 (List.mem_filter.1 hname).2]

/-- A name that was asked for in vain is reported next. -/
theorem Records.finish_of_unknown {name : String} {rest : List String}
    (h : Records fs (name :: rest) d)
    (hfree : conditionalName ∉ fs.map FunctionDescriptor.name) :
    d.finish = .error (.unknownStandard name) := by
  simp only [finish, h.reserved_eq_nil_iff.2 hfree, h.unknown]

/-- The first function of a draft that cannot be called is the one under the first name
that comes last with such a function. -/
theorem Records.find?_values (h : Records fs asked d)
    (hfree : conditionalName ∉ fs.map FunctionDescriptor.name) :
    d.functions.values.find? (fun f => !f.isCallable) =
      (firstUncallable? fs).bind (latest? fs) := by
  have hget : ∀ name ∈ fs.map FunctionDescriptor.name,
      d.functions.get? name = latest? fs name := by
    intro name hname
    have hne : name ≠ conditionalName := fun heq => hfree (heq ▸ hname)
    rw [h.held, if_neg hne]
  have hbuiltIn : (d.functions.get? conditionalName).any (fun f => !f.isCallable) = false := by
    rw [h.held, if_pos rfl]
    rfl
  have hfirst : (d.functions.keys.find? fun key =>
      (d.functions.get? key).any fun f => !f.isCallable) = firstUncallable? fs := by
    rw [h.keys_of_free hfree, List.find?_cons_of_neg (by rw [hbuiltIn]; exact Bool.false_ne_true),
      find?_eraseDups, firstUncallable?]
    exact List.find?_congr fun name hname => by rw [hget name hname]
  rw [Table.find?_values, hfirst]
  cases hname : firstUncallable? fs with
  | none => rfl
  | some name => exact hget name (List.mem_of_find?_eq_some hname)

end RegistryDraft

namespace FunctionRegistry

variable {registrations : List Registration}

/-- A reserved name is reported before anything else. -/
theorem build_of_reserved (h : conditionalName ∈ allNames registrations) :
    build registrations = .error (.reservedName conditionalName) :=
  (RegistryDraft.records_ofRegistrations registrations).finish_of_reserved h

/-- Without a reserved name, the first unknown one is reported. -/
theorem build_of_unknown (hfree : conditionalName ∉ allNames registrations) {name : String}
    {rest : List String} (hasked : registrations.filterMap unknown? = name :: rest) :
    build registrations = .error (.unknownStandard name) := by
  have hrecords := RegistryDraft.records_ofRegistrations registrations
  rw [hasked] at hrecords
  exact hrecords.finish_of_unknown hfree

/-- With good names only, the first function that cannot be called is reported. -/
theorem build_of_uncallable (hfree : conditionalName ∉ allNames registrations)
    (hasked : registrations.filterMap unknown? = []) {name : String}
    (hname : firstUncallable? (allIntroduced registrations) = some name) :
    build registrations = .error (.notCallable name) := by
  have hrecords := RegistryDraft.records_ofRegistrations registrations
  have hvalues := hrecords.find?_values hfree
  have huncallable := List.find?_some hname
  cases hlatest : latest? (allIntroduced registrations) name with
  | none => simp [hlatest] at huncallable
  | some f =>
    rw [hname, Option.bind_some, hlatest] at hvalues
    simp only [build, RegistryDraft.finish, hrecords.reserved_eq_nil_iff.2 hfree,
      hrecords.unknown, hasked, hvalues, name_of_latest? hlatest]

/-- Otherwise the registry is built, with the conditional first. -/
theorem build_of_callable (hfree : conditionalName ∉ allNames registrations)
    (hasked : registrations.filterMap unknown? = [])
    (hcallable : firstUncallable? (allIntroduced registrations) = none) :
    ∃ functions, build registrations = .ok functions ∧
      functions.names = conditionalName :: (allNames registrations).eraseDups ∧
      functions.find? conditionalName = some conditional ∧
      ∀ name, name ≠ conditionalName →
        functions.find? name = latest? (allIntroduced registrations) name := by
  have hrecords := RegistryDraft.records_ofRegistrations registrations
  have hvalues := hrecords.find?_values hfree
  rw [hcallable, Option.bind_none] at hvalues
  refine ⟨⟨(RegistryDraft.ofRegistrations registrations).functions⟩, ?_,
    hrecords.keys_of_free hfree, ?_, fun name hname => ?_⟩
  · simp only [build, RegistryDraft.finish, hrecords.reserved_eq_nil_iff.2 hfree,
      hrecords.unknown, hasked, hvalues]
  · exact (hrecords.held conditionalName).trans (if_pos rfl)
  · exact (hrecords.held name).trans (if_neg hname)

end FunctionRegistry

/-! ## What it depends on -/

namespace Registration

variable {registrations : List Registration}

theorem allIntroduced_append (before after : List Registration) :
    allIntroduced (before ++ after) = allIntroduced before ++ allIntroduced after :=
  List.flatMap_append

theorem allIntroduced_insert (before : List Registration) (r : Registration)
    (after : List Registration) :
    allIntroduced (before ++ r :: after) =
      allIntroduced before ++ (r.introduced ++ allIntroduced after) := by
  rw [allIntroduced_append]
  rfl

/-- The names of registrations are those that each of them introduces. -/
theorem mem_allNames_iff {name : String} :
    name ∈ allNames registrations ↔
      ∃ r ∈ registrations, ∃ f ∈ r.introduced, f.name = name := by
  rw [allNames, allIntroduced, List.map_flatMap, List.mem_flatMap]
  simp only [List.mem_map]

/-- A registration fails by an unknown or a reserved name. -/
theorem fails_eq_true_iff {r : Registration} :
    r.fails = true ↔ (∃ name, r.unknown? = some name) ∨
      ∃ f ∈ r.introduced, f.name = conditionalName := by
  simp [fails, Option.isSome_iff_exists]

/-- The faults that are noted are the same without the registrations that do not fail. -/
theorem faults_filter_fails (registrations : List Registration) :
    (conditionalName ∈ allNames (registrations.filter fails) ↔
      conditionalName ∈ allNames registrations) ∧
    (registrations.filter fails).filterMap unknown? = registrations.filterMap unknown? := by
  constructor
  · simp only [mem_allNames_iff, List.mem_filter]
    constructor
    · rintro ⟨r, ⟨hr, -⟩, f, hf, hname⟩
      exact ⟨r, hr, f, hf, hname⟩
    · rintro ⟨r, hr, f, hf, hname⟩
      exact ⟨r, ⟨hr, fails_eq_true_iff.2 (.inr ⟨f, hf, hname⟩)⟩, f, hf, hname⟩
  · rw [List.filterMap_filter]
    apply List.filterMap_congr
    intro r _
    by_cases hfails : r.fails = true
    · rw [if_pos hfails]
    · rw [if_neg hfails]
      cases hr : r.unknown? with
      | none => rfl
      | some name => exact absurd (fails_eq_true_iff.2 (.inl ⟨name, hr⟩)) hfails

/-- A harmless registration is no part of what is reported. -/
theorem Harmless.faults_insert {before after : List Registration} {r : Registration}
    (h : r.Harmless (before ++ r :: after)) :
    (conditionalName ∈ allNames (before ++ after) ↔
      conditionalName ∈ allNames (before ++ r :: after)) ∧
    (before ++ after).filterMap unknown? = (before ++ r :: after).filterMap unknown? ∧
    firstUncallable? (allIntroduced (before ++ after)) =
      firstUncallable? (allIntroduced (before ++ r :: after)) := by
  have hsucceeds : ¬((∃ name, r.unknown? = some name) ∨
      ∃ f ∈ r.introduced, f.name = conditionalName) := by
    rw [← fails_eq_true_iff, h.succeeds]
    exact Bool.false_ne_true
  rw [not_or] at hsucceeds
  refine ⟨?_, ?_, ?_⟩
  · simp only [mem_allNames_iff, List.mem_append, List.mem_cons, or_and_right, exists_or,
      exists_eq_left, hsucceeds.2, false_or]
  · have hknown : r.unknown? = none := by
      rw [← Option.not_isSome_iff_eq_none, Option.isSome_iff_exists]
      exact hsucceeds.1
    rw [List.filterMap_append, List.filterMap_append, List.filterMap_cons_none hknown]
  · have hall := allIntroduced_insert before r after
    have hcallable := h.callable
    rw [hall] at hcallable
    rw [hall, allIntroduced_append]
    exact firstUncallable?_insert hcallable

end Registration

namespace FunctionRegistry

variable {registrations : List Registration}

/-- Registrations that do not fail have no influence once one fails. -/
theorem build_filter_fails (h : ∃ r ∈ registrations, r.fails = true) :
    build (registrations.filter fails) = build registrations := by
  obtain ⟨hreserved, hunknown⟩ := faults_filter_fails registrations
  by_cases hfree : conditionalName ∈ allNames registrations
  · rw [build_of_reserved hfree, build_of_reserved (hreserved.2 hfree)]
  cases hasked : registrations.filterMap unknown? with
  | cons name rest =>
    rw [build_of_unknown hfree hasked,
      build_of_unknown (mt hreserved.1 hfree) (hunknown.trans hasked)]
  | nil =>
    obtain ⟨r, hr, hfails⟩ := h
    rcases fails_eq_true_iff.1 hfails with ⟨name, hname⟩ | htaken
    · have hmem : name ∈ registrations.filterMap unknown? := List.mem_filterMap.2 ⟨r, hr, hname⟩
      rw [hasked] at hmem
      cases hmem
    · exact absurd (mem_allNames_iff.2 ⟨r, hr, htaken⟩) hfree

/-- Harmless registrations have no influence on the error. -/
theorem build_insert {before after : List Registration} {r : Registration}
    (h : r.Harmless (before ++ r :: after)) (err : RegistryError) :
    build (before ++ after) = .error err ↔ build (before ++ r :: after) = .error err := by
  obtain ⟨hreserved, hunknown, huncallable⟩ := h.faults_insert
  by_cases hfree : conditionalName ∈ allNames (before ++ r :: after)
  · rw [build_of_reserved hfree, build_of_reserved (hreserved.2 hfree)]
  have hfree' := mt hreserved.1 hfree
  cases hasked : (before ++ r :: after).filterMap unknown? with
  | cons name rest =>
    rw [build_of_unknown hfree hasked, build_of_unknown hfree' (hunknown.trans hasked)]
  | nil =>
    have hasked' := hunknown.trans hasked
    cases hfirst : firstUncallable? (allIntroduced (before ++ r :: after)) with
    | some name =>
      rw [build_of_uncallable hfree hasked hfirst,
        build_of_uncallable hfree' hasked' (huncallable.trans hfirst)]
    | none =>
      obtain ⟨functions, hbuild, -⟩ := build_of_callable hfree hasked hfirst
      obtain ⟨functions', hbuild', -⟩ :=
        build_of_callable hfree' hasked' (huncallable.trans hfirst)
      simp [hbuild, hbuild']

end FunctionRegistry

open FunctionRegistry

/-- Whatever is registered, in whatever order: a name that is taken is reported, if some
function comes under it; otherwise the first standard function that was asked for in vain,
if there is one; otherwise the first name that comes last with a function that cannot be
called, if there is one.  Otherwise there is a registry.  It has the conditional first, and
then every name where it was first registered, with the function that was registered under
it last.  What fails is reported whatever else is registered before, in between and after,
and a registration that does not fail has no influence on the error either as long as no
function under its names is one that cannot be called. -/
theorem build_registrations (registrations : List Registration) :
    (conditionalName ∈ allNames registrations →
      build registrations = .error (.reservedName conditionalName)) ∧
    (conditionalName ∉ allNames registrations →
      ∀ name rest, registrations.filterMap unknown? = name :: rest →
        build registrations = .error (.unknownStandard name)) ∧
    (conditionalName ∉ allNames registrations → registrations.filterMap unknown? = [] →
      ∀ name, firstUncallable? (allIntroduced registrations) = some name →
        build registrations = .error (.notCallable name)) ∧
    (conditionalName ∉ allNames registrations → registrations.filterMap unknown? = [] →
      firstUncallable? (allIntroduced registrations) = none →
        ∃ functions, build registrations = .ok functions ∧
          functions.names = conditionalName :: (allNames registrations).eraseDups ∧
          functions.find? conditionalName = some conditional ∧
          ∀ name, name ≠ conditionalName →
            functions.find? name = latest? (allIntroduced registrations) name) ∧
    ((∃ r ∈ registrations, r.fails = true) →
      build (registrations.filter fails) = build registrations) ∧
    (∀ before r after, registrations = before ++ r :: after → r.Harmless registrations →
      ∀ err, build (before ++ after) = .error err ↔ build registrations = .error err) := by
  refine ⟨build_of_reserved, fun hfree _ _ => build_of_unknown hfree,
    fun hfree hasked _ => build_of_uncallable hfree hasked, build_of_callable,
    build_filter_fails, ?_⟩
  rintro before r after rfl hharmless err
  exact build_insert hharmless err

/-- A function with nothing to call and nothing to put in the place of a call. -/
def hollow (name : String) : FunctionDescriptor where
  name := name
  arity := .any

/-- All three faults at once; the two that are left, with and without what does not fail
among them; the one that is left, with and without a function that has nothing to do with
it; and none. -/
theorem build_registrations_faults :
    build [.function (hollow "max"), .standard "cosine", .function (hollow "shape"),
        .function conditional, .standard "sine", .library] = .error (.reservedName "IF") ∧
      build [.function (hollow "max"), .standard "cosine", .function (hollow "shape"),
        .standard "sine", .library] = .error (.unknownStandard "cosine") ∧
      build [.standard "cosine", .standard "sine"] = .error (.unknownStandard "cosine") ∧
      build [.function (hollow "max"), .standard "abs", .function (hollow "shape"), .library] =
        .error (.notCallable "shape") ∧
      build [.function (hollow "max"), .function (hollow "shape"), .library] =
        .error (.notCallable "shape") ∧
      ∃ functions, build [.function (hollow "max"), .standard "abs", .library] = .ok functions ∧
        functions.names = ["IF", "max", "abs", "coalesce", "len", "mean", "min", "round", "sum"] ∧
        functions.find? "IF" = some conditional ∧
        functions.find? "max" = some (.ofStandard .max) := by
  have htaken := (build_registrations [.function (hollow "max"), .standard "cosine",
    .function (hollow "shape"), .function conditional, .standard "sine", .library]).1 (by decide)
  obtain ⟨-, hunknown, -, -, hfaults, -⟩ := build_registrations [.function (hollow "max"),
    .standard "cosine", .function (hollow "shape"), .standard "sine", .library]
  have hasked := hunknown (by decide) "cosine" ["sine"] rfl
  have halone := hfaults ⟨.standard "cosine", by simp, rfl⟩
  obtain ⟨-, -, huncallable, -, -, hinsert⟩ := build_registrations [.function (hollow "max"),
    .standard "abs", .function (hollow "shape"), .library]
  have hshape := huncallable (by decide) rfl "shape" rfl
  have hharmless : (Registration.standard "abs").Harmless [.function (hollow "max"),
      .standard "abs", .function (hollow "shape"), .library] := ⟨rfl, by decide⟩
  have hbare := (hinsert [.function (hollow "max")] _ [.function (hollow "shape"), .library] rfl
    hharmless _).2 hshape
  obtain ⟨functions, hbuild, hnames, hbuiltIn, hlatest⟩ := (build_registrations
    [.function (hollow "max"), .standard "abs", .library]).2.2.2.1 (by decide) rfl rfl
  exact ⟨htaken, hasked, halone.trans hasked, hshape, hbare, functions, hbuild, hnames, hbuiltIn,
    hlatest "max" (by decide)⟩

end Formulary
