import Formulary.Proofs.Compilation.Lockstep
import Formulary.Proofs.Compilation.Touched
import Formulary.Proofs.Value.Entries

/-!
# Longer whitelists

Variables that are registered behind the others never take over a name, and functions
that are registered under new names never take over a call.  So whatever an engine
compiles, an engine with a longer whitelist compiles to the same formula: the walk goes
the same way, including the walks through what functions of the host put in the place
of their calls.

Main definitions:

- `Registration.Adds`: a registration of functions under new names.
- `Whitelist.Extends`: a whitelist with further entries at its end.
- `Walk.Keeps`: a walk that is the same if the other one comes to a result.
- `Resolver.CallsOnly`: what a resolver puts in the place of a variable calls registered
  functions only.

Main results:

- Theorem `RegistryDraft.Extends.follow`: new functions come in behind the others.
- Theorem `Whitelist.Extends.keeps_visit`: the walk through a tree stays the same.
- Theorem `compile_extended`: what an engine compiles stays the same.
-/

namespace Formulary

open Formulary.Expr

/-! ## Registries -/

/-- Functions behind the others leave those that are found. -/
theorem FunctionRegistry.find?_of_append {functions extended : FunctionRegistry}
    {more : List (String × FunctionDescriptor)}
    (hmore : extended.functions.entries = functions.functions.entries ++ more) {f : String}
    {d : FunctionDescriptor} (hfind : functions.find? f = some d) :
    extended.find? f = some d := by
  rw [find?, Table.get?] at hfind ⊢
  rw [hmore, findEntry_append, hfind]
  rfl

/-- The registration brings in functions that exist and can be called, under names that
are not among the given ones. -/
structure Registration.Adds (names : List String) (r : Registration) : Prop where
  known : ∀ name, r = .standard name → (StandardFunction.ofName? name).isSome = true
  callable : ∀ f ∈ r.introduced, f.isCallable = true
  fresh : ∀ f ∈ r.introduced, f.name ∉ names

/-- Functions that exist are not asked for in vain. -/
theorem Registration.Adds.unknown?_eq {names : List String} {r : Registration}
    (h : r.Adds names) : r.unknown? = none := by
  cases r with
  | standard name => exact if_pos (h.known name rfl)
  | _ => rfl

namespace RegistryDraft

/-- A draft with further functions behind those of another one, and no further faults. -/
structure Extends (d d' : RegistryDraft) (more : List (String × FunctionDescriptor)) : Prop where
  entries_eq : d'.functions.entries = d.functions.entries ++ more
  callable : ∀ entry ∈ more, entry.2.isCallable = true
  reserved_eq : d'.reserved = d.reserved
  unknown_eq : d'.unknown = d.unknown

variable {d d' : RegistryDraft} {more : List (String × FunctionDescriptor)}

/-- A function under a new name comes in behind the others. -/
theorem Extends.register (h : d.Extends d' more) (hbuiltIn : conditionalName ∈ d.functions.keys)
    {f : FunctionDescriptor} (hcallable : f.isCallable = true)
    (hfresh : f.name ∉ d.functions.keys) :
    d.Extends (d'.register f) (putEntry f.name f more) := by
  have hname : ¬f.name = conditionalName := fun heq => hfresh (heq ▸ hbuiltIn)
  unfold RegistryDraft.register
  rw [if_neg hname]
  refine ⟨?_, ?_, h.reserved_eq, h.unknown_eq⟩
  · simp only [Table.put, h.entries_eq]
    exact putEntry_append hfresh f more
  · intro entry hentry
    rcases mem_of_mem_putEntry hentry with rfl | hmem
    · exact hcallable
    · exact h.callable entry hmem

/-- New callable functions extend a draft. -/
theorem Extends.foldl_register (h : d.Extends d' more)
    (hbuiltIn : conditionalName ∈ d.functions.keys) {fs : List FunctionDescriptor}
    (hcallable : ∀ f ∈ fs, f.isCallable = true)
    (hfresh : ∀ f ∈ fs, f.name ∉ d.functions.keys) :
    ∃ more', d.Extends (fs.foldl RegistryDraft.register d') more' := by
  induction fs generalizing d' more with
  | nil => exact ⟨more, h⟩
  | cons f fs ih =>
    rw [List.forall_mem_cons] at hcallable hfresh
    exact ih (h.register hbuiltIn hcallable.1 hfresh.1) hcallable.2 hfresh.2

/-- Registrations under new names bring their functions in behind the others. -/
theorem Extends.follow (h : d.Extends d' more) (hbuiltIn : conditionalName ∈ d.functions.keys)
    {additions : List Registration} (hadds : ∀ r ∈ additions, r.Adds d.functions.keys) :
    ∃ more', d.Extends (additions.foldl RegistryDraft.follow d') more' := by
  induction additions generalizing d' more with
  | nil => exact ⟨more, h⟩
  | cons r additions ih =>
    rw [List.forall_mem_cons] at hadds
    obtain ⟨more', hmore'⟩ := h.foldl_register hbuiltIn hadds.1.callable hadds.1.fresh
    rw [← follow_of_known hadds.1.unknown?_eq] at hmore'
    exact ih hmore' hadds.2

end RegistryDraft

/-- A registry that could be made can be made with further functions under new names, and
holds them behind the others. -/
theorem FunctionRegistry.build_append {registrations additions : List Registration}
    {functions : FunctionRegistry} (h : build registrations = .ok functions)
    (hadds : ∀ r ∈ additions, r.Adds functions.names) :
    ∃ extended more, build (registrations ++ additions) = .ok extended ∧
      extended.functions.entries = functions.functions.entries ++ more := by
  rcases RegistryDraft.finish_eq_ok_iff.1 h with ⟨rfl, hreserved, hunknown, hcallable⟩
  have hbuiltIn : conditionalName ∈
      (RegistryDraft.ofRegistrations registrations).functions.keys :=
    (RegistryDraft.records_ofRegistrations registrations).mem_keys
  have hsame : (RegistryDraft.ofRegistrations registrations).Extends
      (RegistryDraft.ofRegistrations registrations) [] :=
    ⟨(List.append_nil _).symm, by simp, rfl, rfl⟩
  obtain ⟨more, hmore⟩ := hsame.follow hbuiltIn hadds
  have hdraft : RegistryDraft.ofRegistrations (registrations ++ additions) =
      additions.foldl RegistryDraft.follow (RegistryDraft.ofRegistrations registrations) :=
    List.foldl_append
  rw [← hdraft] at hmore
  refine ⟨_, more, RegistryDraft.finish_eq_ok_iff.2 ⟨rfl, ?_, ?_, ?_⟩, hmore.entries_eq⟩
  · rw [hmore.reserved_eq, hreserved]
  · rw [hmore.unknown_eq, hunknown]
  · intro f hf
    rw [Table.values, hmore.entries_eq, List.map_append, List.mem_append] at hf
    rcases hf with hf | hf
    · exact hcallable f hf
    · obtain ⟨entry, hentry, rfl⟩ := List.mem_map.1 hf
      exact hmore.callable entry hentry

/-! ## Walks -/

namespace Walk

variable {α : Type}

/-- If the one walk comes to a result, the other one is the same. -/
def Keeps (w w' : Walk α) : Prop :=
  ∀ a, w.outcome = .ok a → w' = w

/-- A walk is kept if the other one follows it whatever error is excused. -/
theorem keeps_iff_follows {w w' : Walk α} :
    w.Keeps w' ↔ w.Follows (fun _ => True) w' := by
  obtain ⟨trail, outcome⟩ := w
  cases outcome with
  | error err => simp [Keeps, Follows]
  | ok a => simp [Keeps, Follows]

end Walk

/-! ## Whitelists -/

/-- A whitelist with further variables and functions behind those of another one. -/
structure Whitelist.Extends (w w' : Whitelist) : Prop where
  resolvers : ∃ more, w'.resolvers = ⟨w.resolvers.resolvers ++ more⟩
  functions : ∃ more, w'.functions.functions.entries = w.functions.functions.entries ++ more

namespace Whitelist

variable {w w' : Whitelist} {limit : Nat}

/-- A function that may be called may be called in the extended whitelist. -/
theorem Extends.callee (h : w.Extends w') {f : String} {args : List Expr}
    {d : FunctionDescriptor} (hcallee : w.callee f args = .ok d) :
    w'.callee f args = .ok d := by
  rcases callee_eq_ok hcallee with ⟨hfind, hvalid⟩
  obtain ⟨more, hmore⟩ := h.functions
  simp [Whitelist.callee, FunctionRegistry.find?_of_append hmore hfind, hvalid]

/-- A name that is bound is bound alike in the extended whitelist. -/
theorem Extends.keeps_bindIdentifier (h : w.Extends w') (ident : String) :
    (w.bindIdentifier ident).Keeps (w'.bindIdentifier ident) := by
  obtain ⟨more, hmore⟩ := h.resolvers
  intro e he
  unfold bindIdentifier at he ⊢
  split at he
  · cases he
  · next r hfind =>
    rw [hmore, ResolverRegistry.findSimple?_append more hfind]

theorem Extends.keeps_bindMember (h : w.Extends w') (base member : String) :
    (w.bindMember base member).Keeps (w'.bindMember base member) := by
  obtain ⟨more, hmore⟩ := h.resolvers
  intro e he
  unfold bindMember at he ⊢
  split at he
  · cases he
  · next r hfind =>
    rw [hmore, ResolverRegistry.findAttributed?_append more hfind]

/-- A longer whitelist is parallel wherever the other one comes to a result. -/
theorem Extends.parallel (h : w.Extends w') : w.Parallel (fun _ => True) w' where
  identifier ident := Walk.keeps_iff_follows.1 (h.keeps_bindIdentifier ident)
  member base part := Walk.keeps_iff_follows.1 (h.keeps_bindMember base part)
  callee f args := by
    cases hcallee : w.callee f args with
    | error err => exact .inl ⟨err, trivial, rfl⟩
    | ok d => exact .inr (h.callee hcallee)

/-- The walk through a tree that comes to a result goes the same way under a longer
whitelist. -/
theorem Extends.keeps_visit (h : w.Extends w') (budget : Nat) (e : Expr) :
    (w.visit limit budget e).Keeps (w'.visit limit budget e) :=
  Walk.keeps_iff_follows.2 (h.parallel.visit trivial le_rfl e)

/-- A tree that could be rewritten is rewritten to the same tree, and the same keys are
touched. -/
theorem Extends.rewrite (h : w.Extends w') {tree : Expr} {out : Rewritten}
    (hrewrite : w.rewrite limit tree = .ok out) : w'.rewrite limit tree = .ok out := by
  rw [Whitelist.rewrite] at hrewrite ⊢
  cases houtcome : (w.walk limit tree).outcome with
  | error err =>
    rw [houtcome] at hrewrite
    cases hrewrite
  | ok e =>
    have hsame : w'.walk limit tree = w.walk limit tree := h.keeps_visit limit tree e houtcome
    rw [hsame]
    exact hrewrite

end Whitelist

/-! ## Calls of registered functions -/

/-- The node calls a function of the registry, if it is a call. -/
def CallsRegistered (functions : FunctionRegistry) : Expr → Prop
  | .call f _ => f ∈ functions.names
  | _ => True

/-- What the resolver puts in the place of a variable calls functions of the registry
only. -/
def Resolver.CallsOnly (functions : FunctionRegistry) : Resolver → Prop
  | .simple r => ∀ ident e, r.bind ident = .ok e → Everywhere (CallsRegistered functions) e
  | .attributed r => ∀ base member, Everywhere (CallsRegistered functions) (r.bind base member)

/-- Resolvers that bind to reads call nothing. -/
theorem Resolver.Faithful.callsOnly {r : Resolver} (h : r.Faithful)
    (functions : FunctionRegistry) : r.CallsOnly functions := by
  cases r with
  | simple r =>
    intro ident e he
    obtain ⟨subscript, rfl⟩ := h ident e he
    exact Syntax.everywhere_leaf rfl trivial
  | attributed r =>
    intro base member
    obtain ⟨subscript, hbind⟩ := h base member
    rw [hbind]
    exact Syntax.everywhere_leaf rfl trivial

/-- Rewritten trees call registered functions only. -/
theorem Rewrites.callsRegistered {w : Whitelist} {e e' : Expr} (h : Rewrites w e e')
    (hcalls : ∀ r ∈ w.resolvers.resolvers, r.CallsOnly w.functions) :
    Everywhere (CallsRegistered w.functions) e' := by
  refine h.everywhere ?_ ?_ ?_ ?_
  · intro ident r e hfind hbind
    exact hcalls _ (mem_simple_iff.1 (List.mem_of_find?_eq_some hfind)) ident e hbind
  · intro base member r hfind
    exact hcalls _ (mem_attributed_iff.1 (List.mem_of_find?_eq_some hfind)) base member
  · intro f args args' d hcallee _ _
    exact (FunctionRegistry.mem_names_iff _).2 ⟨d, (Whitelist.callee_eq_ok hcallee).1⟩
  · intro e _ _ hcall
    cases e with
    | call f args => exact absurd rfl (hcall f args)
    | _ => trivial

/-- Functions behind the others take no place in an evaluator that one of the others has. -/
theorem get?_evaluator_of_append {c : CompiledFormula} {functions extended : FunctionRegistry}
    {more : List (String × FunctionDescriptor)}
    (hmore : extended.functions.entries = functions.functions.entries ++ more) {f : String}
    (hf : f ∈ functions.names) :
    (c.evaluator extended).functions.get? f = (c.evaluator functions).functions.get? f := by
  obtain ⟨d, hfind⟩ := (FunctionRegistry.mem_names_iff functions).1 hf
  rw [c.get?_evaluator, c.get?_evaluator, hfind, FunctionRegistry.find?_of_append hmore hfind]

/-- Functions behind the others that the tree does not call are not bound. -/
theorem evaluator_of_append {c : CompiledFormula} {functions extended : FunctionRegistry}
    {more : List (String × FunctionDescriptor)}
    (hmore : extended.functions.entries = functions.functions.entries ++ more)
    (hcalls : Everywhere (CallsRegistered functions) c.expr) :
    c.evaluator extended = c.evaluator functions := by
  have hnew : ∀ entry ∈ more, entry.1 ∉ functions.names := by
    have hdistinct := extended.functions.distinct
    rw [hmore, List.map_append] at hdistinct
    intro entry hentry hold
    exact (List.nodup_append.1 hdistinct).2.2 _ hold _ (List.mem_map_of_mem hentry) rfl
  have hsplit : extended.implementations = functions.implementations ++
      changeValues FunctionDescriptor.implementation more := by
    rw [FunctionRegistry.implementations, hmore, List.filterMap_append]
    rfl
  have huncalled : (changeValues FunctionDescriptor.implementation more).filter
      (fun f => c.expr.calls f.1) = [] := by
    rw [List.filter_eq_nil_iff]
    intro f hf hcalled
    obtain ⟨args, hoccurs⟩ := calls_eq_true_iff.1 hcalled
    have hkeys := (sublist_keys_changeValues FunctionDescriptor.implementation more).subset
    obtain ⟨entry, hentry, hkey⟩ := List.mem_map.1 (hkeys (List.mem_map_of_mem hf))
    have hregistered : f.1 ∈ functions.names := hcalls _ hoccurs
    exact hnew entry hentry (hkey ▸ hregistered)
  simp only [CompiledFormula.evaluator, CompiledFormula.evaluatorWith, hsplit,
    List.filter_append, huncalled, List.append_nil]

/-! ## Engines -/

/-- If an engine requires what a formula is bound to, every text that it compiles is compiled
to the same tree with the same required keys by the engine with further variables behind
its own and further functions under new names, whatever they are.  Under every name that was
registered the same function is bound or none is, and no other is bound unless a variable
of the host's own making brings in a call of one that was not registered. -/
theorem compile_extended {options : EngineOptions} {resolvers further : List Resolver}
    {registrations additions : List Registration} {engine : Engine} {source : String}
    {evaluator : Evaluator}
    (hbuild : Engine.build options resolvers registrations = .ok engine)
    (hmode : options.requirement = .matched)
    (hadds : ∀ r ∈ additions, r.Adds engine.functions.names)
    (hcompile : engine.compile source = .ok evaluator) :
    ∃ extended evaluator',
      Engine.build options (resolvers ++ further) (registrations ++ additions) = .ok extended ∧
      extended.compile source = .ok evaluator' ∧
      evaluator'.compiled = evaluator.compiled ∧
      (∀ f ∈ engine.functions.names,
        evaluator'.functions.get? f = evaluator.functions.get? f) ∧
      ((∀ r ∈ resolvers, r.CallsOnly engine.functions) → evaluator' = evaluator) := by
  rcases Engine.build_eq_ok_iff.1 hbuild with ⟨functions, hfunctions, rfl⟩
  rcases compileFormula_of_compile hcompile with ⟨compiled, hcompiled, rfl⟩
  rcases rewrite_of_compileFormula hcompiled with ⟨tree, out, hparse, hout, rfl⟩
  obtain ⟨longer, more, hlonger, hmore⟩ := FunctionRegistry.build_append hfunctions hadds
  have hextends : Whitelist.Extends ⟨⟨resolvers⟩, functions⟩ ⟨⟨resolvers ++ further⟩, longer⟩ :=
    ⟨⟨further, rfl⟩, more, hmore⟩
  have hextended : Engine.compileFormula ⟨⟨⟨resolvers ++ further⟩, longer⟩, options⟩ source =
      .ok ⟨source, out.expr, out.touched⟩ := by
    simp only [Engine.compileFormula, hparse, Engine.compileTree, hextends.rewrite hout,
      Engine.required, hmode]
  have hrequired : Engine.required ⟨⟨⟨resolvers⟩, functions⟩, options⟩ out = out.touched := by
    simp only [Engine.required, hmode]
  refine ⟨⟨⟨⟨resolvers ++ further⟩, longer⟩, options⟩,
    CompiledFormula.evaluator ⟨source, out.expr, out.touched⟩ longer,
    Engine.build_eq_ok_iff.2 ⟨longer, hlonger, rfl⟩, ?_, ?_, ?_, ?_⟩
  · rw [Engine.compile, hextended]
    rfl
  · rw [hrequired]
    rfl
  · intro f hf
    rw [hrequired]
    exact get?_evaluator_of_append hmore hf
  · intro hcalls
    have hregistered := (Whitelist.rewrites_of_rewrite hout).callsRegistered hcalls
    rw [hrequired]
    exact evaluator_of_append hmore hregistered

/-- A function of the host that counts its arguments. -/
def counting : FunctionDescriptor where
  name := "count"
  arity := .any
  implementation := some fun args => .ok (.int (Int64.ofNat args.length))

/-- Trees that the host's binders make are not checked.  If one is a call of a function that is
not registered, registering that function binds it, where nothing was bound before. -/
theorem compile_extended_unregisteredCall :
    ∃ calling engine evaluator extended evaluator',
      PatternVariable.withBinder "A" "a" "data" (fun _ => .ok (.call "count" [])) =
        .ok calling ∧
      Engine.build {} [.simple calling.resolver] [] = .ok engine ∧
      engine.compile "a" = .ok evaluator ∧
      (Registration.function counting).Adds engine.functions.names ∧
      Engine.build {} [.simple calling.resolver] [.function counting] = .ok extended ∧
      extended.compile "a" = .ok evaluator' ∧
      evaluator'.compiled = evaluator.compiled ∧
      evaluator.boundFunctions = [] ∧ evaluator'.boundFunctions = ["count"] := by
  refine ⟨_, _, _, _, _, rfl, rfl, rfl, ⟨fun _ h => ?_, fun f hf => ?_, fun f hf => ?_⟩,
    rfl, rfl, rfl, rfl, rfl⟩
  · cases h
  · rw [List.mem_singleton.1 hf]
    rfl
  · rw [List.mem_singleton.1 hf]
    decide

/-- Further variables over names that are taken, and further functions with and without a
rewrite, behind an engine that compiles a call that is replaced and one that is not. -/
theorem compile_extended_overlapping :
    ∃ numbered engine evaluator extended,
      PatternVariable.make "M*" "M(\\d+)" "source" .index = .ok numbered ∧
      Engine.build {} (twoVariables numbered) [.function keeping, .standard "max"] =
        .ok engine ∧
      engine.compile "keep(config.a, M7) + max(M1, 2)" = .ok evaluator ∧
      Engine.build {} (twoVariables numbered ++ [.simple (anyKey "data")])
        ([.function keeping, .standard "max"] ++ [.function doubling, .standard "min"]) =
          .ok extended ∧
      extended.compile "keep(config.a, M7) + max(M1, 2)" = .ok evaluator := by
  obtain ⟨numbered, engine, evaluator, hnumbered, hbuild, hcompile, hnames⟩ :
      ∃ numbered engine evaluator,
        PatternVariable.make "M*" "M(\\d+)" "source" .index = .ok numbered ∧
        Engine.build {} (twoVariables numbered) [.function keeping, .standard "max"] =
          .ok engine ∧
        engine.compile "keep(config.a, M7) + max(M1, 2)" = .ok evaluator ∧
        engine.functions.names = ["IF", "keep", "max"] :=
    ⟨_, _, _, rfl, rfl, rfl, rfl⟩
  have hadds : ∀ r ∈ [Registration.function doubling, .standard "min"],
      r.Adds engine.functions.names := by
    rw [hnames]
    intro r hr
    rcases List.mem_pair.1 hr with rfl | rfl
    · refine ⟨fun _ h => ?_, fun f hf => ?_, fun f hf => ?_⟩
      · cases h
      · rw [List.mem_singleton.1 hf]
        rfl
      · rw [List.mem_singleton.1 hf]
        decide
    · refine ⟨fun _ h => ?_, fun f hf => ?_, fun f hf => ?_⟩
      · cases h
        rfl
      · rw [List.mem_singleton.1 hf]
        rfl
      · rw [List.mem_singleton.1 hf]
        decide
  obtain ⟨extended, evaluator', hextended, hagain, -, -, hsame⟩ :=
    @compile_extended _ _ [.simple (anyKey "data")] _ _ _ _ _ hbuild rfl hadds hcompile
  have hbinds := forall_mem_twoVariables hnumbered
  have hevaluator : evaluator' = evaluator :=
    hsame fun r hr => (hbinds r hr).callsOnly engine.functions
  rw [hevaluator] at hagain
  exact ⟨numbered, engine, evaluator, extended, hnumbered, hbuild, hcompile, hextended, hagain⟩

end Formulary
