import Formulary.Proofs.Compilation.Meaning

/-!
# The keys that a compiled formula requires

The compiler notes the context key of each resolver that it comes by, while it replaces
subtrees, drops arguments and walks again through what functions of the host return.  In
the end the keys that it noted are those of the bindings in the tree that it returns, one
for one and in the same order.  For this the resolvers have to bind to reads of their own
keys, and the functions of the host must not bring in reads of their own.

Main definitions:

- `Expr.readKeys`: the keys that a tree reads, in pre-order.
- `Walk.Leads`: what holds of the touched keys and of the result of a walk.
- `Engine.Faithful`: the engines whose resolvers and functions are as described.

Main results:

- Theorem `Whitelist.leads_visit`: the walk touches the keys that its result reads.
- Theorems `required_of_matched` and `required_of_registered`: which keys are required.
- Theorem `readKeys_subset_required`: a compiled tree reads required keys only.
-/

namespace Formulary

open Formulary.Expr

/-! ## The keys that a tree reads -/

namespace Expr

/-- The key that a node reads, if it is a binding. -/
def readKey? : Expr → Option String
  | .binding b => some b.context
  | _ => none

/-- The keys that the bindings of a tree read, from the root down and from left to
right. -/
def readKeys (e : Expr) : List String :=
  e.preorder.filterMap readKey?

/-- The tree has no binding. -/
def Unbound (e : Expr) : Prop :=
  ∀ b, ¬Occurs (.binding b) e

theorem Unbound.child {e child : Expr} (h : Unbound e) (hchild : child ∈ e.children) :
    Unbound child := fun b hoccurs => h b (.inChild hchild hoccurs)

/-- A tree is without bindings if its root is none and its children are. -/
theorem unbound_of_children {e : Expr} (hroot : e.readKey? = none)
    (h : ∀ child ∈ e.children, Unbound child) : Unbound e := by
  intro b hoccurs
  rcases occurs_iff.1 hoccurs with rfl | ⟨child, hchild, hbelow⟩
  · cases hroot
  · exact h child hchild b hbelow

/-- A node that is no binding reads what its children read. -/
theorem readKeys_of_children {e : Expr} (h : e.readKey? = none) :
    e.readKeys = e.children.flatMap readKeys := by
  rw [readKeys, preorder_eq, List.filterMap_cons_none h, List.filterMap_flatMap]
  rfl

/-- The keys that a tree reads are those of the bindings that occur in it. -/
theorem mem_readKeys_iff {key : String} {e : Expr} :
    key ∈ e.readKeys ↔ ∃ b, Occurs (.binding b) e ∧ b.context = key := by
  rw [readKeys, List.mem_filterMap]
  constructor
  · rintro ⟨node, hnode, hkey⟩
    cases node with
    | binding b => exact ⟨b, mem_preorder_iff.1 hnode, Option.some.inj hkey⟩
    | _ => cases hkey
  · rintro ⟨b, hoccurs, rfl⟩
    exact ⟨.binding b, mem_preorder_iff.2 hoccurs, rfl⟩

end Expr

/-! ## Walks and the keys that they touch -/

namespace Walk

variable {α β : Type}

/-- The context keys that the events of a walk touch, in order. -/
def keys (w : Walk α) : List String :=
  w.trail.filterMap RewriteEvent.contextKey?

/-- If the walk comes to a result, the keys that it touched and the result are as
described. -/
def Leads (w : Walk α) (Q : List String → α → Prop) : Prop :=
  ∀ a, w.outcome = .ok a → Q w.keys a

/-- The second one of two walks goes on from the keys and the result of the first one. -/
theorem Leads.bind {w : Walk α} {f : α → Walk β} {P : List String → α → Prop}
    {Q : List String → β → Prop} (hw : w.Leads P)
    (hf : ∀ keys a, P keys a → (f a).Leads fun more b => Q (keys ++ more) b) :
    (w >>= f).Leads Q := by
  intro b hb
  rcases w with ⟨trail, outcome⟩
  cases outcome with
  | error e => cases hb
  | ok a =>
    have hfirst := hw a rfl
    have hsecond := hf _ a hfirst b hb
    have hkeys : Walk.keys (⟨trail, .ok a⟩ >>= f) =
        Walk.keys (⟨trail, .ok a⟩ : Walk α) ++ (f a).keys :=
      List.filterMap_append
    rw [hkeys]
    exact hsecond

/-- The result of a walk may be put into a tree. -/
theorem Leads.map {w : Walk α} {g : α → β} {P : List String → α → Prop}
    {Q : List String → β → Prop} (hw : w.Leads P) (hg : ∀ keys a, P keys a → Q keys (g a)) :
    (w >>= fun a => pure (g a)).Leads Q := by
  refine hw.bind ?_
  intro keys a ha b hb
  cases hb
  have hnothing : keys ++ (pure (g a) : Walk β).keys = keys := List.append_nil keys
  rw [hnothing]
  exact hg keys a ha

end Walk

/-! ## Faithful resolvers and rewrites -/

/-- What the resolver binds to reads its own context key. -/
def Resolver.Faithful : Resolver → Prop
  | .simple r => ∀ ident e, r.bind ident = .ok e →
      ∃ subscript, e = .binding ⟨r.contextKey, subscript⟩
  | .attributed r => ∀ base member, ∃ subscript,
      r.bind base member = .binding ⟨r.contextKey, subscript⟩

/-- All resolvers bind to reads of their own context key. -/
def BindsFaithfully (resolvers : ResolverRegistry) : Prop :=
  ∀ r ∈ resolvers.resolvers, r.Faithful

/-- No function of the host brings in a binding of its own. -/
def BringsNoReads (registrations : List Registration) : Prop :=
  ∀ d, Registration.function d ∈ registrations → ∀ r, d.rewrite = some r →
    ∀ args e, r.rewrite d.name args = .ok e → (∀ a ∈ args, Unbound a) → Unbound e

/-- The simple resolvers are among all resolvers. -/
theorem mem_simple_iff {resolvers : ResolverRegistry} {r : SimpleResolver} :
    r ∈ resolvers.simple ↔ .simple r ∈ resolvers.resolvers := by
  rw [ResolverRegistry.simple, List.mem_filterMap]
  constructor
  · rintro ⟨resolver, hmem, hkind⟩
    cases resolver with
    | simple s => cases hkind; exact hmem
    | attributed a => cases hkind
  · intro hmem
    exact ⟨_, hmem, rfl⟩

theorem mem_attributed_iff {resolvers : ResolverRegistry} {r : AttributedResolver} :
    r ∈ resolvers.attributed ↔ .attributed r ∈ resolvers.resolvers := by
  rw [ResolverRegistry.attributed, List.mem_filterMap]
  constructor
  · rintro ⟨resolver, hmem, hkind⟩
    cases resolver with
    | simple s => cases hkind
    | attributed a => cases hkind; exact hmem
  · intro hmem
    exact ⟨_, hmem, rfl⟩

/-- Faithful resolvers make bindings only. -/
theorem BindsFaithfully.bindsOnly {resolvers : ResolverRegistry} (h : BindsFaithfully resolvers) :
    BindsOnly resolvers where
  simple r hr ident e he := by
    rcases h _ (mem_simple_iff.1 hr) ident e he with ⟨subscript, rfl⟩
    exact ⟨_, rfl⟩
  attributed r hr base member := by
    rcases h _ (mem_attributed_iff.1 hr) base member with ⟨subscript, hb⟩
    exact ⟨_, hb⟩

/-- The binder of positions makes a binding to a position. -/
theorem bindIndex_eq_ok {context : String} {captures : Captures} {e : Expr}
    (h : PatternVariable.bindIndex context captures = .ok e) :
    ∃ position, e = .binding ⟨context, .index position⟩ := by
  simp only [PatternVariable.bindIndex] at h
  split at h
  · cases h
    exact ⟨_, rfl⟩
  · cases h

/-- A pattern variable is faithful if its binder is. -/
theorem faithful_of_binder {v : PatternVariable}
    (h : ∀ captures e, v.binder captures = .ok e →
      ∃ subscript, e = .binding ⟨v.contextKey, subscript⟩) :
    (Resolver.simple v.resolver).Faithful := by
  intro ident e he
  simp only [PatternVariable.resolver, PatternVariable.bind] at he
  split at he
  · exact h _ e he
  · cases he

/-- Pattern variables that read an element of their context value are faithful. -/
theorem faithful_of_make {displayName pattern contextKey : String} {mode : BindMode}
    {v : PatternVariable} (h : PatternVariable.make displayName pattern contextKey mode = .ok v) :
    (Resolver.simple v.resolver).Faithful := by
  obtain ⟨binder, hbinder, hmode⟩ := PatternVariable.exists_withBinder_of_make h
  obtain ⟨read, -, rfl⟩ := PatternVariable.withBinder_eq_ok_iff.1 hbinder
  apply faithful_of_binder
  intro captures e he
  rcases hmode with rfl | rfl
  · obtain ⟨position, rfl⟩ := bindIndex_eq_ok he
    exact ⟨_, rfl⟩
  · cases he
    exact ⟨_, rfl⟩

/-- Attribute variables are faithful. -/
theorem faithful_attribute (v : AttributeVariable) : (Resolver.attributed v.resolver).Faithful :=
  fun _ member => ⟨.key member, rfl⟩

/-- What replaces a call has no binding if the arguments have none. -/
theorem unbound_replacement {w : Whitelist} {registrations : List Registration}
    (hbuild : FunctionRegistry.build registrations = .ok w.functions)
    (hhost : BringsNoReads registrations) {f : String} {args : List Expr}
    {d : FunctionDescriptor} {r : CallRewrite} {replacement : Expr}
    (hcallee : w.callee f args = .ok d) (hrewrite : d.rewrite = some r)
    (hreplace : r.rewrite f args = .ok replacement) (hargs : ∀ a ∈ args, Unbound a) :
    Unbound replacement := by
  rcases Whitelist.callee_eq_ok hcallee with ⟨hfind, -⟩
  rcases FunctionRegistry.of_find? hbuild hfind with ⟨hname, -, hregistered⟩
  by_cases hf : f = conditionalName
  · subst hf
    rw [FunctionRegistry.find?_conditionalName hbuild] at hfind
    cases hfind
    cases hrewrite
    simp only [rewriteConditional] at hreplace
    split at hreplace
    · cases hreplace
      exact unbound_of_children rfl hargs
    · cases hreplace
  · rcases hregistered hf with hmem | ⟨s, rfl⟩
    · subst hname
      exact hhost d hmem r hrewrite args replacement hreplace hargs
    · cases hrewrite

/-! ## The walk -/

/-- The keys are those that the trees read, one tree after the other, and all of them are
keys of resolvers. -/
structure Whitelist.Reads (w : Whitelist) (keys : List String) (es : List Expr) : Prop where
  exact : keys = es.flatMap readKeys
  registered : ∀ key ∈ keys, key ∈ w.resolvers.resolvers.map Resolver.contextKey

namespace Whitelist

variable {w : Whitelist}

theorem reads_nil : w.Reads [] [] :=
  ⟨rfl, by simp⟩

/-- Keys that are read one after the other are read in that order. -/
theorem Reads.append {keys more : List String} {es fs : List Expr} (h : w.Reads keys es)
    (h' : w.Reads more fs) : w.Reads (keys ++ more) (es ++ fs) where
  exact := by rw [h.exact, h'.exact, List.flatMap_append]
  registered key hkey := by
    rcases List.mem_append.1 hkey with hkey | hkey
    · exact h.registered key hkey
    · exact h'.registered key hkey

/-- A node that is no binding reads what its children read. -/
theorem Reads.parent {keys : List String} {e : Expr} (h : w.Reads keys e.children)
    (hroot : e.readKey? = none) : w.Reads keys [e] where
  exact := by rw [List.flatMap_singleton, readKeys_of_children hroot, h.exact]
  registered := h.registered

/-- A binding reads its key. -/
theorem reads_binding {key : String} {subscript : Subscript}
    (h : key ∈ w.resolvers.resolvers.map Resolver.contextKey) :
    w.Reads [key] [.binding ⟨key, subscript⟩] where
  exact := by simp [readKeys, preorder, readKey?]
  registered k hk := by
    rw [List.mem_singleton.1 hk]
    exact h

/-- A walk through a list touches the keys of its results one after the other. -/
theorem leads_each {f : Expr → Walk Expr} {es : List Expr}
    (h : ∀ e ∈ es, (f e).Leads fun keys e' => w.Reads keys [e']) :
    (Walk.each f es).Leads w.Reads := by
  induction es with
  | nil =>
    intro bs hbs
    cases hbs
    exact reads_nil
  | cons e es ih =>
    have hrest := ih fun e' he' => h e' (List.mem_cons_of_mem _ he')
    simp only [Walk.each]
    refine (h e (List.mem_cons_self ..)).bind ?_
    intro keys e' he'
    refine hrest.map ?_
    intro more es' hes'
    exact he'.append hes'

section Faithful

variable {registrations : List Registration} {limit : Nat}

/-- A name that is bound leaves the key that it reads. -/
theorem leads_bindIdentifier (hbinds : BindsFaithfully w.resolvers) (ident : String) :
    (w.bindIdentifier ident).Leads fun keys e' => w.Reads keys [e'] := by
  intro e' he'
  unfold bindIdentifier at he' ⊢
  split at he'
  · cases he'
  · next r hfind =>
    have hmem : .simple r ∈ w.resolvers.resolvers :=
      mem_simple_iff.1 (List.mem_of_find?_eq_some hfind)
    rcases hbinds _ hmem ident e' he' with ⟨subscript, rfl⟩
    exact reads_binding (List.mem_map_of_mem hmem)

theorem leads_bindMember (hbinds : BindsFaithfully w.resolvers) (base member : String) :
    (w.bindMember base member).Leads fun keys e' => w.Reads keys [e'] := by
  intro e' he'
  unfold bindMember at he' ⊢
  split at he'
  · cases he'
  · next r hfind =>
    have hmem : .attributed r ∈ w.resolvers.resolvers :=
      mem_attributed_iff.1 (List.mem_of_find?_eq_some hfind)
    rcases hbinds _ hmem base member with ⟨subscript, hbind⟩
    rw [hbind] at he'
    cases he'
    exact reads_binding (List.mem_map_of_mem hmem)

/-- The walk through a call, whether the function rewrites or not. -/
theorem leads_call (hbuild : FunctionRegistry.build registrations = .ok w.functions)
    (hhost : BringsNoReads registrations) {budget : Nat}
    (ih : ∀ e, Unbound e → (w.visit limit budget e).Leads fun keys e' => w.Reads keys [e'])
    {f : String} {args : List Expr} (hargs : ∀ a ∈ args, Unbound a) :
    (w.visit limit (budget + 1) (.call f args)).Leads fun keys e' => w.Reads keys [e'] := by
  unfold visit
  simp only
  split
  · intro e' he'
    cases he'
  · next d hcallee =>
    split
    · have hall := leads_each fun a ha => ih a (hargs a ha)
      refine hall.map ?_
      intro keys args' h
      exact h.parent rfl
    · next r hrewrite =>
      have hevent : (Walk.event (.call f)).Leads fun keys _ => keys = [] := by
        intro _ _
        rfl
      refine hevent.bind ?_
      intro keys _ hkeys
      subst hkeys
      split
      · next replacement hreplace =>
        exact ih replacement (unbound_replacement hbuild hhost hcallee hrewrite hreplace hargs)
      · intro e' he'
        cases he'

/-- The walk through a tree without bindings touches the keys that its result reads, in
the same order, and no others. -/
theorem leads_visit (hbinds : BindsFaithfully w.resolvers)
    (hbuild : FunctionRegistry.build registrations = .ok w.functions)
    (hhost : BringsNoReads registrations) (budget : Nat) (e : Expr) (he : Unbound e) :
    (w.visit limit budget e).Leads fun keys e' => w.Reads keys [e'] := by
  -- on the budget, for what a function of the host returns may be larger than the call
  induction budget generalizing e with
  | zero =>
    intro e' he'
    cases he'
  | succ budget ih =>
    cases e with
    | literal l =>
      intro e' he'
      cases he'
      exact reads_nil.parent rfl
    | binding b => exact absurd .here (he b)
    | name ident => exact leads_bindIdentifier hbinds ident
    | attr base member => exact leads_bindMember hbinds base member
    | negate e =>
      simp only [visit]
      refine (ih e (he.child (by simp [children]))).map ?_
      intro keys e' h
      exact h.parent rfl
    | not e =>
      simp only [visit]
      refine (ih e (he.child (by simp [children]))).map ?_
      intro keys e' h
      exact h.parent rfl
    | arith op l r =>
      simp only [visit]
      refine (ih l (he.child (by simp [children]))).bind ?_
      intro keys l' hl
      refine (ih r (he.child (by simp [children]))).map ?_
      intro more r' hr
      exact (hl.append hr).parent rfl
    | compare op l r =>
      simp only [visit]
      refine (ih l (he.child (by simp [children]))).bind ?_
      intro keys l' hl
      refine (ih r (he.child (by simp [children]))).map ?_
      intro more r' hr
      exact (hl.append hr).parent rfl
    | logic op operands =>
      simp only [visit]
      have hall := leads_each fun a ha => ih a (he.child ha)
      refine hall.map ?_
      intro keys operands' h
      exact h.parent rfl
    | conditional c t f =>
      simp only [visit]
      refine (ih c (he.child (by simp [children]))).bind ?_
      intro keys c' hc
      refine (ih t (he.child (by simp [children]))).bind ?_
      intro more t' ht
      refine (ih f (he.child (by simp [children]))).map ?_
      intro most f' hf
      exact (hc.append (ht.append hf)).parent rfl
    | call f args => exact leads_call hbuild hhost ih fun a ha => he.child ha

/-- The keys that are touched while a tree without bindings is rewritten are those that the
result reads. -/
theorem reads_of_rewrite (hbinds : BindsFaithfully w.resolvers)
    (hbuild : FunctionRegistry.build registrations = .ok w.functions)
    (hhost : BringsNoReads registrations) {tree : Expr} (htree : Unbound tree) {out : Rewritten}
    (h : w.rewrite limit tree = .ok out) :
    ∃ keys, w.Reads keys [out.expr] ∧ out.touched = distinctNames keys := by
  simp only [rewrite] at h
  cases hwalk : (w.walk limit tree).outcome with
  | error e =>
    rw [hwalk] at h
    cases h
  | ok e =>
    rw [hwalk] at h
    cases h
    have hreads := leads_visit hbinds hbuild hhost limit tree htree e hwalk
    exact ⟨_, hreads, rfl⟩

end Faithful

end Whitelist

/-! ## Compiled formulas -/

/-- Parsed trees have no binding. -/
theorem unbound_of_parse {source : String} {tree : Expr} (h : Expr.parse source = .ok tree) :
    Unbound tree := fun _ hoccurs => Syntax.shaped_of_parse h _ hoccurs

/-- An engine that could be built, whose variables are bound to reads of their own context
key and whose host functions bring in no reads. -/
structure Engine.Faithful (engine : Engine) : Prop where
  built : ∃ options resolvers registrations,
    Engine.build options resolvers registrations = .ok engine ∧ BringsNoReads registrations
  binds : BindsFaithfully engine.resolvers

section Compiled

variable {engine : Engine} {source : String} {compiled : CompiledFormula}

/-- An engine can be built if its functions can be registered, and then it holds them beside
its resolvers. -/
theorem Engine.build_eq_ok_iff {options : EngineOptions} {resolvers : List Resolver}
    {registrations : List Registration} :
    Engine.build options resolvers registrations = .ok engine ↔
      ∃ functions, FunctionRegistry.build registrations = .ok functions ∧
        engine = ⟨⟨⟨resolvers⟩, functions⟩, options⟩ := by
  unfold Engine.build
  cases FunctionRegistry.build registrations with
  | ok functions =>
    constructor
    · intro h
      cases h
      exact ⟨functions, rfl, rfl⟩
    · rintro ⟨_, hfunctions, rfl⟩
      cases hfunctions
      rfl
  | error e => simp

/-- The functions of an engine are the registry that its registrations make. -/
theorem functions_of_build {options : EngineOptions} {resolvers : List Resolver}
    {registrations : List Registration}
    (h : Engine.build options resolvers registrations = .ok engine) :
    FunctionRegistry.build registrations = .ok engine.functions := by
  rcases Engine.build_eq_ok_iff.1 h with ⟨functions, hfunctions, rfl⟩
  exact hfunctions

/-- The keys that a compiled formula reads are keys of resolvers, and they are what the
compiler touched. -/
theorem reads_of_compileFormula (hengine : engine.Faithful)
    (h : engine.compileFormula source = .ok compiled) :
    ∃ out, compiled.required = engine.required out ∧
      engine.whitelist.Reads compiled.expr.readKeys [compiled.expr] ∧
      out.touched = distinctNames compiled.expr.readKeys := by
  rcases hengine.built with ⟨options, resolvers, registrations, hbuild, hhost⟩
  rcases rewrite_of_compileFormula h with ⟨tree, out, hparse, hout, rfl⟩
  rcases Whitelist.reads_of_rewrite hengine.binds (functions_of_build hbuild) hhost
    (unbound_of_parse hparse) hout with ⟨keys, hreads, htouched⟩
  have hkeys : keys = out.expr.readKeys := by
    rw [hreads.exact, List.flatMap_singleton]
  subst hkeys
  exact ⟨out, rfl, hreads, htouched⟩

/-- An engine that requires what a formula is bound to requires the keys that the compiled
tree reads, each one where it is first read. -/
theorem required_of_matched (hengine : engine.Faithful)
    (hmode : engine.options.requirement = .matched)
    (h : engine.compileFormula source = .ok compiled) :
    compiled.required = compiled.expr.readKeys.eraseDups := by
  rcases reads_of_compileFormula hengine h with ⟨out, hrequired, -, htouched⟩
  rw [hrequired, Engine.required, hmode, ← distinctNames_eq_eraseDups]
  exact htouched

/-- An engine that requires what is registered requires the keys of all resolvers, in the
order of their first registration. -/
theorem required_of_registered (hmode : engine.options.requirement = .registered)
    (h : engine.compileFormula source = .ok compiled) :
    compiled.required = (engine.resolvers.resolvers.map Resolver.contextKey).eraseDups := by
  rcases rewrite_of_compileFormula h with ⟨tree, out, -, -, rfl⟩
  simp only [Engine.required, hmode, ResolverRegistry.contextKeys]
  exact distinctNames_eq_eraseDups _

/-- A compiled tree reads required keys only. -/
theorem readKeys_subset_required (hengine : engine.Faithful)
    (h : engine.compileFormula source = .ok compiled) :
    ∀ key ∈ compiled.expr.readKeys, key ∈ compiled.required := by
  intro key hkey
  cases hmode : engine.options.requirement with
  | matched =>
    rw [required_of_matched hengine hmode h, List.mem_eraseDups]
    exact hkey
  | registered =>
    rcases reads_of_compileFormula hengine h with ⟨-, -, hreads, -⟩
    rw [required_of_registered hmode h, List.mem_eraseDups]
    exact hreads.registered key hkey

/-- No key is required twice. -/
theorem nodup_required (hengine : engine.Faithful)
    (h : engine.compileFormula source = .ok compiled) : compiled.required.Nodup := by
  cases hmode : engine.options.requirement with
  | matched =>
    rw [required_of_matched hengine hmode h, ← distinctNames_eq_eraseDups]
    exact nodup_distinctNames _
  | registered =>
    rw [required_of_registered hmode h, ← distinctNames_eq_eraseDups]
    exact nodup_distinctNames _

/-- What an engine compiles a text to is the compiled formula with its functions. -/
theorem compileFormula_of_compile {evaluator : Evaluator}
    (h : engine.compile source = .ok evaluator) :
    ∃ compiled, engine.compileFormula source = .ok compiled ∧
      evaluator = compiled.evaluator engine.functions := by
  unfold Engine.compile at h
  cases hcompile : engine.compileFormula source with
  | error err =>
    rw [hcompile] at h
    cases h
  | ok compiled =>
    rw [hcompile] at h
    cases h
    exact ⟨compiled, rfl, rfl⟩

end Compiled

/-! ## An engine with two variables -/

/-- An engine is faithful if its resolvers are and its host functions bring in no reads. -/
theorem faithful_of_build {engine : Engine} {options : EngineOptions} {resolvers : List Resolver}
    {registrations : List Registration}
    (hbuild : Engine.build options resolvers registrations = .ok engine)
    (hbinds : ∀ r ∈ resolvers, r.Faithful) (hhost : BringsNoReads registrations) :
    engine.Faithful := by
  refine ⟨⟨options, resolvers, registrations, hbuild, hhost⟩, ?_⟩
  rcases Engine.build_eq_ok_iff.1 hbuild with ⟨functions, -, rfl⟩
  exact hbinds

/-- A function of a host that keeps the first of its arguments and drops the others. -/
def keeping : FunctionDescriptor where
  name := "keep"
  arity := .atLeast 1
  rewrite := some
    { rewrite := fun f args =>
        match args with
        | a :: _ => .ok a
        | [] => .error (.refused f "no arguments") }

theorem bringsNoReads_keeping : BringsNoReads [.function keeping, .library] := by
  intro d hd r hr args e he hargs
  obtain rfl : d = keeping := by simpa using hd
  cases hr
  simp only at he
  split at he
  · cases he
    exact hargs _ (List.mem_cons_self ..)
  · cases he

/-- Numbered sources are read by position, and attributes of the configuration by key. -/
def twoVariables (numbered : PatternVariable) : List Resolver :=
  [.simple numbered.resolver, .attributed (AttributeVariable.resolver ⟨"config", "settings"⟩)]

theorem forall_mem_twoVariables {numbered : PatternVariable}
    (hnumbered : PatternVariable.make "M*" "M(\\d+)" "source" .index = .ok numbered) :
    ∀ r ∈ twoVariables numbered, r.Faithful := by
  intro r hr
  rcases List.mem_pair.1 hr with rfl | rfl
  · exact faithful_of_make hnumbered
  · exact faithful_attribute _

theorem faithful_twoVariables {engine : Engine} {options : EngineOptions}
    {numbered : PatternVariable}
    (hnumbered : PatternVariable.make "M*" "M(\\d+)" "source" .index = .ok numbered)
    (hbuild : Engine.build options (twoVariables numbered) [.function keeping, .library] =
      .ok engine) :
    engine.Faithful :=
  faithful_of_build hbuild (forall_mem_twoVariables hnumbered) bringsNoReads_keeping

end Formulary
