import Formulary.Compilation.Engine
import Formulary.Proofs.Compilation.Confinement

/-!
# Compilation keeps the meaning of formulas

A formula means something before it is compiled: its names read the context through the
resolvers, its calls use the registered functions, and `IF` chooses a branch.  A meaning
is put together from the meanings of the parts, errors included.  Compiling a formula and
evaluating the result comes to what the formula means.

Main definitions:

- `Whitelist.meaning`: what a tree means in a context, without compiling it.

Main results:

- Theorem `Rewrites.evaluate_eq`: a rewritten tree evaluates to what the tree means.
- Theorem `evaluate_eq_meaning`: so does the text of a formula.
-/

namespace Formulary

open Formulary.Expr

/-! ## Meanings -/

/-- A value, or why there is none. -/
abbrev Meaning := Except FormulaError Value

/-- The value of a binding in a context. -/
def Context.read (context : Context) (b : Binding) : Meaning :=
  Scope.read ⟨context, .empty⟩ b

/-- The meaning of what a resolver puts in the place of a name. -/
def Context.through (context : Context) (name : String) : Expr → Meaning
  | .binding b => context.read b
  | _ => .error (.unknownVariable name [])

/-- The values of meanings from left to right, up to the first error. -/
def inOrder : List Meaning → Except FormulaError (List Value)
  | [] => .ok []
  | m :: ms => do
      let v ← m
      let vs ← inOrder ms
      return v :: vs

/-- The meaning of a choice.  A column chooses from both branches cell by cell; any other
condition takes one branch, and an error in the branch not taken does not count. -/
def choice (condition thenBranch elseBranch : Meaning) : Meaning := do
  let c ← condition
  if c.isColumn then
    let t ← thenBranch
    let e ← elseBranch
    evaluated (Value.select c t e)
  else if c.isTruthy then thenBranch
  else elseBranch

/-- The meaning of the rest of a chain, from what the operands before came to.  An
operand that is no column and decides the chain ends it. -/
def chain (op : Connective) : Option Value → List Meaning → Meaning
  | soFar, [] => .ok (op.conclude soFar)
  | none, m :: ms => do chain op (some (← m)) ms
  | some current, m :: ms =>
    if op.decides current then .ok (.bool !op.unit)
    else do
      let v ← m
      let combined ← evaluated (Value.connect op current v)
      chain op (some combined) ms

namespace Whitelist

/-- The meaning of a call from the meanings of its arguments. -/
def applied (w : Whitelist) (f : String) (args : List Meaning) : Meaning :=
  if f = conditionalName then
    match args with
    | [c, t, e] => choice c t e
    | _ => .error (.call (.arity f (.exactly 3) args.length))
  else
    match (w.functions.find? f).bind FunctionDescriptor.implementation with
    | some run => do (run (← inOrder args)).mapError FormulaError.host
    | none => .error (.unboundFunction f)

mutual

/-- What a tree means in a context. -/
def meaning (w : Whitelist) (context : Context) : Expr → Meaning
  | .literal l => .ok l.value
  | .binding b => context.read b
  | .name ident =>
    match w.resolvers.findSimple? ident with
    | some r => do context.through ident (← r.bind ident)
    | none => .error (.unknownVariable ident w.resolvers.simpleNames)
  | .attr base member =>
    match w.resolvers.findAttributed? base with
    | some r => context.through (base ++ "." ++ member) (r.bind base member)
    | none => .error (.unknownVariable (base ++ "." ++ member) w.resolvers.attributedNames)
  | .call f args => w.applied f (meanings w context args)
  | .negate e => do evaluated (← meaning w context e).neg
  | .not e => do evaluated (← meaning w context e).not
  | .arith op l r => do
      let left ← meaning w context l
      let right ← meaning w context r
      evaluated (Value.arith op left right)
  | .compare op l r => do
      let left ← meaning w context l
      let right ← meaning w context r
      evaluated (Value.relate op left right)
  | .logic op operands => chain op none (meanings w context operands)
  | .conditional c t e =>
      choice (meaning w context c) (meaning w context t) (meaning w context e)

/-- What trees mean, one by one. -/
def meanings (w : Whitelist) (context : Context) : List Expr → List Meaning
  | [] => []
  | e :: es => meaning w context e :: meanings w context es

end

/-- Trees mean what each of them means. -/
theorem meanings_eq (w : Whitelist) (context : Context) (es : List Expr) :
    w.meanings context es = es.map (w.meaning context) := by
  induction es with
  | nil => rfl
  | cons e es ih => rw [meanings, ih, List.map_cons]

end Whitelist

/-! ## Evaluation -/

/-- Arguments are evaluated one by one, in order. -/
theorem evaluateAll_eq (s : Scope) (es : List Expr) :
    s.evaluateAll es = inOrder (es.map s.evaluate) := by
  induction es with
  | nil => rfl
  | cons e es ih => rw [Scope.evaluateAll, ih, List.map_cons, inOrder]

/-- A chain is evaluated from the values of its operands. -/
theorem evaluateChain_eq (s : Scope) (op : Connective) (soFar : Option Value)
    (es : List Expr) :
    s.evaluateChain op soFar es = chain op soFar (es.map s.evaluate) := by
  induction es generalizing soFar with
  | nil => rw [Scope.evaluateChain, List.map_nil, chain]
  | cons e es ih =>
    cases soFar with
    | none => simp only [Scope.evaluateChain, List.map_cons, chain, ih]
    | some current => simp only [Scope.evaluateChain, List.map_cons, chain, ih]

/-- A conditional evaluates to the choice of its branches. -/
theorem evaluate_conditional (s : Scope) (c t e : Expr) :
    s.evaluate (.conditional c t e) =
      choice (s.evaluate c) (s.evaluate t) (s.evaluate e) := by
  rw [Scope.evaluate, choice]

/-- Trees in pairs have the same meanings if the two of each pair do. -/
theorem map_eq_map_of_pairs {f g : Expr → Meaning} {pairs : List (Expr × Expr)}
    (h : ∀ p ∈ pairs, f p.2 = g p.1) :
    (pairs.map Prod.snd).map f = (pairs.map Prod.fst).map g := by
  rw [List.map_map, List.map_map]
  exact List.map_congr_left h

/-- The functions of a scope are the registered implementations, for the calls of a
tree. -/
def Bound (w : Whitelist) (functions : Table HostFunction) (e : Expr) : Prop :=
  ∀ f args, Occurs (.call f args) e →
    functions.get? f = (w.functions.find? f).bind FunctionDescriptor.implementation

theorem Bound.child {w : Whitelist} {functions : Table HostFunction} {e child : Expr}
    (h : Bound w functions e) (hchild : child ∈ e.children) : Bound w functions child :=
  fun f args hoccurs => h f args (.inChild hchild hoccurs)

/-! ## The rewritten tree -/

/-- The conditional is the only function that rewrites. -/
structure RewritesOnlyConditional (functions : FunctionRegistry) : Prop where
  builtIn : functions.find? conditionalName = some conditional
  only : ∀ f d, functions.find? f = some d → d.rewrite.isSome = true → f = conditionalName

section Simulation

variable {w : Whitelist} {context : Context} {functions : Table HostFunction}

/-- A call of the conditional means what the conditional in its place means. -/
theorem meaning_of_rewriting (hfunctions : RewritesOnlyConditional w.functions) {f : String}
    {args : List Expr} {d : FunctionDescriptor} {r : CallRewrite} {replacement : Expr}
    (hcallee : w.callee f args = .ok d) (hrewrite : d.rewrite = some r)
    (hreplace : r.rewrite f args = .ok replacement) :
    w.meaning context (.call f args) = w.meaning context replacement := by
  rcases Whitelist.callee_eq_ok hcallee with ⟨hfind, -⟩
  rcases hfunctions.only f d hfind (by rw [hrewrite]; rfl) with rfl
  rw [hfunctions.builtIn] at hfind
  cases hfind
  cases hrewrite
  simp only [rewriteConditional] at hreplace
  split at hreplace
  · cases hreplace
    simp only [Whitelist.meaning, Whitelist.meanings, Whitelist.applied, if_true]
  · cases hreplace

/-- A call that is not rewritten uses the registered implementation in both trees. -/
theorem evaluate_call (hfunctions : RewritesOnlyConditional w.functions) {f : String}
    {pairs : List (Expr × Expr)} {d : FunctionDescriptor}
    (hcallee : w.callee f (pairs.map Prod.fst) = .ok d) (hplain : d.rewrite = none)
    (hbound : Bound w functions (.call f (pairs.map Prod.snd)))
    (hall : ∀ p ∈ pairs, Scope.evaluate ⟨context, functions⟩ p.2 = w.meaning context p.1) :
    Scope.evaluate ⟨context, functions⟩ (.call f (pairs.map Prod.snd)) =
      w.meaning context (.call f (pairs.map Prod.fst)) := by
  rcases Whitelist.callee_eq_ok hcallee with ⟨hfind, -⟩
  have hname : f ≠ conditionalName := by
    rintro rfl
    rw [hfunctions.builtIn] at hfind
    cases hfind
    cases hplain
  have hvalues := map_eq_map_of_pairs hall
  have hget := hbound f _ .here
  rw [Scope.evaluate, Whitelist.meaning, Whitelist.meanings_eq, evaluateAll_eq, hvalues,
    Scope.callee, hget]
  unfold Whitelist.applied
  rw [if_neg hname]
  cases (w.functions.find? f).bind FunctionDescriptor.implementation with
  | none => rfl
  | some run => rfl

/-- A rewritten tree evaluates to what the tree means, with the same value or the same
error. -/
theorem Rewrites.evaluate_eq (hfunctions : RewritesOnlyConditional w.functions)
    (hbinds : BindsOnly w.resolvers) {e e' : Expr} (h : Rewrites w e e')
    (hbound : Bound w functions e') :
    Scope.evaluate ⟨context, functions⟩ e' = w.meaning context e := by
  induction h with
  | literal => rw [Scope.evaluate, Whitelist.meaning]
  | binding => rw [Scope.evaluate, Whitelist.meaning]; rfl
  | name hfind hbind =>
    rcases hbinds.simple _ (List.mem_of_find?_eq_some hfind) _ _ hbind with ⟨b, rfl⟩
    rw [Scope.evaluate, Whitelist.meaning, hfind]
    simp only [hbind]
    rfl
  | attr member hfind =>
    rcases hbinds.attributed _ (List.mem_of_find?_eq_some hfind) _ member with ⟨b, hb⟩
    rw [hb, Scope.evaluate, Whitelist.meaning]
    simp only [hfind]
    rw [hb]
    rfl
  | negate _ ih =>
    rw [Scope.evaluate, Whitelist.meaning, ih (hbound.child (by simp [children]))]
  | not _ ih =>
    rw [Scope.evaluate, Whitelist.meaning, ih (hbound.child (by simp [children]))]
  | arith op _ _ ihl ihr =>
    rw [Scope.evaluate, Whitelist.meaning, ihl (hbound.child (by simp [children])),
      ihr (hbound.child (by simp [children]))]
  | compare op _ _ ihl ihr =>
    rw [Scope.evaluate, Whitelist.meaning, ihl (hbound.child (by simp [children])),
      ihr (hbound.child (by simp [children]))]
  | @logic op pairs _ ihall =>
    have hvalues : (pairs.map Prod.snd).map (Scope.evaluate ⟨context, functions⟩) =
        (pairs.map Prod.fst).map (w.meaning context) :=
      map_eq_map_of_pairs fun p hp => ihall p hp (hbound.child (List.mem_map_of_mem hp))
    rw [Scope.evaluate, Whitelist.meaning, Whitelist.meanings_eq, evaluateChain_eq, hvalues]
  | conditional _ _ _ ihc iht ihe =>
    rw [evaluate_conditional, Whitelist.meaning, ihc (hbound.child (by simp [children])),
      iht (hbound.child (by simp [children])), ihe (hbound.child (by simp [children]))]
  | @call f pairs d hcallee hplain _ ihall =>
    refine evaluate_call hfunctions hcallee hplain hbound fun p hp => ihall p hp ?_
    exact hbound.child (List.mem_map_of_mem hp)
  | rewriting hcallee hrewrite hreplace _ ih =>
    rw [ih hbound, meaning_of_rewriting hfunctions hcallee hrewrite hreplace]

end Simulation

/-! ## Formulas -/

/-- The functions of an evaluator are the registered ones that its tree calls. -/
theorem CompiledFormula.get?_evaluator (c : CompiledFormula) (functions : FunctionRegistry)
    (f : String) :
    (c.evaluator functions).functions.get? f =
      if c.expr.calls f = true then (functions.find? f).bind FunctionDescriptor.implementation
      else none := by
  rw [evaluator, evaluatorWith, List.filter_nil, List.append_nil]
  exact functions.get?_implementations (fun f => c.expr.calls f) f

/-- The evaluator of a compiled formula has the registered functions that it calls. -/
theorem bound_evaluator (w : Whitelist) (c : CompiledFormula) :
    Bound w (c.evaluator w.functions).functions c.expr := by
  intro f args hoccurs
  have hcalls : c.expr.calls f = true := calls_eq_true_iff.2 ⟨args, hoccurs⟩
  rw [c.get?_evaluator, if_pos hcalls]

/-- A compiled formula is what its parsed tree is rewritten to, with the keys that the
engine requires for it. -/
theorem rewrite_of_compileFormula {engine : Engine} {source : String}
    {compiled : CompiledFormula} (h : engine.compileFormula source = .ok compiled) :
    ∃ tree out, Expr.parse source = .ok tree ∧
      engine.whitelist.rewrite engine.options.maxDepth tree = .ok out ∧
      compiled = ⟨source, out.expr, engine.required out⟩ := by
  unfold Engine.compileFormula at h
  split at h
  · next tree hparse =>
    unfold Engine.compileTree at h
    split at h
    · next out hout =>
      cases h
      exact ⟨tree, out, hparse, hout, rfl⟩
    · cases h
  · cases h

/-- A compiled formula is the rewritten tree of its text. -/
theorem compileFormula_eq_ok {engine : Engine} {source : String} {compiled : CompiledFormula}
    (h : engine.compileFormula source = .ok compiled) :
    ∃ tree, Expr.parse source = .ok tree ∧
      Rewrites engine.whitelist tree compiled.expr := by
  rcases rewrite_of_compileFormula h with ⟨tree, out, hparse, hout, rfl⟩
  exact ⟨tree, hparse, Whitelist.rewrites_of_rewrite hout⟩

/-- If no key is missing, the tree is evaluated. -/
theorem Evaluator.call_of_no_missing {e : Evaluator} {context : Context}
    (h : e.compiled.missingKeys context = []) :
    e.call context = Scope.evaluate ⟨context, e.functions⟩ e.compiled.expr := by
  unfold Evaluator.call
  split
  · rfl
  · next hmissing => exact absurd h hmissing

/-- A formula that compiles has the value, or the error, that it means, in every context
that has the required keys.  The conditional is the only function that rewrites, and the
variables are bound to bindings. -/
theorem evaluate_eq_meaning {options : EngineOptions} {resolvers : List Resolver}
    {registrations : List Registration} {engine : Engine} {source : String} {tree : Expr}
    {compiled : CompiledFormula} {context : Context}
    (hbuild : Engine.build options resolvers registrations = .ok engine)
    (honly : ∀ f d, engine.functions.find? f = some d → d.rewrite.isSome = true →
      f = conditionalName)
    (hbinds : BindsOnly engine.resolvers) (hparse : Expr.parse source = .ok tree)
    (hcompile : engine.compileFormula source = .ok compiled)
    (hkeys : ∀ key ∈ compiled.required, context.contains key = true) :
    engine.evaluate source context = engine.whitelist.meaning context tree := by
  have hbuiltIn : engine.functions.find? conditionalName = some conditional := by
    unfold Engine.build at hbuild
    split at hbuild
    · next functions hfunctions =>
      cases hbuild
      exact FunctionRegistry.find?_conditionalName hfunctions
    · cases hbuild
  rcases compileFormula_eq_ok hcompile with ⟨tree', hparse', hrewrites⟩
  have htree : tree' = tree := by
    rw [hparse] at hparse'
    cases hparse'
    rfl
  subst htree
  have hmissing : compiled.missingKeys context = [] := by
    rw [CompiledFormula.missingKeys, List.filter_eq_nil_iff]
    intro key hkey
    simp [hkeys key hkey]
  have hevaluate : engine.evaluate source context =
      Scope.evaluate ⟨context, (compiled.evaluator engine.functions).functions⟩
        compiled.expr := by
    rw [Engine.evaluate, Engine.compile, hcompile]
    exact Evaluator.call_of_no_missing hmissing
  rw [hevaluate]
  exact hrewrites.evaluate_eq ⟨hbuiltIn, honly⟩ hbinds (bound_evaluator engine.whitelist compiled)

/-- A conditional whose other branch would fail. -/
theorem evaluate_eq_meaning_lazily :
    ∃ engine tree, Engine.build {} [.simple (anyKey "data")] [.library] = .ok engine ∧
      Expr.parse "IF(x > 1, max(x, 2), len(x))" = .ok tree ∧
      engine.evaluate "IF(x > 1, max(x, 2), len(x))"
          (Table.empty.put "data" (.map [("x", .int 5)])) =
        engine.whitelist.meaning (Table.empty.put "data" (.map [("x", .int 5)])) tree := by
  refine ⟨_, _, rfl, rfl, ?_⟩
  refine @evaluate_eq_meaning {} [.simple (anyKey "data")] [.library] _
    "IF(x > 1, max(x, 2), len(x))" _ _ _ rfl ?_ (bindsOnly_anyKey "data") rfl rfl ?_
  · intro f d hfind hrewrite
    rcases @FunctionRegistry.of_find? [.library] _ rfl f d hfind with ⟨-, -, hregistered⟩
    by_contra hf
    rcases hregistered hf with hmem | ⟨s, rfl⟩
    · simp at hmem
    · cases hrewrite
  · intro key hkey
    obtain rfl : key = "data" := List.mem_singleton.1 hkey
    rfl

end Formulary
