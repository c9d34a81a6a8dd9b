import Formulary.Proofs.Evaluation.Safety

/-!
# What a compiled formula requires and depends on

The required keys of a compiled formula are exactly those that its tree reads, or those of
all resolvers.  A call reports them if they are missing, and for no other reason; and
whatever else a context holds, and whatever other functions are at hand, has no influence
on the result.

Main results:

- Theorem `required_exact`: which keys are required, and when they are reported.
- Theorem `Scope.evaluate_congr`: an evaluation depends on the keys that are read and the
  functions that are called.
- Theorem `call_eq_of_agree`: a call depends on the required keys only.
-/

namespace Formulary

open Formulary.Expr

section Compiled

variable {engine : Engine} {source : String} {compiled : CompiledFormula}

/-! ## Missing keys -/

/-- A call reports missing keys exactly if there are some, and then all of them. -/
theorem call_eq_missing_iff (hengine : engine.Faithful)
    (h : engine.compileFormula source = .ok compiled) {context : Context} {keys : List String} :
    (compiled.evaluator engine.functions).call context = .error (.missingContext keys) ↔
      compiled.missingKeys context ≠ [] ∧ keys = compiled.missingKeys context := by
  by_cases hmissing : compiled.missingKeys context = []
  · have hsupplied := supplied_of_compileFormula hengine h (missingKeys_eq_nil_iff.1 hmissing)
    have hcall : (compiled.evaluator engine.functions).call context =
        Scope.evaluate ⟨context, (compiled.evaluator engine.functions).functions⟩
          compiled.expr := Evaluator.call_of_no_missing hmissing
    rw [hcall]
    constructor
    · intro herr
      have hwanting := Scope.not_wanting_of_error hsupplied herr
      exact absurd rfl (hwanting.1 keys)
    · intro hsome
      exact absurd hmissing hsome.1
  · have hcall : (compiled.evaluator engine.functions).call context =
        .error (.missingContext (compiled.missingKeys context)) :=
      Evaluator.call_of_missing hmissing
    rw [hcall]
    constructor
    · intro herr
      cases herr
      exact ⟨hmissing, rfl⟩
    · rintro ⟨-, rfl⟩
      rfl

/-- The required keys are those that the compiled tree reads, each one where it is first read
from the root down and from left to right; or, if the engine demands what is registered, the
keys of all resolvers in the order of registration, among them all that the tree reads.  A
call fails with missing keys exactly if a required key is absent, and lists the absent
ones in order. -/
theorem required_exact {evaluator : Evaluator} (hengine : engine.Faithful)
    (hcompile : engine.compile source = .ok evaluator) :
    (engine.options.requirement = .matched →
      evaluator.compiled.required = evaluator.compiled.expr.readKeys.eraseDups) ∧
    (engine.options.requirement = .registered →
      evaluator.compiled.required =
          (engine.resolvers.resolvers.map Resolver.contextKey).eraseDups ∧
        ∀ key ∈ evaluator.compiled.expr.readKeys, key ∈ evaluator.compiled.required) ∧
    evaluator.compiled.required.Nodup ∧
    ∀ context : Context,
      ((∃ keys, evaluator.call context = .error (.missingContext keys)) ↔
        ∃ key ∈ evaluator.compiled.required, context.contains key = false) ∧
      ∀ keys, evaluator.call context = .error (.missingContext keys) →
        keys = evaluator.compiled.required.filter fun key => !context.contains key := by
  rcases compileFormula_of_compile hcompile with ⟨compiled, hcompiled, rfl⟩
  refine ⟨fun hmode => required_of_matched hengine hmode hcompiled, fun hmode => ?_,
    nodup_required hengine hcompiled, fun context => ⟨?_, ?_⟩⟩
  · exact ⟨required_of_registered hmode hcompiled, readKeys_subset_required hengine hcompiled⟩
  · have habsent : compiled.missingKeys context ≠ [] ↔
        ∃ key ∈ compiled.required, context.contains key = false := by
      rw [Ne, missingKeys_eq_nil_iff]
      simp
    refine Iff.trans ?_ habsent
    constructor
    · rintro ⟨keys, hcall⟩
      exact ((call_eq_missing_iff hengine hcompiled).1 hcall).1
    · intro hsome
      exact ⟨_, (call_eq_missing_iff hengine hcompiled).2 ⟨hsome, rfl⟩⟩
  · intro keys hcall
    exact ((call_eq_missing_iff hengine hcompiled).1 hcall).2

end Compiled

/-- A formula in which an argument is dropped and keys are read more than once. -/
theorem required_exact_keeping :
    ∃ numbered engine evaluator,
      PatternVariable.make "M*" "M(\\d+)" "source" .index = .ok numbered ∧
      Engine.build {} (twoVariables numbered) [.function keeping, .library] = .ok engine ∧
      engine.compile "keep(config.a, M7) + M1 * M2 - config.b" = .ok evaluator ∧
      evaluator.compiled.required = ["settings", "source"] := by
  obtain ⟨numbered, engine, evaluator, hnumbered, hbuild, hcompile, hmode, hkeys⟩ :
      ∃ numbered engine evaluator,
        PatternVariable.make "M*" "M(\\d+)" "source" .index = .ok numbered ∧
        Engine.build {} (twoVariables numbered) [.function keeping, .library] = .ok engine ∧
        engine.compile "keep(config.a, M7) + M1 * M2 - config.b" = .ok evaluator ∧
        engine.options.requirement = .matched ∧
        evaluator.compiled.expr.readKeys = ["settings", "source", "source", "settings"] :=
    ⟨_, _, _, rfl, rfl, rfl, rfl, rfl⟩
  have hengine : engine.Faithful := faithful_twoVariables hnumbered hbuild
  have hrequired := (required_exact hengine hcompile).1 hmode
  rw [hkeys] at hrequired
  exact ⟨numbered, engine, evaluator, hnumbered, hbuild, hcompile, hrequired⟩

/-! ## Other keys and other functions -/

/-- Two scopes give a tree the same value, or the same error, if they agree on the keys that
it reads and on the functions that it calls. -/
theorem Scope.evaluate_congr {s s' : Scope} {e : Expr}
    (hreads : ∀ b, Occurs (.binding b) e → s.context.get? b.context = s'.context.get? b.context)
    (hcalls : ∀ f args, Occurs (.call f args) e → s.functions.get? f = s'.functions.get? f) :
    s.evaluate e = s'.evaluate e := by
  induction e using ofChildren with
  | h e ih =>
    have hchild : ∀ child ∈ e.children, s.evaluate child = s'.evaluate child := by
      intro child hmem
      apply ih child hmem
      · intro b hoccurs
        exact hreads b (.inChild hmem hoccurs)
      · intro f args hoccurs
        exact hcalls f args (.inChild hmem hoccurs)
    cases e with
    | literal l => rw [evaluate, evaluate]
    | name ident => rw [evaluate, evaluate]
    | attr base member => rw [evaluate, evaluate]
    | binding b =>
      have hget := hreads b .here
      rw [evaluate, evaluate, read, read, hget]
    | call f args =>
      have hget := hcalls f args .here
      have hargs : args.map s.evaluate = args.map s'.evaluate := List.map_congr_left hchild
      rw [evaluate, evaluate, callee, callee, hget, evaluateAll_eq, evaluateAll_eq, hargs]
    | negate e =>
      have he := hchild e (by simp [children])
      rw [evaluate, evaluate, he]
    | not e =>
      have he := hchild e (by simp [children])
      rw [evaluate, evaluate, he]
    | arith op l r =>
      have hl := hchild l (by simp [children])
      have hr := hchild r (by simp [children])
      rw [evaluate, evaluate, hl, hr]
    | compare op l r =>
      have hl := hchild l (by simp [children])
      have hr := hchild r (by simp [children])
      rw [evaluate, evaluate, hl, hr]
    | logic op operands =>
      have hall : operands.map s.evaluate = operands.map s'.evaluate := List.map_congr_left hchild
      rw [evaluate, evaluate, evaluateChain_eq, evaluateChain_eq, hall]
    | conditional c t e =>
      have hc := hchild c (by simp [children])
      have ht := hchild t (by simp [children])
      have he := hchild e (by simp [children])
      rw [evaluate_conditional, evaluate_conditional, hc, ht, he]

/-- Functions that a tree does not call are not bound. -/
theorem evaluatorWith_of_uncalled {c : CompiledFormula} (functions : FunctionRegistry)
    {extra : List (String × HostFunction)}
    (h : ∀ f ∈ extra, ∀ args, ¬Occurs (.call f.1 args) c.expr) :
    c.evaluatorWith functions extra = c.evaluator functions := by
  have hnone : (extra.filter fun f => c.expr.calls f.1) = [] := by
    rw [List.filter_eq_nil_iff]
    intro f hf hcalls
    rcases calls_eq_true_iff.1 hcalls with ⟨args, hoccurs⟩
    exact h f hf args hoccurs
  simp only [CompiledFormula.evaluator, CompiledFormula.evaluatorWith, hnone, List.filter_nil]

/-- Contexts that agree on the required keys lack the same ones. -/
theorem missingKeys_congr {c : CompiledFormula} {context context' : Context}
    (h : ∀ key ∈ c.required, context.get? key = context'.get? key) :
    c.missingKeys context = c.missingKeys context' := by
  apply List.filter_congr
  intro key hkey
  rw [Table.contains, Table.contains, h key hkey]

/-- Calling a compiled formula comes to the same result, be it a value or an error, in any two
contexts that have the same values under the required keys, and with any further functions
that the tree does not call. -/
theorem call_eq_of_agree {engine : Engine} {source : String} {compiled : CompiledFormula}
    (hengine : engine.Faithful) (hcompile : engine.compileFormula source = .ok compiled)
    {context context' : Context}
    (hagree : ∀ key ∈ compiled.required, context.get? key = context'.get? key)
    {extra : List (String × HostFunction)}
    (hextra : ∀ f ∈ extra, ∀ args, ¬Occurs (.call f.1 args) compiled.expr) :
    (compiled.evaluatorWith engine.functions extra).call context =
      (compiled.evaluator engine.functions).call context' := by
  rw [evaluatorWith_of_uncalled engine.functions hextra]
  have hsame : compiled.missingKeys context = compiled.missingKeys context' :=
    missingKeys_congr hagree
  have hexpr : (compiled.evaluator engine.functions).compiled = compiled := rfl
  by_cases hmissing : compiled.missingKeys context = []
  · have hmissing' : compiled.missingKeys context' = [] := by rw [← hsame, hmissing]
    rw [Evaluator.call_of_no_missing hmissing, Evaluator.call_of_no_missing hmissing', hexpr]
    apply Scope.evaluate_congr
    · intro b hoccurs
      have hread : b.context ∈ compiled.expr.readKeys := mem_readKeys_iff.2 ⟨b, hoccurs, rfl⟩
      exact hagree _ (readKeys_subset_required hengine hcompile _ hread)
    · intro f args _
      rfl
  · have hmissing' : compiled.missingKeys context' ≠ [] := by rwa [← hsame]
    rw [Evaluator.call_of_missing hmissing, Evaluator.call_of_missing hmissing', hexpr, hsame]

/-- The keys in another order and beside a further one, with a further function. -/
theorem call_eq_of_agree_reordered :
    ∃ numbered engine compiled,
      PatternVariable.make "M*" "M(\\d+)" "source" .index = .ok numbered ∧
      Engine.build {} (twoVariables numbered) [.function keeping, .library] = .ok engine ∧
      engine.compileFormula "keep(config.a, M7) + max(M1, 2)" = .ok compiled ∧
      (compiled.evaluatorWith engine.functions [("spare", fun _ => .ok .null)]).call
          ((Table.empty.put "source" (.list [.int 1, .int 5])).put "settings"
            (.map [("a", .int 7)])) =
        (compiled.evaluator engine.functions).call
          (((Table.empty.put "spare" (.int 9)).put "settings" (.map [("a", .int 7)])).put "source"
            (.list [.int 1, .int 5])) := by
  obtain ⟨numbered, engine, compiled, hnumbered, hbuild, hcompile, hrequired, hcalls⟩ :
      ∃ numbered engine compiled,
        PatternVariable.make "M*" "M(\\d+)" "source" .index = .ok numbered ∧
        Engine.build {} (twoVariables numbered) [.function keeping, .library] = .ok engine ∧
        engine.compileFormula "keep(config.a, M7) + max(M1, 2)" = .ok compiled ∧
        compiled.required = ["settings", "source"] ∧ compiled.expr.calls "spare" = false :=
    ⟨_, _, _, rfl, rfl, rfl, rfl, rfl⟩
  have hengine : engine.Faithful := faithful_twoVariables hnumbered hbuild
  refine ⟨numbered, engine, compiled, hnumbered, hbuild, hcompile, ?_⟩
  apply call_eq_of_agree hengine hcompile
  · intro key hkey
    rw [hrequired] at hkey
    rcases List.mem_pair.1 hkey with rfl | rfl <;> rfl
  · intro f hf args hoccurs
    rw [List.mem_singleton.1 hf] at hoccurs
    have hcalled := calls_eq_true_iff.2 ⟨args, hoccurs⟩
    rw [hcalls] at hcalled
    cases hcalled

end Formulary
