import Formulary.Proofs.Compilation.Registry
import Formulary.Proofs.Compilation.Rewriting
import Formulary.Proofs.Grammar.Acceptance

/-!
# Compiled formulas stay within the whitelist

Whatever the functions of the host put in the place of their calls is rewritten in its
turn, so that a rewritten tree never holds a name, an attribute, or a call that the
registry does not allow.  The condition of a conditional is one by construction, and
rewriting its parts does not change that.

Main definitions:

- `Permitted`: a node that a rewritten tree may have.
- `Plain`: a tree without conditionals.

Main results:

- Theorem `Rewrites.everywhere`: what holds of each node that the whitelist lets in holds
  of every node of a rewritten tree.
- Theorem `Rewrites.permitted`: rewritten trees have permitted nodes only.
- Theorem `Rewrites.isCondition`: rewritten conditionals have conditions by construction.
- Theorem `rewrite_confined`: both, for formulas and registries that could be made.
-/

namespace Formulary

open Formulary.Expr

/-- A node that a rewritten tree may have: no name, no attribute, and only calls of
registered functions that have an implementation, do not rewrite, and take the number of
arguments. -/
def Permitted (functions : FunctionRegistry) : Expr → Prop
  | .name _ => False
  | .attr _ _ => False
  | .call f args =>
      f ≠ conditionalName ∧ ∃ d, functions.find? f = some d ∧ d.implementation.isSome = true ∧
        d.rewrite = none ∧ d.arity.accepts args.length = true
  | _ => True

/-- The tree has no conditional. -/
def Plain (e : Expr) : Prop :=
  ∀ c t f, ¬Occurs (.conditional c t f) e

/-- The condition of a conditional is one by construction. -/
def Conditioned : Expr → Prop
  | .conditional c _ _ => c.isCondition = true
  | _ => True

/-- All resolvers bind to bindings. -/
structure BindsOnly (resolvers : ResolverRegistry) : Prop where
  simple : ∀ r ∈ resolvers.simple, ∀ ident e, r.bind ident = .ok e → ∃ b, e = .binding b
  attributed : ∀ r ∈ resolvers.attributed, ∀ base member, ∃ b, r.bind base member = .binding b

/-- No function of the host brings in a conditional of its own. -/
def RewritesPlainly (registrations : List Registration) : Prop :=
  ∀ d, Registration.function d ∈ registrations → ∀ r, d.rewrite = some r →
    ∀ args e, r.rewrite d.name args = .ok e → (∀ a ∈ args, Plain a) → Plain e

/-! ## Nodes -/

/-- The arguments of a valid call are as many as the arity accepts. -/
theorem accepts_of_validate {d : FunctionDescriptor} {args : List Expr}
    (h : d.validate args = .ok ()) : d.arity.accepts args.length = true := by
  unfold FunctionDescriptor.validate at h
  split at h
  · assumption
  · cases h

/-- What holds in every rewritten child holds in the children of the rewritten node. -/
theorem everywhere_pairs {P : Expr → Prop} {pairs : List (Expr × Expr)}
    (h : ∀ p ∈ pairs, Everywhere P p.2) : ∀ child ∈ pairs.map Prod.snd, Everywhere P child := by
  intro child hchild
  rcases List.mem_map.1 hchild with ⟨p, hp, rfl⟩
  exact h p hp

/-- What the whitelist lets into a tree, node by node, is what rewritten trees are made
of. -/
theorem Rewrites.everywhere {w : Whitelist} {P : Expr → Prop}
    (hname : ∀ ident r e, w.resolvers.findSimple? ident = some r → r.bind ident = .ok e →
      Everywhere P e)
    (hattr : ∀ base member r, w.resolvers.findAttributed? base = some r →
      Everywhere P (r.bind base member))
    (hcall : ∀ f args args' d, w.callee f args = .ok d → d.rewrite = none →
      args'.length = args.length → P (.call f args'))
    (hnode : ∀ e : Expr, (∀ n, e ≠ .name n) → (∀ b m, e ≠ .attr b m) →
      (∀ f args, e ≠ .call f args) → P e) {e e' : Expr} (h : Rewrites w e e') : Everywhere P e' := by
  induction h with
  | literal | binding => exact Syntax.everywhere_leaf rfl (hnode _ (by simp) (by simp) (by simp))
  | name hfind hbind => exact hname _ _ _ hfind hbind
  | attr member hfind => exact hattr _ member _ hfind
  | negate _ ih | not _ ih =>
    exact everywhere_iff.2 ⟨hnode _ (by simp) (by simp) (by simp), by simpa [children] using ih⟩
  | arith op _ _ ihl ihr | compare op _ _ ihl ihr =>
    exact everywhere_iff.2
      ⟨hnode _ (by simp) (by simp) (by simp), by simpa [children] using ⟨ihl, ihr⟩⟩
  | logic op _ ihall =>
    exact everywhere_iff.2 ⟨hnode _ (by simp) (by simp) (by simp), everywhere_pairs ihall⟩
  | conditional _ _ _ ihc iht ihe =>
    exact everywhere_iff.2
      ⟨hnode _ (by simp) (by simp) (by simp), by simpa [children] using ⟨ihc, iht, ihe⟩⟩
  | call hcallee hplain _ ihall =>
    exact everywhere_iff.2 ⟨hcall _ _ _ _ hcallee hplain (by simp), everywhere_pairs ihall⟩
  | rewriting _ _ _ _ ih => exact ih

/-- Rewritten trees have permitted nodes only. -/
theorem Rewrites.permitted {w : Whitelist} {registrations : List Registration}
    (hbinds : BindsOnly w.resolvers)
    (hbuild : FunctionRegistry.build registrations = .ok w.functions) {e e' : Expr}
    (h : Rewrites w e e') : Everywhere (Permitted w.functions) e' := by
  refine h.everywhere ?_ ?_ ?_ ?_
  · intro ident r e hfind hbind
    rcases hbinds.simple _ (List.mem_of_find?_eq_some hfind) _ _ hbind with ⟨b, rfl⟩
    exact Syntax.everywhere_leaf rfl trivial
  · intro base member r hfind
    rcases hbinds.attributed _ (List.mem_of_find?_eq_some hfind) base member with ⟨b, hb⟩
    rw [hb]
    exact Syntax.everywhere_leaf rfl trivial
  · intro f args args' d hcallee hplain hlength
    rcases Whitelist.callee_eq_ok hcallee with ⟨hfind, hvalid⟩
    rcases FunctionRegistry.of_find? hbuild hfind with ⟨-, hcallable, -⟩
    refine ⟨?_, d, hfind, ?_, hplain, ?_⟩
    · rintro rfl
      rw [FunctionRegistry.find?_conditionalName hbuild] at hfind
      cases hfind
      cases hplain
    · simpa [FunctionDescriptor.isCallable, hplain] using hcallable
    · rw [hlength]
      exact accepts_of_validate hvalid
  · intro e hname hattr hcall
    cases e with
    | name n => exact absurd rfl (hname n)
    | attr b m => exact absurd rfl (hattr b m)
    | call f args => exact absurd rfl (hcall f args)
    | _ => trivial

/-! ## Conditions -/

/-- Rewriting the parts of a condition leaves it a condition. -/
theorem Rewrites.isCondition_of {w : Whitelist} {c c' : Expr} (h : Rewrites w c c')
    (hc : c.isCondition = true) : c'.isCondition = true := by
  cases h with
  | literal => rfl
  | compare => rfl
  | logic => rfl
  | _ => cases hc

/-- The tree has no conditional, but may be one itself, with a condition by
construction. -/
def Admissible (e : Expr) : Prop :=
  Plain e ∨ ∃ c t f, e = .conditional c t f ∧ c.isCondition = true ∧ Plain c ∧ Plain t ∧ Plain f

/-- The children of a plain tree are plain. -/
theorem Plain.child {e child : Expr} (h : Plain e) (hchild : child ∈ e.children) :
    Plain child := fun c t f hoccurs => h c t f (.inChild hchild hoccurs)

/-- The children of an admissible tree have no conditional. -/
theorem Admissible.child {e child : Expr} (h : Admissible e) (hchild : child ∈ e.children) :
    Admissible child := by
  left
  rcases h with hplain | ⟨c, t, f, rfl, -, hc, ht, hf⟩
  · exact hplain.child hchild
  · simp only [children, List.mem_cons, List.not_mem_nil, or_false] at hchild
    rcases hchild with rfl | rfl | rfl
    · exact hc
    · exact ht
    · exact hf

/-- What replaces a call is admissible if the arguments have no conditional. -/
theorem admissible_replacement {w : Whitelist} {registrations : List Registration}
    (hbuild : FunctionRegistry.build registrations = .ok w.functions)
    (hhost : RewritesPlainly registrations) {f : String} {args : List Expr}
    {d : FunctionDescriptor} {r : CallRewrite} {replacement : Expr}
    (hcallee : w.callee f args = .ok d) (hrewrite : d.rewrite = some r)
    (hreplace : r.rewrite f args = .ok replacement) (hargs : ∀ a ∈ args, Plain a) :
    Admissible replacement := by
  rcases Whitelist.callee_eq_ok hcallee with ⟨hfind, hvalid⟩
  rcases FunctionRegistry.of_find? hbuild hfind with ⟨hname, -, hregistered⟩
  by_cases hf : f = conditionalName
  · right
    subst hf
    rw [FunctionRegistry.find?_conditionalName hbuild] at hfind
    cases hfind
    cases hrewrite
    simp only [rewriteConditional] at hreplace
    split at hreplace
    · next c t e =>
      cases hreplace
      simp only [List.forall_mem_cons] at hargs
      have hcondition : c.isCondition = true := by
        change (if c.isCondition = true then .ok () else .error _) = Except.ok () at hvalid
        split at hvalid
        · assumption
        · cases hvalid
      exact ⟨c, t, e, rfl, hcondition, hargs.1, hargs.2.1, hargs.2.2.1⟩
    · cases hreplace
  · left
    rcases hregistered hf with hmem | ⟨s, rfl⟩
    · subst hname
      exact hhost d hmem r hrewrite args replacement hreplace hargs
    · cases hrewrite

/-- Rewritten conditionals have conditions by construction. -/
theorem Rewrites.conditioned {w : Whitelist} {registrations : List Registration}
    (hbinds : BindsOnly w.resolvers)
    (hbuild : FunctionRegistry.build registrations = .ok w.functions)
    (hhost : RewritesPlainly registrations) {e e' : Expr} (h : Rewrites w e e')
    (he : Admissible e) : Everywhere Conditioned e' := by
  have hbinding : ∀ b, Everywhere Conditioned (.binding b) := fun b =>
    Syntax.everywhere_leaf rfl trivial
  induction h with
  | literal => exact Syntax.everywhere_leaf rfl trivial
  | binding b => exact hbinding b
  | name hfind hbind =>
    rcases hbinds.simple _ (List.mem_of_find?_eq_some hfind) _ _ hbind with ⟨b, rfl⟩
    exact hbinding b
  | attr member hfind =>
    rcases hbinds.attributed _ (List.mem_of_find?_eq_some hfind) _ member with ⟨b, hb⟩
    rw [hb]
    exact hbinding b
  | negate _ ih =>
    have hchild := ih (he.child (by simp [children]))
    exact everywhere_iff.2 ⟨trivial, by simpa [children] using hchild⟩
  | not _ ih =>
    have hchild := ih (he.child (by simp [children]))
    exact everywhere_iff.2 ⟨trivial, by simpa [children] using hchild⟩
  | arith op _ _ ihl ihr =>
    have hl := ihl (he.child (by simp [children]))
    have hr := ihr (he.child (by simp [children]))
    exact everywhere_iff.2 ⟨trivial, by simpa [children] using ⟨hl, hr⟩⟩
  | compare op _ _ ihl ihr =>
    have hl := ihl (he.child (by simp [children]))
    have hr := ihr (he.child (by simp [children]))
    exact everywhere_iff.2 ⟨trivial, by simpa [children] using ⟨hl, hr⟩⟩
  | logic op _ ihall =>
    refine everywhere_iff.2 ⟨trivial, everywhere_pairs fun p hp => ihall p hp (he.child ?_)⟩
    exact List.mem_map_of_mem hp
  | conditional hc _ _ ihc iht ihe =>
    have hc' := ihc (he.child (by simp [children]))
    have ht' := iht (he.child (by simp [children]))
    have he' := ihe (he.child (by simp [children]))
    refine everywhere_iff.2 ⟨?_, by simpa [children] using ⟨hc', ht', he'⟩⟩
    rcases he with hplain | ⟨_, _, _, heq, hcondition, -⟩
    · exact absurd .here (hplain _ _ _)
    · cases heq
      exact hc.isCondition_of hcondition
  | call _ _ _ ihall =>
    refine everywhere_iff.2 ⟨trivial, everywhere_pairs fun p hp => ihall p hp (he.child ?_)⟩
    exact List.mem_map_of_mem hp
  | rewriting hcallee hrewrite hreplace _ ih =>
    refine ih (admissible_replacement hbuild hhost hcallee hrewrite hreplace fun a ha => ?_)
    rcases he with hplain | ⟨_, _, _, heq, -⟩
    · exact hplain.child ha
    · cases heq

/-! ## Formulas -/

/-- Parsed trees have no conditional. -/
theorem plain_of_parse {source : String} {tree : Expr} (h : Expr.parse source = .ok tree) :
    Plain tree := fun _ _ _ hoccurs => Syntax.shaped_of_parse h _ hoccurs

/-- Whatever a formula and the functions of the host are, a rewritten tree has no name, no
attribute, and only calls that the registry allows; and if no function of the host brings
in a conditional, the condition of each conditional is a comparison, a boolean chain or a
constant. -/
theorem rewrite_confined {resolvers : ResolverRegistry} {registrations : List Registration}
    {functions : FunctionRegistry} {source : String} {tree : Expr} {limit : Nat}
    {out : Rewritten} (hbinds : BindsOnly resolvers)
    (hbuild : FunctionRegistry.build registrations = .ok functions)
    (hparse : Expr.parse source = .ok tree)
    (h : Whitelist.rewrite ⟨resolvers, functions⟩ limit tree = .ok out) :
    Everywhere (Permitted functions) out.expr ∧
      (RewritesPlainly registrations → Everywhere Conditioned out.expr) := by
  have hrewrites := Whitelist.rewrites_of_rewrite h
  refine ⟨hrewrites.permitted hbinds hbuild, ?_⟩
  intro hhost
  exact hrewrites.conditioned hbinds hbuild hhost (.inl (plain_of_parse hparse))

/-- A function of a host that puts a sum in the place of its call. -/
def doubling : FunctionDescriptor where
  name := "twice"
  arity := .exactly 1
  rewrite := some
    { rewrite := fun f args =>
        match args with
        | [a] => .ok (.arith .add a a)
        | _ => .error (.arity f (.exactly 1) args.length) }

/-- A variable that reads every identifier as a key of the same context value. -/
def anyKey (contextKey : String) : SimpleResolver where
  displayName := contextKey
  contextKey := contextKey
  accepts := fun _ => true
  bind := fun ident => .ok (.binding ⟨contextKey, .key ident⟩)

/-- The resolver of any key makes bindings only. -/
theorem bindsOnly_anyKey (contextKey : String) : BindsOnly ⟨[.simple (anyKey contextKey)]⟩ where
  simple r hr ident e h := by
    obtain rfl : r = anyKey contextKey := by
      simpa [ResolverRegistry.simple, Resolver.simple?] using hr
    cases h
    exact ⟨_, rfl⟩
  attributed r hr := by
    simp [ResolverRegistry.attributed, Resolver.attributed?] at hr

/-- A rewrite that doubles its argument brings in no conditional. -/
theorem rewritesPlainly_doubling : RewritesPlainly [.function doubling, .library] := by
  intro d hd r hr args e he hargs
  obtain rfl : d = doubling := by simpa using hd
  cases hr
  simp only at he
  split at he
  · next a =>
    cases he
    have ha := hargs a (List.mem_singleton_self a)
    intro c t f hoccurs
    rcases occurs_iff.1 hoccurs with heq | ⟨child, hchild, hbelow⟩
    · cases heq
    · simp only [children, List.mem_cons, List.not_mem_nil, or_false, or_self] at hchild
      exact ha c t f (hchild ▸ hbelow)
  · cases he

/-- A conditional with a call that is rewritten and one that is not. -/
theorem rewrite_confined_doubling :
    ∃ functions tree out, FunctionRegistry.build [.function doubling, .library] = .ok functions ∧
      Expr.parse "IF(x > 1, twice(x), max(x, 2))" = .ok tree ∧
      Whitelist.rewrite ⟨⟨[.simple (anyKey "data")]⟩, functions⟩ 256 tree = .ok out ∧
      Everywhere (Permitted functions) out.expr ∧ Everywhere Conditioned out.expr := by
  have hconfined := @rewrite_confined ⟨[.simple (anyKey "data")]⟩
    [.function doubling, .library] _ "IF(x > 1, twice(x), max(x, 2))" _ 256 _
    (bindsOnly_anyKey "data") rfl rfl rfl
  exact ⟨_, _, _, rfl, rfl, rfl, hconfined.1, hconfined.2 rewritesPlainly_doubling⟩

end Formulary
