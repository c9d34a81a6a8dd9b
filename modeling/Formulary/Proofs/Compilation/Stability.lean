import Formulary.Proofs.Compilation.Lockstep
import Formulary.Proofs.Compilation.Termination

/-!
# Rewriting once more

The tree that rewriting gives is one on which there is nothing left to do: each node passes
every check a second time, and the tree is low enough, although the calls that were replaced
on the way took levels of their own.  So it is rewritten to itself.  A limit on the depth only
cuts off: whatever comes to another outcome does so under every larger limit.

Main definitions:

- `Settled`: a tree on which there is nothing to do.

Main results:

- Theorem `rewrite_eq_self_iff`: the settled trees are those that are rewritten to themselves.
- Theorem `rewrite_again`: what rewriting gives is rewritten to itself.
- Theorem `rewrite_of_larger_limit`: what a limit does not cut off is the same under every
  larger one.
-/

namespace Formulary

open Formulary.Expr

/-! ## Settled trees -/

/-- The node stays as it is: it is no name, no attribute, and no call but one that is let pass
and not replaced. -/
def Whitelist.Stays (w : Whitelist) : Expr → Prop
  | .name _ => False
  | .attr _ _ => False
  | .call f args => ∃ d, w.callee f args = .ok d ∧ d.rewrite = none
  | _ => True

/-- There is nothing to do on the tree, within a limit. -/
structure Settled (w : Whitelist) (limit : Nat) (e : Expr) : Prop where
  stays : Everywhere w.Stays e
  depth_le : e.depth ≤ limit

namespace Whitelist

variable {w : Whitelist} {limit : Nat}

/-- A function that does not rewrite looks at the number of its arguments only. -/
theorem callee_of_length_eq {f : String} {args args' : List Expr} {d : FunctionDescriptor}
    (hcallee : w.callee f args = .ok d) (hplain : d.rewrite = none)
    (hlength : args'.length = args.length) : w.callee f args' = .ok d := by
  obtain ⟨hfind, hvalid⟩ := callee_eq_ok hcallee
  have haccepts : d.arity.accepts args'.length = true := by
    rw [hlength]
    exact accepts_of_validate hvalid
  simp [callee, hfind, FunctionDescriptor.validate, haccepts, hplain]

/-- The walk through a tree on which there is nothing to do comes to the tree, without
events. -/
theorem visit_of_stays {budget : Nat} {e : Expr} (h : Everywhere w.Stays e)
    (hdepth : e.depth ≤ budget) : w.visit limit budget e = pure e := by
  induction budget generalizing e with
  | zero =>
    rw [depth_eq] at hdepth
    omega
  | succ budget ih =>
    rw [depth_eq, Nat.add_le_add_iff_right, depthMax_le_iff] at hdepth
    have hchildren : ∀ child ∈ e.children, w.visit limit budget child = pure child :=
      fun child hchild => ih (h.child hchild) (hdepth child hchild)
    cases e with
    | literal l => rfl
    | binding b => rfl
    | name ident => exact h.root.elim
    | attr base member => exact h.root.elim
    | negate e =>
      rw [visit, hchildren e (by simp [children])]
      rfl
    | not e =>
      rw [visit, hchildren e (by simp [children])]
      rfl
    | arith op l r =>
      rw [visit, hchildren l (by simp [children]), hchildren r (by simp [children])]
      rfl
    | compare op l r =>
      rw [visit, hchildren l (by simp [children]), hchildren r (by simp [children])]
      rfl
    | logic op operands =>
      have hoperands : Walk.each (w.visit limit budget) operands = pure operands :=
        Walk.each_of_pure hchildren
      rw [visit, hoperands]
      rfl
    | conditional c t e =>
      rw [visit, hchildren c (by simp [children]), hchildren t (by simp [children]),
        hchildren e (by simp [children])]
      rfl
    | call f args =>
      obtain ⟨d, hcallee, hplain⟩ := h.root
      have hargs : Walk.each (w.visit limit budget) args = pure args :=
        Walk.each_of_pure hchildren
      simp only [visit, hcallee, hplain, hargs]
      rfl

end Whitelist

section Rewriting

variable {w : Whitelist} {limit : Nat}

/-- A settled tree is rewritten to itself, and no key is touched. -/
theorem Settled.rewrite_eq {e : Expr} (h : Settled w limit e) :
    w.rewrite limit e = .ok ⟨e, []⟩ := by
  rw [Whitelist.rewrite, Whitelist.walk, Whitelist.visit_of_stays h.stays h.depth_le]
  rfl

/-- Nothing is left to do on a rewritten tree. -/
theorem settled_of_rewrite (hbinds : BindsOnly w.resolvers) {tree : Expr} {out : Rewritten}
    (h : w.rewrite limit tree = .ok out) : Settled w limit out.expr := by
  refine ⟨?_, Whitelist.depth_le_of_visit hbinds (Whitelist.outcome_of_rewrite h)⟩
  refine (Whitelist.rewrites_of_rewrite h).everywhere ?_ ?_ ?_ ?_
  · intro ident r e hfind hbind
    obtain ⟨b, rfl⟩ := hbinds.simple r (List.mem_of_find?_eq_some hfind) ident e hbind
    exact Syntax.everywhere_leaf rfl trivial
  · intro base member r hfind
    obtain ⟨b, hb⟩ := hbinds.attributed r (List.mem_of_find?_eq_some hfind) base member
    rw [hb]
    exact Syntax.everywhere_leaf rfl trivial
  · intro f args args' d hcallee hplain hlength
    exact ⟨d, Whitelist.callee_of_length_eq hcallee hplain hlength, hplain⟩
  · intro e hname hattr hcall
    cases e with
    | name n => exact absurd rfl (hname n)
    | attr b m => exact absurd rfl (hattr b m)
    | call f args => exact absurd rfl (hcall f args)
    | _ => trivial

/-- The trees that are rewritten to themselves are the settled ones. -/
theorem rewrite_eq_self_iff (hbinds : BindsOnly w.resolvers) {e : Expr} :
    w.rewrite limit e = .ok ⟨e, []⟩ ↔ Settled w limit e :=
  ⟨fun h => settled_of_rewrite hbinds h, Settled.rewrite_eq⟩

end Rewriting

/-! ## The same limit -/

/-- Whatever the functions of the host put in the place of their calls, a rewritten tree is
rewritten to itself under the same whitelist and limit, and no key is touched. -/
theorem rewrite_again {resolvers : ResolverRegistry} (hbinds : BindsOnly resolvers)
    (functions : FunctionRegistry) {limit : Nat} {tree : Expr} {out : Rewritten}
    (h : Whitelist.rewrite ⟨resolvers, functions⟩ limit tree = .ok out) :
    Whitelist.rewrite ⟨resolvers, functions⟩ limit out.expr = .ok ⟨out.expr, []⟩ := by
  let w : Whitelist := ⟨resolvers, functions⟩
  have hsettled : Settled w limit out.expr := settled_of_rewrite (w := w) hbinds h
  exact (rewrite_eq_self_iff (w := w) hbinds).2 hsettled

/-- A conditional and a call that is doubled need five levels, and their tree three of them. -/
theorem rewrite_again_doubling :
    ∃ functions tree out, FunctionRegistry.build [.function doubling, .library] = .ok functions ∧
      Expr.parse "IF(x > 1, twice(x), max(x, 2))" = .ok tree ∧
      Whitelist.rewrite ⟨⟨[.simple (anyKey "data")]⟩, functions⟩ 4 tree =
        .error (.nestingTooDeep 4) ∧
      Whitelist.rewrite ⟨⟨[.simple (anyKey "data")]⟩, functions⟩ 5 tree = .ok out ∧
      out.touched = ["data"] ∧ out.expr.depth = 3 ∧
      Whitelist.rewrite ⟨⟨[.simple (anyKey "data")]⟩, functions⟩ 5 out.expr =
        .ok ⟨out.expr, []⟩ := by
  obtain ⟨functions, tree, out, hbuild, hparse, hshallow, hout, htouched, hdepth⟩ :
      ∃ functions tree out,
        FunctionRegistry.build [.function doubling, .library] = .ok functions ∧
        Expr.parse "IF(x > 1, twice(x), max(x, 2))" = .ok tree ∧
        Whitelist.rewrite ⟨⟨[.simple (anyKey "data")]⟩, functions⟩ 4 tree =
          .error (.nestingTooDeep 4) ∧
        Whitelist.rewrite ⟨⟨[.simple (anyKey "data")]⟩, functions⟩ 5 tree = .ok out ∧
        out.touched = ["data"] ∧ out.expr.depth = 3 :=
    ⟨_, _, _, rfl, rfl, rfl, rfl, rfl, rfl⟩
  exact ⟨functions, tree, out, hbuild, hparse, hshallow, hout, htouched, hdepth,
    rewrite_again (bindsOnly_anyKey "data") functions hout⟩

/-! ## Larger limits -/

/-- If a limit does not cut a formula off, every larger limit comes to the same outcome:
the same tree with the same touched keys, or the same error. -/
theorem rewrite_of_larger_limit (w : Whitelist) {limit limit' : Nat} (hle : limit ≤ limit')
    (tree : Expr) (h : w.rewrite limit tree ≠ .error (.nestingTooDeep limit)) :
    w.rewrite limit' tree = w.rewrite limit tree := by
  have hparallel : w.Parallel (· = .nestingTooDeep limit) w := .refl w
  have hfollows : (w.walk limit tree).Follows (· = .nestingTooDeep limit) (w.walk limit' tree) :=
    hparallel.visit rfl hle tree
  rcases hfollows with ⟨_, rfl, houtcome⟩ | hsame
  · refine absurd ?_ h
    rw [Whitelist.rewrite, houtcome]
    rfl
  · exact Whitelist.rewrite_of_walk_eq hsame

/-- A call that is not allowed is reported under every limit that lets the compiler come by
it, although an endless expansion follows; below that limit it is cut off. -/
theorem rewrite_of_larger_limit_swelling :
    ∃ functions tree, FunctionRegistry.build [.function swelling, .library] = .ok functions ∧
      Expr.parse "max(exec(x), swell(x))" = .ok tree ∧
      Whitelist.rewrite ⟨⟨[.simple (anyKey "data")]⟩, functions⟩ 1 tree =
        .error (.nestingTooDeep 1) ∧
      Whitelist.rewrite ⟨⟨[.simple (anyKey "data")]⟩, functions⟩ 2 tree ≠
        .error (.nestingTooDeep 2) ∧
      Whitelist.rewrite ⟨⟨[.simple (anyKey "data")]⟩, functions⟩ 256 tree =
        .error (.unknownFunction "exec" functions.names) := by
  obtain ⟨functions, tree, hbuild, hparse, hcut, hrefused⟩ :
      ∃ functions tree,
        FunctionRegistry.build [.function swelling, .library] = .ok functions ∧
        Expr.parse "max(exec(x), swell(x))" = .ok tree ∧
        Whitelist.rewrite ⟨⟨[.simple (anyKey "data")]⟩, functions⟩ 1 tree =
          .error (.nestingTooDeep 1) ∧
        Whitelist.rewrite ⟨⟨[.simple (anyKey "data")]⟩, functions⟩ 2 tree =
          .error (.unknownFunction "exec" functions.names) :=
    ⟨_, _, rfl, rfl, rfl, rfl⟩
  have hother : Whitelist.rewrite ⟨⟨[.simple (anyKey "data")]⟩, functions⟩ 2 tree ≠
      .error (.nestingTooDeep 2) := by
    rw [hrefused]
    simp
  refine ⟨functions, tree, hbuild, hparse, hcut, hother, ?_⟩
  rw [rewrite_of_larger_limit _ (by decide : 2 ≤ 256) tree hother, hrefused]

end Formulary
