import Formulary.Compilation.Rewriting
import Formulary.Proofs.Compilation.Occurrence
import Formulary.Proofs.Result

/-!
# What rewriting may do to a tree

The walk of the compiler counts levels and keeps a trail.  Without both, what it does
to a tree is a relation with one rule for each kind of node, and every property of
rewritten trees is an induction over that relation.

Main definitions:

- `Rewrites`: a tree is rewritten into another one.

Main results:

- Theorem `rewrites_of_visit`: the walk rewrites within the relation.
-/

namespace Formulary

/-- The tree is rewritten into the other one.  A call of a function that rewrites is
replaced, and what replaces it is rewritten in its turn. -/
inductive Rewrites (w : Whitelist) : Expr → Expr → Prop where
  | literal (l : Literal) : Rewrites w (.literal l) (.literal l)
  | binding (b : Binding) : Rewrites w (.binding b) (.binding b)
  | name {ident : String} {r : SimpleResolver} {e : Expr}
      (hfind : w.resolvers.findSimple? ident = some r) (hbind : r.bind ident = .ok e) :
      Rewrites w (.name ident) e
  | attr {base : String} (member : String) {r : AttributedResolver}
      (hfind : w.resolvers.findAttributed? base = some r) :
      Rewrites w (.attr base member) (r.bind base member)
  | negate {e e' : Expr} (h : Rewrites w e e') : Rewrites w (.negate e) (.negate e')
  | not {e e' : Expr} (h : Rewrites w e e') : Rewrites w (.not e) (.not e')
  | arith (op : ArithOp) {l l' r r' : Expr} (hl : Rewrites w l l') (hr : Rewrites w r r') :
      Rewrites w (.arith op l r) (.arith op l' r')
  | compare (op : Comparison) {l l' r r' : Expr} (hl : Rewrites w l l')
      (hr : Rewrites w r r') : Rewrites w (.compare op l r) (.compare op l' r')
  | logic (op : Connective) {pairs : List (Expr × Expr)}
      (hall : ∀ p ∈ pairs, Rewrites w p.1 p.2) :
      Rewrites w (.logic op (pairs.map Prod.fst)) (.logic op (pairs.map Prod.snd))
  | conditional {c c' t t' e e' : Expr} (hc : Rewrites w c c') (ht : Rewrites w t t')
      (he : Rewrites w e e') : Rewrites w (.conditional c t e) (.conditional c' t' e')
  | call {f : String} {pairs : List (Expr × Expr)} {d : FunctionDescriptor}
      (hcallee : w.callee f (pairs.map Prod.fst) = .ok d) (hplain : d.rewrite = none)
      (hall : ∀ p ∈ pairs, Rewrites w p.1 p.2) :
      Rewrites w (.call f (pairs.map Prod.fst)) (.call f (pairs.map Prod.snd))
  | rewriting {f : String} {args : List Expr} {d : FunctionDescriptor} {r : CallRewrite}
      {replacement e : Expr} (hcallee : w.callee f args = .ok d) (hrewrite : d.rewrite = some r)
      (hreplace : r.rewrite f args = .ok replacement) (h : Rewrites w replacement e) :
      Rewrites w (.call f args) e

/-- A walk through a list comes to one result for each element. -/
theorem Walk.each_eq_ok {α β : Type} {f : α → Walk β} {as : List α} {bs : List β}
    (h : (Walk.each f as).outcome = .ok bs) :
    ∃ pairs : List (α × β), pairs.map Prod.fst = as ∧ pairs.map Prod.snd = bs ∧
      ∀ p ∈ pairs, (f p.1).outcome = .ok p.2 := by
  induction as generalizing bs with
  | nil =>
    cases h
    exact ⟨[], rfl, rfl, by simp⟩
  | cons a as ih =>
    simp only [Walk.each, outcome_bind, outcome_pure, bind_eq_ok_iff] at h
    rcases h with ⟨b, hb, bs', hbs, heq⟩
    cases heq
    rcases ih hbs with ⟨pairs, rfl, rfl, hall⟩
    refine ⟨(a, b) :: pairs, rfl, rfl, ?_⟩
    intro p hp
    rcases List.mem_cons.1 hp with rfl | hp
    · exact hb
    · exact hall p hp

namespace Whitelist

variable {w : Whitelist} {limit : Nat}

/-- The callee of a call is a registered function that takes the arguments. -/
theorem callee_eq_ok {f : String} {args : List Expr} {d : FunctionDescriptor}
    (h : w.callee f args = .ok d) :
    w.functions.find? f = some d ∧ d.validate args = .ok () := by
  unfold callee at h
  split at h
  · cases h
  · next d' hfind =>
    split at h
    · next hvalid =>
      cases h
      exact ⟨hfind, hvalid⟩
    · cases h

/-- The walk through a call, whether the function rewrites or not. -/
theorem rewrites_of_call {budget : Nat}
    (ih : ∀ e e', (w.visit limit budget e).outcome = .ok e' → Rewrites w e e') {f : String}
    {args : List Expr} {e' : Expr}
    (h : (w.visit limit (budget + 1) (.call f args)).outcome = .ok e') :
    Rewrites w (.call f args) e' := by
  simp only [visit] at h
  split at h
  · cases h
  · next d hcallee =>
    split at h
    · next hplain =>
      simp only [Walk.outcome_bind, Walk.outcome_pure, bind_eq_ok_iff] at h
      rcases h with ⟨bs, hbs, heq⟩
      cases heq
      rcases Walk.each_eq_ok hbs with ⟨pairs, rfl, rfl, hall⟩
      exact .call hcallee hplain fun p hp => ih _ _ (hall p hp)
    · next r hrewrite =>
      simp only [Walk.outcome_bind, bind_eq_ok_iff] at h
      rcases h with ⟨_, -, h⟩
      split at h
      · next replacement hreplace => exact .rewriting hcallee hrewrite hreplace (ih _ _ h)
      · cases h

/-- The walk rewrites within the relation, whatever its budget of levels. -/
theorem rewrites_of_visit {budget : Nat} {e e' : Expr}
    (h : (w.visit limit budget e).outcome = .ok e') : Rewrites w e e' := by
  induction budget generalizing e e' with
  | zero => cases h
  | succ budget ih =>
    cases e with
    | literal l =>
      cases h
      exact .literal l
    | binding b =>
      cases h
      exact .binding b
    | name ident =>
      simp only [visit, bindIdentifier] at h
      split at h
      · cases h
      · next r hfind => exact .name hfind h
    | attr base member =>
      simp only [visit, bindMember] at h
      split at h
      · cases h
      · next r hfind =>
        cases h
        exact .attr member hfind
    | negate e =>
      simp only [visit, Walk.outcome_bind, Walk.outcome_pure, bind_eq_ok_iff] at h
      rcases h with ⟨a, ha, heq⟩
      cases heq
      exact .negate (ih ha)
    | not e =>
      simp only [visit, Walk.outcome_bind, Walk.outcome_pure, bind_eq_ok_iff] at h
      rcases h with ⟨a, ha, heq⟩
      cases heq
      exact .not (ih ha)
    | arith op l r =>
      simp only [visit, Walk.outcome_bind, Walk.outcome_pure, bind_eq_ok_iff] at h
      rcases h with ⟨a, ha, b, hb, heq⟩
      cases heq
      exact .arith op (ih ha) (ih hb)
    | compare op l r =>
      simp only [visit, Walk.outcome_bind, Walk.outcome_pure, bind_eq_ok_iff] at h
      rcases h with ⟨a, ha, b, hb, heq⟩
      cases heq
      exact .compare op (ih ha) (ih hb)
    | logic op operands =>
      simp only [visit, Walk.outcome_bind, Walk.outcome_pure, bind_eq_ok_iff] at h
      rcases h with ⟨bs, hbs, heq⟩
      cases heq
      rcases Walk.each_eq_ok hbs with ⟨pairs, rfl, rfl, hall⟩
      exact .logic op fun p hp => ih (hall p hp)
    | conditional c t e =>
      simp only [visit, Walk.outcome_bind, Walk.outcome_pure, bind_eq_ok_iff] at h
      rcases h with ⟨a, ha, b, hb, d, hd, heq⟩
      cases heq
      exact .conditional (ih ha) (ih hb) (ih hd)
    | call f args => exact rewrites_of_call (fun _ _ => ih) h

/-- A tree that could be rewritten is rewritten within the relation. -/
theorem rewrites_of_rewrite {tree : Expr} {out : Rewritten}
    (h : w.rewrite limit tree = .ok out) : Rewrites w tree out.expr := by
  simp only [rewrite] at h
  cases hwalk : (w.walk limit tree).outcome with
  | error e =>
    rw [hwalk] at h
    cases h
  | ok e =>
    rw [hwalk] at h
    cases h
    exact rewrites_of_visit hwalk

end Whitelist
end Formulary
