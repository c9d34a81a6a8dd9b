import Mathlib.Logic.Relation
import Formulary.Proofs.Compilation.Refusal

/-!
# Rewriting comes to an end

A function of the host may put anything in the place of its calls: the same call again, a
larger one, calls of other functions that rewrite.  What takes the place of a call is walked
in its turn, so the walk is no recursion on the tree.  It comes to an end because each visit
lies one level deeper than the one that leads to it, and none goes on below the limit.

Main definitions:

- `Whitelist.below`: what is visited one level below a node.
- `Whitelist.Visits`: one visit leads to another.
- `Whitelist.places`: the visits in their order.
- `Whitelist.Endless`: the expansion of a call never comes to a node that stays.

Main results:

- Theorem `Whitelist.visits_wellFounded`: visits do not lead on forever.
- Theorem `Whitelist.depth_le_of_visit`: what a walk gives is as deep as its budget at most.
- Theorem `Whitelist.failure?_visit`: the walk fails at the first visit that refuses.
- Theorem `rewrite_bounded`: the three of them for whole trees, with what becomes of an
  endless expansion.
-/

namespace Formulary

open Formulary.Expr Relation

namespace Expr

/-- The greatest depth of trees bounds that of each of them. -/
theorem depthMax_le_iff {es : List Expr} {n : Nat} :
    depthMax es ≤ n ↔ ∀ e ∈ es, e.depth ≤ n := by
  induction es with
  | nil => simp [depthMax]
  | cons e es ih => rw [depthMax, Nat.max_le, ih, List.forall_mem_cons]

/-- A tree is one level higher than its highest child. -/
theorem depth_eq (e : Expr) : e.depth = depthMax e.children + 1 := by
  cases e <;> simp [depth, children, depthMax]

end Expr

namespace Whitelist

/-! ## Visits -/

/-- The call is let pass and replaced by the tree. -/
inductive Replaces (w : Whitelist) : Expr → Expr → Prop where
  | call {f : String} {args : List Expr} {d : FunctionDescriptor} {r : CallRewrite}
      {replacement : Expr} (hcallee : w.callee f args = .ok d) (hrewrite : d.rewrite = some r)
      (hreplace : r.rewrite f args = .ok replacement) : Replaces w (.call f args) replacement

/-- What is visited one level below a node: its children, or what replaces it, and nothing
below a call that is refused. -/
def below (w : Whitelist) : Expr → List Expr
  | .call f args =>
    match w.callee f args with
    | .error _ => []
    | .ok d =>
      match d.rewrite with
      | none => args
      | some r =>
        match r.rewrite f args with
        | .ok replacement => [replacement]
        | .error _ => []
  | e => e.children

/-- Why a node is refused, whatever is below it. -/
def refusal? (w : Whitelist) : Expr → Option FormulaError
  | .name ident => (w.bindIdentifier ident).failure?
  | .attr base member => (w.bindMember base member).failure?
  | .call f args =>
    match w.callee f args with
    | .error err => some err
    | .ok d =>
      match d.rewrite with
      | none => none
      | some r =>
        match r.rewrite f args with
        | .ok _ => none
        | .error err => some (.call err)
  | _ => none

/-- Why a visit at a depth fails, whatever it would lead to. -/
def refusalAt (w : Whitelist) (limit : Nat) (place : Nat × Expr) : Option FormulaError :=
  if limit < place.1 then some (.nestingTooDeep limit) else w.refusal? place.2

/-- A visit within the limit leads to visits one level deeper. -/
def Visits (w : Whitelist) (limit : Nat) (p q : Nat × Expr) : Prop :=
  p.1 ≤ limit ∧ q.1 = p.1 + 1 ∧ q.2 ∈ w.below p.2

/-- The visits from a node on, each one before those it leads to, with a budget of levels
left of the limit. -/
def places (w : Whitelist) : Nat → Nat → Expr → List (Nat × Expr)
  | 0, depth, e => [(depth, e)]
  | budget + 1, depth, e => (depth, e) :: (w.below e).flatMap (places w budget (depth + 1))

/-- However often the tree is replaced, what comes of it is a call that is replaced. -/
def Endless (w : Whitelist) (e : Expr) : Prop :=
  ∀ e', ReflTransGen w.Replaces e e' → ∃ e'', w.Replaces e' e''

variable {w : Whitelist} {limit : Nat}

/-- No visit leads on forever, since each one is nearer to the limit. -/
theorem visits_wellFounded (w : Whitelist) (limit : Nat) :
    WellFounded fun q p => w.Visits limit p q := by
  apply Subrelation.wf _ (measure fun p : Nat × Expr => limit + 1 - p.1).wf
  rintro q p ⟨hwithin, hdepth, -⟩
  show limit + 1 - q.1 < limit + 1 - p.1
  omega

/-- The places are the visits to which the first one leads. -/
theorem mem_places_iff {budget depth : Nat} (hdepth : depth + budget = limit + 1) {e : Expr}
    {place : Nat × Expr} :
    place ∈ w.places budget depth e ↔ ReflTransGen (w.Visits limit) (depth, e) place := by
  induction budget generalizing depth e with
  | zero =>
    rw [places, List.mem_singleton]
    constructor
    · rintro rfl
      exact .refl
    · intro h
      rcases h.cases_head with heq | ⟨next, ⟨hwithin, -, -⟩, -⟩
      · exact heq.symm
      · simp only at hwithin
        omega
  | succ budget ih =>
    rw [places, List.mem_cons, List.mem_flatMap]
    constructor
    · rintro (rfl | ⟨e', he', hplace⟩)
      · exact .refl
      · exact .head ⟨by simp only; omega, rfl, he'⟩ ((ih (by omega)).1 hplace)
    · intro h
      rcases h.cases_head with heq | ⟨⟨depth', e'⟩, ⟨-, hlevel, he'⟩, h⟩
      · exact .inl heq.symm
      · simp only at hlevel
        subst hlevel
        exact .inr ⟨e', he', (ih (by omega)).2 h⟩

/-- Visits lead one level below the limit at most. -/
theorem depth_le_of_visits {p q : Nat × Expr} (hp : p.1 ≤ limit + 1)
    (h : ReflTransGen (w.Visits limit) p q) : q.1 ≤ limit + 1 := by
  induction h with
  | refl => exact hp
  | tail _ hvisit _ =>
    obtain ⟨hwithin, hdepth, -⟩ := hvisit
    omega

/-- A call that is replaced is not refused, and what replaces it is visited next. -/
theorem Replaces.below_eq {e e' : Expr} (h : w.Replaces e e') :
    w.refusal? e = none ∧ w.below e = [e'] := by
  cases h with
  | call hcallee hrewrite hreplace => simp [refusal?, below, hcallee, hrewrite, hreplace]

/-! ## Failures -/

/-- The walk through a call that could not be replaced fails with the reason. -/
theorem failure?_of_unreplaced {f : String} {args : List Expr} {d : FunctionDescriptor}
    {r : CallRewrite} {err : ValidationError} (h : w.callee f args = .ok d)
    (hrewrite : d.rewrite = some r) (hreplace : r.rewrite f args = .error err) (budget : Nat) :
    (w.visit limit (budget + 1) (.call f args)).failure? = some (.call err) := by
  simp only [visit, h, hrewrite, hreplace]
  rfl

/-- A visit within the limit fails if its node is refused, and else as the first visit fails
to which it leads. -/
theorem failure?_step (budget : Nat) (e : Expr) :
    (w.visit limit (budget + 1) e).failure? =
      (w.refusal? e).or
        ((w.below e).findSome? fun child => (w.visit limit budget child).failure?) := by
  cases e with
  | name ident => simp [visit, refusal?, below, children]
  | attr base member => simp [visit, refusal?, below, children]
  | call f args =>
    cases hcallee : w.callee f args with
    | error err => simp [failure?_of_refused hcallee, refusal?, hcallee]
    | ok d =>
      cases hrewrite : d.rewrite with
      | none => simp [failure?_of_plain hcallee hrewrite, refusal?, below, hcallee, hrewrite]
      | some r =>
        cases hreplace : r.rewrite f args with
        | error err =>
          simp [failure?_of_unreplaced hcallee hrewrite hreplace, refusal?, hcallee, hrewrite,
            hreplace]
        | ok replacement =>
          rw [failure?_of_replaced hcallee hrewrite hreplace]
          obtain ⟨hrefusal, hbelow⟩ := (Replaces.call hcallee hrewrite hreplace).below_eq
          rw [hrefusal, hbelow, findSome?_cons_eq_or, List.findSome?_nil, Option.or_none,
            Option.none_or]
  | _ =>
    refine failure?_of_inner ?_ budget
    trivial

/-- The walk fails at the first place that refuses.  The budget of levels is what is left of
the limit at this depth. -/
theorem failure?_visit {budget depth : Nat} (hdepth : depth + budget = limit + 1) (e : Expr) :
    (w.visit limit budget e).failure? =
      (w.places budget depth e).findSome? (w.refusalAt limit) := by
  induction budget generalizing depth e with
  | zero =>
    have hdeep : limit < depth := by omega
    simp only [places, findSome?_cons_eq_or, refusalAt, hdeep, if_true]
    rfl
  | succ budget ih =>
    have hwithin : ¬limit < depth := by omega
    have hbelow : ∀ child, (w.visit limit budget child).failure? =
        (w.places budget (depth + 1) child).findSome? (w.refusalAt limit) :=
      fun child => ih (by omega) child
    rw [failure?_step, places, findSome?_cons_eq_or, findSome?_flatMap, refusalAt,
      if_neg hwithin]
    simp only [hbelow]

/-! ## Depth -/

/-- A visit gives a node whose children were given by visits one level deeper, or what such
a visit gives. -/
theorem children_of_visit (hbinds : BindsOnly w.resolvers) {budget : Nat} {e e' : Expr}
    (h : (w.visit limit (budget + 1) e).outcome = .ok e') :
    (∀ child ∈ e'.children, ∃ source, (w.visit limit budget source).outcome = .ok child) ∨
      ∃ replacement, (w.visit limit budget replacement).outcome = .ok e' := by
  have hall : ∀ {es es' : List Expr}, (Walk.each (w.visit limit budget) es).outcome = .ok es' →
      ∀ child ∈ es', ∃ source, (w.visit limit budget source).outcome = .ok child := by
    intro es es' hes child hchild
    obtain ⟨pairs, -, rfl, hpairs⟩ := Walk.each_eq_ok hes
    obtain ⟨p, hp, rfl⟩ := List.mem_map.1 hchild
    exact ⟨p.1, hpairs p hp⟩
  cases e with
  | literal l =>
    cases h
    exact .inl (by simp [children])
  | binding b =>
    cases h
    exact .inl (by simp [children])
  | name ident =>
    simp only [visit, bindIdentifier] at h
    split at h
    · cases h
    · next r hfind =>
      obtain ⟨b, rfl⟩ := hbinds.simple _ (List.mem_of_find?_eq_some hfind) _ _ h
      exact .inl (by simp [children])
  | attr base member =>
    simp only [visit, bindMember] at h
    split at h
    · cases h
    · next r hfind =>
      cases h
      obtain ⟨b, hb⟩ := hbinds.attributed _ (List.mem_of_find?_eq_some hfind) base member
      exact .inl (by simp [hb, children])
  | negate e =>
    simp only [visit, Walk.outcome_bind, Walk.outcome_pure, bind_eq_ok_iff] at h
    obtain ⟨a, ha, heq⟩ := h
    cases heq
    exact .inl (by simpa [children] using ⟨e, ha⟩)
  | not e =>
    simp only [visit, Walk.outcome_bind, Walk.outcome_pure, bind_eq_ok_iff] at h
    obtain ⟨a, ha, heq⟩ := h
    cases heq
    exact .inl (by simpa [children] using ⟨e, ha⟩)
  | arith op l r =>
    simp only [visit, Walk.outcome_bind, Walk.outcome_pure, bind_eq_ok_iff] at h
    obtain ⟨a, ha, b, hb, heq⟩ := h
    cases heq
    exact .inl (by simpa [children] using ⟨⟨l, ha⟩, ⟨r, hb⟩⟩)
  | compare op l r =>
    simp only [visit, Walk.outcome_bind, Walk.outcome_pure, bind_eq_ok_iff] at h
    obtain ⟨a, ha, b, hb, heq⟩ := h
    cases heq
    exact .inl (by simpa [children] using ⟨⟨l, ha⟩, ⟨r, hb⟩⟩)
  | logic op operands =>
    simp only [visit, Walk.outcome_bind, Walk.outcome_pure, bind_eq_ok_iff] at h
    obtain ⟨operands', hoperands, heq⟩ := h
    cases heq
    exact .inl (hall hoperands)
  | conditional c t e =>
    simp only [visit, Walk.outcome_bind, Walk.outcome_pure, bind_eq_ok_iff] at h
    obtain ⟨c', hc, t', ht, e', he, heq⟩ := h
    cases heq
    exact .inl (by simpa [children] using ⟨⟨c, hc⟩, ⟨t, ht⟩, ⟨e, he⟩⟩)
  | call f args =>
    simp only [visit] at h
    split at h
    · cases h
    · next d hcallee =>
      split at h
      · simp only [Walk.outcome_bind, Walk.outcome_pure, bind_eq_ok_iff] at h
        obtain ⟨args', hargs, heq⟩ := h
        cases heq
        exact .inl (hall hargs)
      · simp only [Walk.outcome_bind, bind_eq_ok_iff] at h
        obtain ⟨-, -, h⟩ := h
        split at h
        · next replacement hreplace => exact .inr ⟨replacement, h⟩
        · cases h

/-- What a walk gives is no deeper than its budget of levels.  A replacement takes a level of
the budget and gives no level to the tree, so that the bound need not be reached. -/
theorem depth_le_of_visit (hbinds : BindsOnly w.resolvers) {budget : Nat} {e e' : Expr}
    (h : (w.visit limit budget e).outcome = .ok e') : e'.depth ≤ budget := by
  induction budget generalizing e e' with
  | zero => cases h
  | succ budget ih =>
    rcases children_of_visit hbinds h with hchildren | ⟨replacement, hreplacement⟩
    · rw [depth_eq, Nat.add_le_add_iff_right, depthMax_le_iff]
      intro child hchild
      obtain ⟨source, hsource⟩ := hchildren child hchild
      exact ih hsource
    · exact Nat.le_succ_of_le (ih hreplacement)

/-- A rewritten tree is what the walk gives. -/
theorem outcome_of_rewrite {tree : Expr} {out : Rewritten} (h : w.rewrite limit tree = .ok out) :
    (w.visit limit limit tree).outcome = .ok out.expr := by
  simp only [rewrite, walk] at h
  cases hvisit : (w.visit limit limit tree).outcome with
  | error err =>
    rw [hvisit] at h
    cases h
  | ok e =>
    rw [hvisit] at h
    cases h
    rfl

/-! ## Endless expansions -/

/-- What replaces an endless tree is endless. -/
theorem Endless.replaced {e e' : Expr} (h : w.Endless e) (he : w.Replaces e e') :
    w.Endless e' :=
  fun e'' he'' => h e'' (.head he he'')

/-- The visits to an endless tree and its replacements pass the limit, and none before that
refuses. -/
theorem Endless.places_eq {budget depth : Nat} (hdepth : depth + budget = limit + 1) {e : Expr}
    (h : w.Endless e) :
    ∃ before e', w.places budget depth e = before ++ [(limit + 1, e')] ∧
      ∀ place ∈ before, w.refusalAt limit place = none := by
  induction budget generalizing depth e with
  | zero => exact ⟨[], e, by rw [places, ← hdepth]; rfl, by simp⟩
  | succ budget ih =>
    obtain ⟨e', he'⟩ := h e .refl
    obtain ⟨hrefusal, hbelow⟩ := he'.below_eq
    have hdepth' : depth + 1 + budget = limit + 1 := by omega
    obtain ⟨before, last, hplaces, hbefore⟩ := ih hdepth' (h.replaced he')
    refine ⟨(depth, e) :: before, last, ?_, ?_⟩
    · rw [places, hbelow, List.flatMap_singleton, hplaces]
      rfl
    · rw [List.forall_mem_cons, refusalAt, if_neg (by simp only; omega)]
      exact ⟨hrefusal, hbefore⟩

/-- If visits lead past the limit, the formula is refused with the first refusal on the way:
for its depth, or with the error of a node visited earlier. -/
theorem refused_of_deep {tree : Expr} {last : Nat × Expr}
    (h : ReflTransGen (w.Visits limit) (1, tree) last) (hdeep : limit < last.1) :
    ∃ before refused after err, w.places limit 1 tree = before ++ refused :: after ∧
      (∀ place ∈ before, w.refusalAt limit place = none) ∧ last ∈ refused :: after ∧
      w.rewrite limit tree = .error err ∧
      (err = .nestingTooDeep limit ∨ w.refusal? refused.2 = some err) := by
  have hstart : 1 + limit = limit + 1 := Nat.add_comm 1 limit
  have hmem : last ∈ w.places limit 1 tree := (mem_places_iff hstart).2 h
  have hlast : w.refusalAt limit last = some (.nestingTooDeep limit) := if_pos hdeep
  obtain ⟨err, herr⟩ : ∃ err, (w.places limit 1 tree).findSome? (w.refusalAt limit) = some err :=
    Option.isSome_iff_exists.1 (List.findSome?_isSome_iff.2 ⟨_, hmem, by rw [hlast]; rfl⟩)
  obtain ⟨before, refused, after, hsplit, hrefused, hbefore⟩ := List.findSome?_eq_some_iff.1 herr
  refine ⟨before, refused, after, err, hsplit, hbefore, ?_, ?_, ?_⟩
  · rw [hsplit, List.mem_append] at hmem
    rcases hmem with hmem | hmem
    · rw [hbefore _ hmem] at hlast
      cases hlast
    · exact hmem
  · rw [rewrite_eq_error_iff, walk, failure?_visit hstart, herr]
  · unfold refusalAt at hrefused
    split at hrefused
    · cases hrefused
      exact .inl rfl
    · exact .inr hrefused

end Whitelist

/-! ## Formulas -/

/-- Whatever the functions of the host put in the place of their calls, visits do not lead
on forever, and a rewritten tree is no deeper than the limit.  An endless expansion is
refused for its depth.  Where one is come upon further down, the formula is refused with the
first refusal on the way, no later than where the expansion passes the limit: for its depth,
or with the error of a node visited earlier. -/
theorem rewrite_bounded {resolvers : ResolverRegistry} (hbinds : BindsOnly resolvers)
    (functions : FunctionRegistry) (limit : Nat) (tree : Expr) :
    let w : Whitelist := ⟨resolvers, functions⟩
    (WellFounded fun q p => w.Visits limit p q) ∧
    (∀ out, w.rewrite limit tree = .ok out → out.expr.depth ≤ limit) ∧
    (w.Endless tree → w.rewrite limit tree = .error (.nestingTooDeep limit)) ∧
    ∀ place, ReflTransGen (w.Visits limit) (1, tree) place → w.Endless place.2 →
      ∃ before refused after err last, w.places limit 1 tree = before ++ refused :: after ∧
        (∀ p ∈ before, w.refusalAt limit p = none) ∧
        last ∈ refused :: after ∧ ReflTransGen (w.Visits limit) place last ∧ limit < last.1 ∧
        w.rewrite limit tree = .error err ∧
        (err = .nestingTooDeep limit ∨ w.refusal? refused.2 = some err) := by
  intro w
  have hstart : 1 + limit = limit + 1 := Nat.add_comm 1 limit
  refine ⟨w.visits_wellFounded limit, ?_, ?_, ?_⟩
  · intro out hout
    exact Whitelist.depth_le_of_visit (w := w) hbinds (Whitelist.outcome_of_rewrite hout)
  · intro hendless
    obtain ⟨before, e', hplaces, hbefore⟩ := hendless.places_eq hstart
    have hlast : w.refusalAt limit (limit + 1, e') = some (.nestingTooDeep limit) :=
      if_pos (Nat.lt_succ_self limit)
    rw [rewrite_eq_error_iff, Whitelist.walk, Whitelist.failure?_visit hstart,
      List.findSome?_eq_some_iff]
    exact ⟨before, (limit + 1, e'), [], hplaces, hlast, hbefore⟩
  · intro place hplace hendless
    obtain ⟨budget, hbudget⟩ : ∃ budget, place.1 + budget = limit + 1 :=
      Nat.le.dest (Whitelist.depth_le_of_visits (Nat.le_add_left 1 limit) hplace)
    obtain ⟨before, e', hplaces, -⟩ := hendless.places_eq hbudget
    have hlast : ReflTransGen (w.Visits limit) place (limit + 1, e') := by
      rw [← Whitelist.mem_places_iff hbudget, hplaces]
      simp
    have hdeep : limit < limit + 1 := Nat.lt_succ_self limit
    obtain ⟨before, refused, after, err, hsplit, hbefore, hmem, herr⟩ :=
      Whitelist.refused_of_deep (hplace.trans hlast) hdeep
    exact ⟨before, refused, after, err, _, hsplit, hbefore, hmem, hlast, hdeep, herr⟩

/-- A function of a host that replaces a call by a larger call of itself. -/
def swelling : FunctionDescriptor where
  name := "swell"
  arity := .any
  rewrite := some { rewrite := fun f args => .ok (.call f (.call f args :: args)) }

/-- Whatever comes of a call of the function is a call of it. -/
theorem endless_swelling {w : Whitelist} (h : w.functions.find? "swell" = some swelling)
    (args : List Expr) : w.Endless (.call "swell" args) := by
  have hreplaces : ∀ args,
      w.Replaces (.call "swell" args) (.call "swell" (.call "swell" args :: args)) := by
    intro args
    have hcallee : w.callee "swell" args = .ok swelling := by
      rw [Whitelist.callee, h]
      rfl
    exact .call hcallee rfl rfl
  intro e' he'
  have hcall : ∃ args', e' = .call "swell" args' := by
    induction he' with
    | refl => exact ⟨args, rfl⟩
    | tail _ hnext ih =>
      obtain ⟨args', rfl⟩ := ih
      have hbelow := hnext.below_eq.2.symm.trans (hreplaces args').below_eq.2
      exact ⟨_, List.singleton_inj.1 hbelow⟩
  obtain ⟨args', rfl⟩ := hcall
  exact ⟨_, hreplaces args'⟩

/-- A call that swells is refused for its depth; a conditional that is let pass keeps within
the limit. -/
theorem rewrite_bounded_swelling :
    ∃ functions tree out, FunctionRegistry.build [.function swelling, .library] = .ok functions ∧
      Whitelist.rewrite ⟨⟨[.simple (anyKey "data")]⟩, functions⟩ 6 (.call "swell" [tree]) =
        .error (.nestingTooDeep 6) ∧
      Whitelist.rewrite ⟨⟨[.simple (anyKey "data")]⟩, functions⟩ 6 tree = .ok out ∧
      out.expr.depth ≤ 6 := by
  let tree : Expr :=
    .call "IF" [.compare .lt (.name "x") (.name "y"), .name "x", .call "abs" [.name "y"]]
  obtain ⟨functions, out, hbuild, hfind, hout⟩ : ∃ functions out,
      FunctionRegistry.build [.function swelling, .library] = .ok functions ∧
        functions.find? "swell" = some swelling ∧
        Whitelist.rewrite ⟨⟨[.simple (anyKey "data")]⟩, functions⟩ 6 tree = .ok out :=
    ⟨_, _, rfl, rfl, rfl⟩
  have hbinds := bindsOnly_anyKey "data"
  obtain ⟨-, -, hendless, -⟩ := rewrite_bounded hbinds functions 6 (.call "swell" [tree])
  obtain ⟨-, hdepth, -, -⟩ := rewrite_bounded hbinds functions 6 tree
  exact ⟨functions, tree, out, hbuild, hendless (endless_swelling hfind _), hout, hdepth out hout⟩

end Formulary
