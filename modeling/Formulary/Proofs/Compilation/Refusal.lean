import Formulary.Proofs.Compilation.Meaning

/-!
# Why the compiler refuses a formula

The compiler makes five checks on each node that it comes by, from the root down and from
left to right, and stops at the first one that fails.  If the conditional is the only
function that rewrites, the nodes that it comes by are those of the formula, with one more
level where a conditional takes the place of an accepted call.

Main definitions:

- `Expr.descent`: the nodes that the compiler comes by, with their depths.
- `Whitelist.offences`: the checks that fail on a node, in the order in which they are made.

Main results:

- Theorem `Whitelist.failure_visit`: the walk fails with the first offence.
- Theorem `rewrite_refusal`: so does the compiler, and it succeeds if there is none.
-/

namespace Formulary

open Formulary.Expr

/-! ## The nodes on the way -/

namespace Expr

/-- The conditional in the place of a call, if the conditional accepts its arguments. -/
def accepted? (f : String) (args : List Expr) : Option Expr :=
  match args with
  | [c, t, e] =>
      if f = conditionalName ∧ c.isCondition = true then some (.conditional c t e) else none
  | _ => none

mutual

/-- The nodes of a tree and their depths, each one before those below it, and those from
left to right.  Below an accepted call of the conditional comes the conditional in its
place, and one level below that come the arguments. -/
def descent (depth : Nat) : Expr → List (Nat × Expr)
  | literal l => [(depth, literal l)]
  | name n => [(depth, name n)]
  | attr b m => [(depth, attr b m)]
  | binding b => [(depth, binding b)]
  | call f args =>
    match accepted? f args with
    | some c => (depth, call f args) :: (depth + 1, c) :: descentAll (depth + 2) args
    | none => (depth, call f args) :: descentAll (depth + 1) args
  | negate e => (depth, negate e) :: descent (depth + 1) e
  | not e => (depth, not e) :: descent (depth + 1) e
  | arith op l r => (depth, arith op l r) :: (descent (depth + 1) l ++ descent (depth + 1) r)
  | compare op l r => (depth, compare op l r) :: (descent (depth + 1) l ++ descent (depth + 1) r)
  | logic op operands => (depth, logic op operands) :: descentAll (depth + 1) operands
  | conditional c t e =>
      (depth, conditional c t e) ::
        (descent (depth + 1) c ++ (descent (depth + 1) t ++ descent (depth + 1) e))

/-- The nodes of trees at one depth, one tree after the other. -/
def descentAll (depth : Nat) : List Expr → List (Nat × Expr)
  | [] => []
  | e :: es => descent depth e ++ descentAll depth es

end

theorem descentAll_eq (depth : Nat) (es : List Expr) :
    descentAll depth es = es.flatMap (descent depth) := by
  induction es with
  | nil => rfl
  | cons e es ih => rw [descentAll, ih, List.flatMap_cons]

/-- What is no call is followed by what is below it. -/
theorem descent_of_children {e : Expr} (h : ∀ f args, e ≠ .call f args) (depth : Nat) :
    e.descent depth = (depth, e) :: e.children.flatMap (descent (depth + 1)) := by
  cases e with
  | call f args => exact absurd rfl (h f args)
  | _ => simp [descent, children, descentAll_eq]

/-- A call that is not replaced is followed by its arguments, one level down. -/
theorem descent_of_not_accepted {f : String} {args : List Expr} (h : accepted? f args = none)
    (depth : Nat) :
    (call f args).descent depth = (depth, call f args) :: args.flatMap (descent (depth + 1)) := by
  simp only [descent, h, descentAll_eq]

/-- An accepted call is followed by the conditional in its place and what is below that. -/
theorem descent_of_accepted {f : String} {args : List Expr} {c : Expr}
    (h : accepted? f args = some c) (depth : Nat) :
    (call f args).descent depth = (depth, call f args) :: c.descent (depth + 1) := by
  simp only [descent, h]
  unfold accepted? at h
  split at h
  · split at h
    · cases h
      simp [descent, descentAll]
    · cases h
  · cases h

/-- The nodes on the way through a tree begin with the tree. -/
theorem exists_descent_eq_cons (depth : Nat) (e : Expr) :
    ∃ places, e.descent depth = (depth, e) :: places := by
  cases e with
  | call f args =>
    cases haccepted : accepted? f args with
    | none => exact ⟨_, descent_of_not_accepted haccepted depth⟩
    | some c => exact ⟨_, descent_of_accepted haccepted depth⟩
  | _ => exact ⟨_, descent_of_children (by simp) depth⟩

end Expr

/-! ## Offences -/

namespace Whitelist

/-- The node lies too deep. -/
def tooDeep (limit depth : Nat) : List FormulaError :=
  if limit < depth then [.nestingTooDeep limit] else []

/-- The node is a call of a function that is not registered. -/
def unregistered (w : Whitelist) : Expr → List FormulaError
  | .call f _ =>
      if f ∈ w.functions.names then [] else [.unknownFunction f w.functions.names]
  | _ => []

/-- The node is a call with a number of arguments that the function does not take. -/
def miscounted (w : Whitelist) : Expr → List FormulaError
  | .call f args =>
    match w.functions.find? f with
    | some d =>
        if d.arity.accepts args.length then [] else [.call (.arity f d.arity args.length)]
    | none => []
  | _ => []

/-- The node is a call of the conditional whose first argument is no condition. -/
def unconditioned : Expr → List FormulaError
  | .call f (c :: _) =>
      if f = conditionalName ∧ c.isCondition = false then [.call (.conditionKind f c.kind)]
      else []
  | _ => []

/-- The node is a name or an attribute that no resolver accepts, or whose binder fails. -/
def unresolved (w : Whitelist) : Expr → List FormulaError
  | .name ident =>
    match w.resolvers.simple.find? fun r => r.accepts ident with
    | none => [.unknownVariable ident (w.resolvers.simple.map SimpleResolver.displayName)]
    | some r =>
      match r.bind ident with
      | .ok _ => []
      | .error err => [err]
  | .attr base member =>
    match w.resolvers.attributed.find? fun r => r.accepts base with
    | none =>
        [.unknownVariable (base ++ "." ++ member)
          (w.resolvers.attributed.map AttributedResolver.displayName)]
    | some _ => []
  | _ => []

/-- The checks that fail on a node at a depth, in the order in which they are made. -/
def offences (w : Whitelist) (limit depth : Nat) (node : Expr) : List FormulaError :=
  tooDeep limit depth ++ (w.unregistered node ++ (w.miscounted node ++
    (unconditioned node ++ w.unresolved node)))

/-- The first failed check on the first node on which one fails. -/
def firstOffence (w : Whitelist) (limit : Nat) (places : List (Nat × Expr)) :
    Option FormulaError :=
  places.findSome? fun place => (w.offences limit place.1 place.2).head?

end Whitelist

theorem findSome?_cons_eq_or {α β : Type} (f : α → Option β) (a : α) (as : List α) :
    (a :: as).findSome? f = (f a).or (as.findSome? f) := by
  rw [List.findSome?_cons]
  cases f a <;> rfl

/-- The first hit in a row of lists is found in the first list that has one. -/
theorem findSome?_flatMap {α β γ : Type} (f : β → Option γ) (g : α → List β) (as : List α) :
    (as.flatMap g).findSome? f = as.findSome? fun a => (g a).findSome? f := by
  induction as with
  | nil => rfl
  | cons a as ih =>
    rw [List.flatMap_cons, List.findSome?_append, ih, findSome?_cons_eq_or]

/-! ## Failures of walks -/

namespace Walk

variable {α β : Type}

/-- Why a walk fails, if it does. -/
def failure? (w : Walk α) : Option FormulaError :=
  match w.outcome with
  | .ok _ => none
  | .error err => some err

@[simp]
theorem failure?_pure (a : α) : (pure a : Walk α).failure? = none :=
  rfl

/-- Two walks fail as the first one does, or else as the second one does. -/
theorem failure?_bind {w : Walk α} {f : α → Walk β} {second : Option FormulaError}
    (h : ∀ a, (f a).failure? = second) : (w >>= f).failure? = w.failure?.or second := by
  rcases w with ⟨trail, outcome⟩
  cases outcome with
  | error err => rfl
  | ok a => exact h a

/-- A walk through a list fails as the first element does for which it fails. -/
theorem failure?_each (f : α → Walk β) (as : List α) :
    (Walk.each f as).failure? = as.findSome? fun a => (f a).failure? := by
  induction as with
  | nil => rfl
  | cons a as ih =>
    rw [findSome?_cons_eq_or, Walk.each]
    apply failure?_bind
    intro b
    rw [failure?_bind fun bs => failure?_pure (b :: bs), ih, Option.or_none]

/-- A walk without a failure succeeds. -/
theorem failure?_eq_none_iff {w : Walk α} : w.failure? = none ↔ ∃ a, w.outcome = .ok a := by
  rcases w with ⟨trail, outcome⟩
  cases outcome with
  | error err => simp [failure?]
  | ok a => simp [failure?]

/-- The failure of a walk is the error in which it ends. -/
theorem failure?_eq_some_iff {w : Walk α} {err : FormulaError} :
    w.failure? = some err ↔ w.outcome = .error err := by
  rcases w with ⟨trail, outcome⟩
  cases outcome with
  | error e => simp [failure?]
  | ok a => simp [failure?]

end Walk

namespace Whitelist

variable {w : Whitelist} {limit : Nat}

/-! ## The walk -/

/-- The node is neither a name nor an attribute nor a call. -/
def Inner : Expr → Prop
  | .name _ => False
  | .attr _ _ => False
  | .call _ _ => False
  | _ => True

/-- The walk through such a node fails as its children do. -/
theorem failure?_of_inner {e : Expr} (h : Inner e) (budget : Nat) :
    (w.visit limit (budget + 1) e).failure? =
      e.children.findSome? fun child => (w.visit limit budget child).failure? := by
  cases e with
  | name ident => exact h.elim
  | attr base member => exact h.elim
  | call f args => exact h.elim
  | literal l => rfl
  | binding b => rfl
  | negate e =>
    simp only [visit, children, findSome?_cons_eq_or]
    exact Walk.failure?_bind fun _ => rfl
  | not e =>
    simp only [visit, children, findSome?_cons_eq_or]
    exact Walk.failure?_bind fun _ => rfl
  | arith op l r =>
    simp only [visit, children, findSome?_cons_eq_or]
    exact Walk.failure?_bind fun _ => Walk.failure?_bind fun _ => rfl
  | compare op l r =>
    simp only [visit, children, findSome?_cons_eq_or]
    exact Walk.failure?_bind fun _ => Walk.failure?_bind fun _ => rfl
  | logic op operands =>
    have hall : (w.visit limit (budget + 1) (.logic op operands)).failure? =
        (Walk.each (w.visit limit budget) operands).failure?.or none :=
      Walk.failure?_bind fun _ => rfl
    rw [hall, Option.or_none, Walk.failure?_each, children]
  | conditional c t e =>
    simp only [visit, children, findSome?_cons_eq_or]
    exact Walk.failure?_bind fun _ => Walk.failure?_bind fun _ => Walk.failure?_bind fun _ => rfl

/-- Within the limit, such a node itself does not offend. -/
theorem offences_of_inner {e : Expr} (h : Inner e) {depth : Nat} (hdepth : depth ≤ limit) :
    w.offences limit depth e = [] := by
  have hlimit : ¬limit < depth := by omega
  cases e with
  | name ident => exact h.elim
  | attr base member => exact h.elim
  | call f args => exact h.elim
  | _ => simp [offences, tooDeep, hlimit, unregistered, miscounted, unconditioned, unresolved]

/-- The first offence is at the first place, or else behind it. -/
theorem firstOffence_cons (place : Nat × Expr) (places : List (Nat × Expr)) :
    w.firstOffence limit (place :: places) =
      (w.offences limit place.1 place.2).head?.or (w.firstOffence limit places) :=
  findSome?_cons_eq_or ..

theorem firstOffence_flatMap (es : List Expr) (depth : Nat) :
    w.firstOffence limit (es.flatMap (descent depth)) =
      es.findSome? fun e => w.firstOffence limit (e.descent depth) :=
  findSome?_flatMap ..

/-- If the root offends, nothing below it counts. -/
theorem firstOffence_of_root {e : Expr} {depth : Nat} {err : FormulaError}
    (h : (w.offences limit depth e).head? = some err) :
    w.firstOffence limit (e.descent depth) = some err := by
  rcases exists_descent_eq_cons depth e with ⟨places, hplaces⟩
  rw [hplaces, firstOffence_cons, h]
  rfl

/-- Binding a name fails exactly with what is unresolved about it. -/
theorem failure?_bindIdentifier (ident : String) :
    (w.bindIdentifier ident).failure? = (w.unresolved (.name ident)).head? := by
  simp only [bindIdentifier, unresolved, ResolverRegistry.findSimple?]
  cases w.resolvers.simple.find? fun r => r.accepts ident with
  | none => rfl
  | some r =>
    simp only [Walk.failure?]
    cases r.bind ident with
    | ok e => rfl
    | error err => rfl

theorem failure?_bindMember (base member : String) :
    (w.bindMember base member).failure? = (w.unresolved (.attr base member)).head? := by
  simp only [bindMember, unresolved, ResolverRegistry.findAttributed?]
  cases w.resolvers.attributed.find? fun r => r.accepts base with
  | none => rfl
  | some r => rfl

/-- The walk through a call that is not let pass fails with the reason. -/
theorem failure?_of_refused {f : String} {args : List Expr} {err : FormulaError}
    (h : w.callee f args = .error err) (budget : Nat) :
    (w.visit limit (budget + 1) (.call f args)).failure? = some err := by
  simp only [visit, h]
  rfl

/-- The walk through a call that is not rewritten fails as its arguments do. -/
theorem failure?_of_plain {f : String} {args : List Expr} {d : FunctionDescriptor}
    (h : w.callee f args = .ok d) (hplain : d.rewrite = none) (budget : Nat) :
    (w.visit limit (budget + 1) (.call f args)).failure? =
      args.findSome? fun arg => (w.visit limit budget arg).failure? := by
  simp only [visit, h, hplain]
  rw [← Walk.failure?_each, ← Option.or_none (o := (Walk.each _ args).failure?)]
  exact Walk.failure?_bind fun _ => rfl

/-- The walk through a call that is rewritten fails as what replaces it does. -/
theorem failure?_of_replaced {f : String} {args : List Expr} {d : FunctionDescriptor}
    {r : CallRewrite} {replacement : Expr} (h : w.callee f args = .ok d)
    (hrewrite : d.rewrite = some r) (hreplace : r.rewrite f args = .ok replacement)
    (budget : Nat) :
    (w.visit limit (budget + 1) (.call f args)).failure? =
      (w.visit limit budget replacement).failure? := by
  simp only [visit, h, hrewrite, hreplace]
  exact Walk.failure?_bind fun _ => rfl

section OnlyConditional

variable (hfunctions : RewritesOnlyConditional w.functions)
  (hnamed : ∀ f d, w.functions.find? f = some d → d.name = f)
include hfunctions

/-- A registered function either does not rewrite or is the conditional. -/
theorem plain_or_conditional {f : String} {d : FunctionDescriptor}
    (hfind : w.functions.find? f = some d) :
    (d.rewrite = none ∧ f ≠ conditionalName) ∨ (f = conditionalName ∧ d = conditional) := by
  by_cases hname : f = conditionalName
  · right
    subst hname
    rw [hfunctions.builtIn] at hfind
    exact ⟨rfl, (Option.some.inj hfind).symm⟩
  · left
    refine ⟨?_, hname⟩
    cases hrewrite : d.rewrite with
    | none => rfl
    | some r => exact absurd (hfunctions.only f d hfind (by rw [hrewrite]; rfl)) hname

include hnamed in
/-- Within the limit, the first check that fails on a call is the one that refuses it. -/
theorem head?_offences_of_call {depth : Nat} (hdepth : depth ≤ limit) (f : String)
    (args : List Expr) :
    (w.offences limit depth (.call f args)).head? =
      match w.callee f args with
      | .ok _ => none
      | .error err => some err := by
  have hlimit : ¬limit < depth := by omega
  have hoffences : w.offences limit depth (.call f args) = w.unregistered (.call f args) ++
      (w.miscounted (.call f args) ++ unconditioned (.call f args)) := by
    simp [offences, tooDeep, hlimit, unresolved]
  rw [hoffences]
  cases hfind : w.functions.find? f with
  | none =>
    have hunknown : f ∉ w.functions.names := by
      rw [FunctionRegistry.mem_names_iff, hfind]
      simp
    simp [unregistered, hunknown, callee, hfind]
  | some d =>
    have hknown : f ∈ w.functions.names := by
      rw [FunctionRegistry.mem_names_iff]
      exact ⟨d, hfind⟩
    by_cases hcount : d.arity.accepts args.length = true
    · rcases plain_or_conditional hfunctions hfind with ⟨hplain, hname⟩ | ⟨rfl, rfl⟩
      · have hcondition : unconditioned (.call f args) = [] := by
          cases args <;> simp [unconditioned, hname]
        simp [unregistered, hknown, miscounted, hcondition, callee, hfind,
          FunctionDescriptor.validate, hcount, hplain]
      · cases args with
        | nil => cases hcount
        | cons c rest =>
          rw [List.length_cons] at hcount
          have hname : conditional.name = conditionalName := rfl
          have hrewrite : conditional.rewrite = some ⟨validateConditional, rewriteConditional⟩ :=
            rfl
          cases hc : c.isCondition <;>
            simp [unregistered, hknown, miscounted, unconditioned, callee, hfind,
              FunctionDescriptor.validate, hcount, hname, hrewrite, validateConditional, hc]
    · simp [unregistered, hknown, miscounted, callee, hfind, FunctionDescriptor.validate, hcount,
        hnamed f d hfind]

include hnamed in
/-- The walk through a call fails with the first offence, if the walk through what is below it
does. -/
theorem failure?_of_call {budget depth : Nat} (hdepth : depth ≤ limit)
    (ih : ∀ e, (w.visit limit budget e).failure? =
      w.firstOffence limit (e.descent (depth + 1))) (f : String) (args : List Expr) :
    (w.visit limit (budget + 1) (.call f args)).failure? =
      w.firstOffence limit ((Expr.call f args).descent depth) := by
  have hfirst := head?_offences_of_call hfunctions hnamed hdepth f args
  cases hcallee : w.callee f args with
  | error err =>
    rw [hcallee] at hfirst
    rw [failure?_of_refused hcallee, firstOffence_of_root hfirst]
  | ok d =>
    rw [hcallee] at hfirst
    rcases callee_eq_ok hcallee with ⟨hfind, hvalid⟩
    rcases plain_or_conditional hfunctions hfind with ⟨hplain, hname⟩ | ⟨rfl, rfl⟩
    · have haccepted : accepted? f args = none := by
        unfold accepted?
        split <;> simp [hname]
      rw [failure?_of_plain hcallee hplain, descent_of_not_accepted haccepted, firstOffence_cons,
        hfirst, firstOffence_flatMap]
      simp only [ih]
      rfl
    · have hlength : args.length = 3 := by
        simpa [conditional, Arity.accepts] using accepts_of_validate hvalid
      obtain ⟨c, t, e, rfl⟩ : ∃ c t e, args = [c, t, e] := List.length_eq_three.1 hlength
      have hc : c.isCondition = true := by
        simpa [conditional, FunctionDescriptor.validate, validateConditional, Arity.accepts]
          using hvalid
      have haccepted : accepted? conditionalName [c, t, e] = some (.conditional c t e) := by
        simp [accepted?, hc]
      rw [failure?_of_replaced hcallee rfl rfl, descent_of_accepted haccepted, firstOffence_cons,
        hfirst, ih]
      rfl

include hnamed in
/-- The walk fails with the first failed check on the first node that offends, or does not
fail if none does.  The budget of levels is what is left of the limit at this depth. -/
theorem failure_visit {budget depth : Nat} (hdepth : depth + budget = limit + 1) (e : Expr) :
    (w.visit limit budget e).failure? = w.firstOffence limit (e.descent depth) := by
  -- on the budget: a replaced call is walked through again, so the tree does not get smaller
  induction budget generalizing depth e with
  | zero =>
    have hdeep : limit < depth := by omega
    rw [firstOffence_of_root]
    · rfl
    · simp [offences, tooDeep, hdeep]
  | succ budget ih =>
    have hwithin : depth ≤ limit := by omega
    have hlimit : ¬limit < depth := by omega
    have hbelow : ∀ e, (w.visit limit budget e).failure? =
        w.firstOffence limit (e.descent (depth + 1)) := fun e => ih (by omega) e
    have hinner : ∀ e, Inner e → (w.visit limit (budget + 1) e).failure? =
        w.firstOffence limit (e.descent depth) := by
      intro e he
      have hcall : ∀ f args, e ≠ .call f args := by
        rintro f args rfl
        exact he
      rw [failure?_of_inner he, descent_of_children hcall, firstOffence_cons,
        offences_of_inner he hwithin, firstOffence_flatMap]
      simp only [hbelow]
      rfl
    cases e with
    | name ident =>
      rw [visit, failure?_bindIdentifier, descent, firstOffence_cons]
      simp [offences, tooDeep, hlimit, unregistered, miscounted, unconditioned, firstOffence]
    | attr base member =>
      rw [visit, failure?_bindMember, descent, firstOffence_cons]
      simp [offences, tooDeep, hlimit, unregistered, miscounted, unconditioned, firstOffence]
    | call f args => exact failure?_of_call hfunctions hnamed hwithin hbelow f args
    | _ => exact hinner _ trivial

end OnlyConditional

end Whitelist

/-! ## Formulas -/

/-- Rewriting succeeds exactly if the walk does not fail. -/
theorem exists_rewrite_iff {w : Whitelist} {limit : Nat} {tree : Expr} :
    (∃ out, w.rewrite limit tree = .ok out) ↔ (w.walk limit tree).failure? = none := by
  rw [Walk.failure?_eq_none_iff]
  simp only [Whitelist.rewrite]
  cases (w.walk limit tree).outcome with
  | error err => simp [Except.map]
  | ok e => simp [Except.map]

/-- Rewriting fails exactly as the walk does. -/
theorem rewrite_eq_error_iff {w : Whitelist} {limit : Nat} {tree : Expr} {err : FormulaError} :
    w.rewrite limit tree = .error err ↔ (w.walk limit tree).failure? = some err := by
  rw [Walk.failure?_eq_some_iff]
  simp only [Whitelist.rewrite]
  cases (w.walk limit tree).outcome with
  | error e => simp [Except.map]
  | ok e => simp [Except.map]

/-- If the conditional is the only function that rewrites, a tree is rewritten exactly if no
node on the way offends; and if it is not, the error is that of the first node that offends,
and there that of the first check that fails.  The functions that are listed where a call is
not registered are the conditional and the registered ones, each where it was first
registered. -/
theorem rewrite_refusal {resolvers : ResolverRegistry} {registrations : List Registration}
    {functions : FunctionRegistry}
    (hbuild : FunctionRegistry.build registrations = .ok functions)
    (honly : ∀ f d, functions.find? f = some d → d.rewrite.isSome = true → f = conditionalName)
    (limit : Nat) (tree : Expr) :
    ((∃ out, Whitelist.rewrite ⟨resolvers, functions⟩ limit tree = .ok out) ↔
      ∀ place ∈ tree.descent 1,
        Whitelist.offences ⟨resolvers, functions⟩ limit place.1 place.2 = []) ∧
    (∀ err, Whitelist.rewrite ⟨resolvers, functions⟩ limit tree = .error err ↔
      ∃ before depth node after others, tree.descent 1 = before ++ (depth, node) :: after ∧
        (∀ place ∈ before,
          Whitelist.offences ⟨resolvers, functions⟩ limit place.1 place.2 = []) ∧
        Whitelist.offences ⟨resolvers, functions⟩ limit depth node = err :: others) ∧
    functions.names = (conditionalName ::
      (registrations.flatMap Registration.introduced).map FunctionDescriptor.name).eraseDups := by
  have hbuiltIn := FunctionRegistry.find?_conditionalName hbuild
  have hwalk : (Whitelist.walk ⟨resolvers, functions⟩ limit tree).failure? =
      Whitelist.firstOffence ⟨resolvers, functions⟩ limit (tree.descent 1) := by
    apply Whitelist.failure_visit ⟨hbuiltIn, honly⟩
    · intro f d hfind
      exact (FunctionRegistry.of_find? hbuild hfind).1
    · omega
  refine ⟨?_, fun err => ?_, FunctionRegistry.names_of_build hbuild⟩
  · rw [exists_rewrite_iff, hwalk, Whitelist.firstOffence, List.findSome?_eq_none_iff]
    simp
  · rw [rewrite_eq_error_iff, hwalk, Whitelist.firstOffence, List.findSome?_eq_some_iff]
    simp only [List.head?_eq_none_iff, List.head?_eq_some_iff]
    constructor
    · rintro ⟨before, ⟨depth, node⟩, after, hsplit, ⟨others, hoffences⟩, hbefore⟩
      exact ⟨before, depth, node, after, others, hsplit, hbefore, hoffences⟩
    · rintro ⟨before, depth, node, after, others, hsplit, hbefore, hoffences⟩
      exact ⟨before, (depth, node), after, hsplit, ⟨others, hoffences⟩, hbefore⟩

/-- A formula whose condition reaches one level too deep under a limit of three, and under a
limit of four has an attribute that no resolver accepts. -/
theorem rewrite_refusal_conditional :
    ∃ functions tree, FunctionRegistry.build [.library] = .ok functions ∧
      Expr.parse "IF(x > 1, config.a, sum(x))" = .ok tree ∧
      Whitelist.rewrite ⟨⟨[.simple (anyKey "data")]⟩, functions⟩ 3 tree =
        .error (.nestingTooDeep 3) ∧
      Whitelist.rewrite ⟨⟨[.simple (anyKey "data")]⟩, functions⟩ 4 tree =
        .error (.unknownVariable "config.a" []) := by
  let resolvers : ResolverRegistry := ⟨[.simple (anyKey "data")]⟩
  let comparison : Expr := .compare .gt (.name "x") (.literal (.int 1))
  let member : Expr := .attr "config" "a"
  let total : Expr := .call "sum" [.name "x"]
  let call : Expr := .call "IF" [comparison, member, total]
  let upper : List (Nat × Expr) :=
    [(1, call), (2, .conditional comparison member total), (3, comparison)]
  let lower : List (Nat × Expr) := [(4, .name "x"), (4, .literal (.int 1))]
  obtain ⟨functions, hbuild, hthree, hfour, hdeep, hmember⟩ :
      ∃ functions, FunctionRegistry.build [.library] = .ok functions ∧
        (upper.flatMap fun p => Whitelist.offences ⟨resolvers, functions⟩ 3 p.1 p.2) = [] ∧
        ((upper ++ lower).flatMap fun p =>
          Whitelist.offences ⟨resolvers, functions⟩ 4 p.1 p.2) = [] ∧
        Whitelist.offences ⟨resolvers, functions⟩ 3 4 (.name "x") = [.nestingTooDeep 3] ∧
        Whitelist.offences ⟨resolvers, functions⟩ 4 3 member = [.unknownVariable "config.a" []] :=
    ⟨_, rfl, rfl, rfl, rfl, rfl⟩
  have honly : ∀ f d, functions.find? f = some d → d.rewrite.isSome = true →
      f = conditionalName := by
    intro f d
    exact FunctionRegistry.eq_conditionalName_of_rewrite hbuild (by simp)
  refine ⟨functions, call, hbuild, rfl, ?_, ?_⟩
  · apply ((rewrite_refusal hbuild honly 3 call).2.1 _).2
    exact ⟨upper, 4, .name "x",
      [(4, .literal (.int 1)), (3, member), (3, total), (4, .name "x")], [], rfl,
      List.flatMap_eq_nil_iff.1 hthree, hdeep⟩
  · apply ((rewrite_refusal hbuild honly 4 call).2.1 _).2
    exact ⟨upper ++ lower, 3, member, [(3, total), (4, .name "x")], [], rfl,
      List.flatMap_eq_nil_iff.1 hfour, hmember⟩

end Formulary
