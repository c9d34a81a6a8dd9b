import Formulary.Variable.Registry

/-!
# Rewriting formulas

Compilation walks a formula from the root down and from left to right.  It puts a
binding in the place of each name and attribute, checks each call against the
registered functions, and replaces the calls of functions that rewrite.  What takes
the place of such a call is walked in its turn, one level deeper, so the depth limit
also bounds rewrites that never come to an end.

Main definitions:

- `Walk`: a result with the trail of what happened on the way.
- `Whitelist.rewrite`: the rewritten formula and the context keys it reads.

Main results:

- Theorem `Walk.outcome_bind`: the outcome of a walk in two parts.
-/

namespace Formulary

/-! ## Walks -/

/-- What happens on a walk. -/
inductive RewriteEvent where
  | identifier (ident : String) (resolver : SimpleResolver)
  | attr (base member : String) (resolver : AttributedResolver)
  | call (function : String)

namespace RewriteEvent

/-- The context key that the event touches. -/
def contextKey? : RewriteEvent → Option String
  | identifier _ r => some r.contextKey
  | attr _ _ r => some r.contextKey
  | call _ => none

/-- The event as a log record. -/
def logged : RewriteEvent → LogRecord
  | identifier ident r =>
      ⟨.trace, .rewriting,
        "Identifier '" ++ ident ++ "' matched resolver '" ++ r.displayName ++ "'"⟩
  | attr base member r =>
      ⟨.trace, .rewriting,
        "Attribute '" ++ base ++ "." ++ member ++ "' matched resolver '" ++ r.displayName ++ "'"⟩
  | call f => ⟨.debug, .rewriting, "Rewriting call to " ++ f⟩

end RewriteEvent

/-- An outcome with the events on the way to it, the first one first. -/
structure Walk (α : Type) where
  trail : List RewriteEvent
  outcome : Except FormulaError α

namespace Walk

variable {α β : Type}

/-- A walk without events. -/
def done (a : α) : Walk α :=
  ⟨[], .ok a⟩

/-- A walk that fails at once. -/
def fail (e : FormulaError) : Walk α :=
  ⟨[], .error e⟩

/-- A walk of one event. -/
def event (e : RewriteEvent) : Walk Unit :=
  ⟨[e], .ok ()⟩

/-- One walk after the other; the second one is not begun if the first one fails. -/
def andThen (w : Walk α) (f : α → Walk β) : Walk β :=
  match w.outcome with
  | .ok a => ⟨w.trail ++ (f a).trail, (f a).outcome⟩
  | .error e => ⟨w.trail, .error e⟩

instance : Monad Walk where
  pure := done
  bind := andThen

/-- Walks through a list from left to right. -/
def each (f : α → Walk β) : List α → Walk (List β)
  | [] => done []
  | a :: rest => do
      let b ← f a
      let bs ← each f rest
      return b :: bs

/-- The outcome of a walk in two parts. -/
@[simp]
theorem outcome_bind (w : Walk α) (f : α → Walk β) :
    (w >>= f).outcome = w.outcome >>= fun a => (f a).outcome := by
  obtain ⟨trail, outcome⟩ := w
  cases outcome <;> rfl

/-- A walk that does nothing succeeds. -/
@[simp]
theorem outcome_pure (a : α) : (pure a : Walk α).outcome = .ok a :=
  rfl

end Walk

/-! ## The walk through a formula -/

/-- What a formula may name and call. -/
structure Whitelist where
  resolvers : ResolverRegistry
  functions : FunctionRegistry
  deriving Inhabited

/-- A rewritten formula with the context keys that it was bound to, in the order in
which they were first touched. -/
structure Rewritten where
  expr : Expr
  touched : List String

namespace Whitelist

/-- Puts a binding in the place of an identifier. -/
def bindIdentifier (w : Whitelist) (ident : String) : Walk Expr :=
  match w.resolvers.findSimple? ident with
  | none => .fail (.unknownVariable ident w.resolvers.simpleNames)
  | some r => ⟨[.identifier ident r], r.bind ident⟩

/-- Puts a binding in the place of an attribute. -/
def bindMember (w : Whitelist) (base member : String) : Walk Expr :=
  match w.resolvers.findAttributed? base with
  | none => .fail (.unknownVariable (base ++ "." ++ member) w.resolvers.attributedNames)
  | some r => ⟨[.attr base member r], .ok (r.bind base member)⟩

/-- The function of a call, checked against its arguments. -/
def callee (w : Whitelist) (function : String) (args : List Expr) :
    Except FormulaError FunctionDescriptor :=
  match w.functions.find? function with
  | none => .error (.unknownFunction function w.functions.names)
  | some d =>
    match d.validate args with
    | .ok () => .ok d
    | .error e => .error (.call e)

/-- Walks through a formula with a budget of levels left of the limit. -/
def visit (w : Whitelist) (limit : Nat) : Nat → Expr → Walk Expr
  | 0, _ => .fail (.nestingTooDeep limit)
  | budget + 1, e =>
    match e with
    | .literal l => pure (.literal l)
    | .binding b => pure (.binding b)
    | .name ident => w.bindIdentifier ident
    | .attr base member => w.bindMember base member
    | .negate e => return .negate (← visit w limit budget e)
    | .not e => return .not (← visit w limit budget e)
    | .arith op l r => do
        let l ← visit w limit budget l
        let r ← visit w limit budget r
        return .arith op l r
    | .compare op l r => do
        let l ← visit w limit budget l
        let r ← visit w limit budget r
        return .compare op l r
    | .logic op operands => return .logic op (← Walk.each (visit w limit budget) operands)
    | .conditional c t e => do
        let c ← visit w limit budget c
        let t ← visit w limit budget t
        let e ← visit w limit budget e
        return .conditional c t e
    | .call f args =>
      match w.callee f args with
      | .error e => .fail e
      | .ok d =>
        match d.rewrite with
        | none => return .call f (← Walk.each (visit w limit budget) args)
        | some r => do
            Walk.event (.call f)
            match r.rewrite f args with
            | .ok replacement => visit w limit budget replacement
            | .error e => Walk.fail (.call e)

/-- The context keys of a trail, without repetition. -/
def touchedKeys (trail : List RewriteEvent) : List String :=
  distinctNames (trail.filterMap RewriteEvent.contextKey?)

/-- The walk through a formula whose nodes lie at most `limit` levels deep. -/
def walk (w : Whitelist) (limit : Nat) (e : Expr) : Walk Expr :=
  w.visit limit limit e

/-- Rewrites a formula whose nodes lie at most `limit` levels deep. -/
def rewrite (w : Whitelist) (limit : Nat) (e : Expr) : Except FormulaError Rewritten :=
  let walked := w.walk limit e
  walked.outcome.map fun expr => ⟨expr, touchedKeys walked.trail⟩

end Whitelist
end Formulary
