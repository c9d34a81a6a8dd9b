import Formulary.Expr.Basic
import Formulary.Function.Standard

/-!
# Functions of a whitelist

A whitelisted function has a name, an arity and at least one of two parts: an
implementation that is called with values, or a rewrite that replaces the call
by another formula before anything is computed.  The conditional `IF` is the
rewrite that every whitelist has.

Main definitions:

- `FunctionDescriptor`, with `FunctionDescriptor.validate`.
- `conditional`: the descriptor of `IF`.
-/

namespace Formulary

/-- Why a call is refused before anything is computed. -/
inductive ValidationError where
  | arity (function : String) (expected : Arity) (found : Nat)
  /-- The condition is no comparison, boolean chain or constant. -/
  | conditionKind (function : String) (found : String)
  /-- A rewrite has reasons of its own. -/
  | refused (function : String) (message : String)
  deriving DecidableEq

/-- The error in words. -/
def ValidationError.message : ValidationError → String
  | .arity f expected found =>
      f ++ "() expects " ++ expected.describe ++ ", got " ++ Text.integerText found
  | .conditionKind f found =>
      f ++ "() condition must be a comparison, boolean operation or literal, got " ++ found
  | .refused f message => f ++ "(): " ++ message

/-- Replaces a call by another formula.  Both parts get the name of the function
and its arguments. -/
structure CallRewrite where
  /-- Checks the arguments beyond their number. -/
  validate : String → List Expr → Except ValidationError Unit := fun _ _ => .ok ()
  /-- The formula in place of the call. -/
  rewrite : String → List Expr → Except ValidationError Expr

/-- A whitelisted function. -/
structure FunctionDescriptor where
  name : String
  arity : Arity
  implementation : Option HostFunction := none
  rewrite : Option CallRewrite := none

namespace FunctionDescriptor

/-- Checks the number of arguments, then what the rewrite has to say. -/
def validate (d : FunctionDescriptor) (args : List Expr) : Except ValidationError Unit :=
  if d.arity.accepts args.length then
    match d.rewrite with
    | some r => r.validate d.name args
    | none => .ok ()
  else .error (.arity d.name d.arity args.length)

/-- Whether a call of the function can come to a result. -/
def isCallable (d : FunctionDescriptor) : Bool :=
  d.implementation.isSome || d.rewrite.isSome

/-- The descriptor of a standard function. -/
def ofStandard (f : StandardFunction) : FunctionDescriptor :=
  { name := f.name, arity := f.arity, implementation := some f.call }

end FunctionDescriptor

/-- The name of the conditional. -/
def conditionalName : String := "IF"

/-- Accepts a condition that is one by construction. -/
def validateConditional (function : String) : List Expr → Except ValidationError Unit
  | condition :: _ =>
      if condition.isCondition then .ok () else .error (.conditionKind function condition.kind)
  | [] => .ok ()

/-- Replaces a call of three arguments by a conditional. -/
def rewriteConditional (function : String) : List Expr → Except ValidationError Expr
  | [c, t, e] => .ok (.conditional c t e)
  | args => .error (.arity function (.exactly 3) args.length)

/-- The descriptor of the conditional. -/
def conditional : FunctionDescriptor :=
  { name := conditionalName
    arity := .exactly 3
    rewrite := some ⟨validateConditional, rewriteConditional⟩ }

end Formulary
