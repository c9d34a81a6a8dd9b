import Formulary.Compilation.Rewriting
import Formulary.Evaluation.Scope
import Formulary.Expr.Canonical

/-!
# Compiled formulas

A compiled formula is a rewritten tree with the context keys that it demands.  An
evaluator adds the functions that the tree calls, and can be called with any number
of contexts.

Main definitions:

- `CompiledFormula`, with `CompiledFormula.missingKeys`.
- `Evaluator`, with `Evaluator.call`.
-/

namespace Formulary

/-- A rewritten formula with what it demands. -/
structure CompiledFormula where
  /-- The text it was compiled from. -/
  source : String
  expr : Expr
  /-- The context keys without which it has no value, in order. -/
  required : List String

/-- A compiled formula with the functions that it calls. -/
structure Evaluator where
  compiled : CompiledFormula
  functions : Table HostFunction

namespace CompiledFormula

/-- The canonical text of the rewritten tree. -/
def canonical (c : CompiledFormula) : String :=
  c.expr.canonical

/-- The required keys that a context does not have, in order. -/
def missingKeys (c : CompiledFormula) (context : Context) : List String :=
  c.required.filter fun key => !context.contains key

/-- An evaluator with the registered functions that the tree calls, and with some
more functions of the host.  One of those takes the place of a registered function
of the same name. -/
def evaluatorWith (c : CompiledFormula) (functions : FunctionRegistry)
    (extra : List (String × HostFunction)) : Evaluator :=
  let called := fun (f : String × HostFunction) => c.expr.calls f.1
  ⟨c, Table.ofList (functions.implementations.filter called ++ extra.filter called)⟩

/-- An evaluator with the registered functions that the tree calls. -/
def evaluator (c : CompiledFormula) (functions : FunctionRegistry) : Evaluator :=
  c.evaluatorWith functions []

end CompiledFormula

namespace Evaluator

/-- The names of the functions that the tree calls. -/
def boundFunctions (e : Evaluator) : List String :=
  e.functions.keys

/-- The value of the formula in a context.  Missing keys are found before anything is
computed. -/
def call (e : Evaluator) (context : Context) : Except FormulaError Value :=
  match e.compiled.missingKeys context with
  | [] => Scope.evaluate ⟨context, e.functions⟩ e.compiled.expr
  | missing => .error (.missingContext missing)

/-- What there is to report about a call. -/
def records (e : Evaluator) (context : Context) : List LogRecord :=
  match e.compiled.missingKeys context with
  | [] => [⟨.debug, .evaluation, "Evaluating " ++ e.compiled.canonical⟩]
  | _ => []

end Evaluator
end Formulary
