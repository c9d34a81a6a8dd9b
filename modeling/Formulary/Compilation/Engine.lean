import Formulary.Compilation.Compiled
import Formulary.Compilation.Options
import Formulary.Expr.Parser

/-!
# Engines

An engine knows which variables and functions formulas may use.  It compiles the
text of a formula: it parses it, rewrites the tree, and settles which context keys
the result demands.

Main definitions:

- `Engine.build`, `Engine.compileFormula` and `Engine.compile`.
- `Engine.buildRecords` and `Engine.compileRecords`: what there is to report.
-/

namespace Formulary

/-- What compiles formulas. -/
structure Engine where
  whitelist : Whitelist
  options : EngineOptions
  deriving Inhabited

namespace Engine

/-- An engine from what is registered, in order. -/
def build (options : EngineOptions) (resolvers : List Resolver)
    (registrations : List Registration) : Except FormulaError Engine :=
  match FunctionRegistry.build registrations with
  | .ok functions => .ok ⟨⟨⟨resolvers⟩, functions⟩, options⟩
  | .error e => .error (.registry e)

/-- The registered variables. -/
def resolvers (e : Engine) : ResolverRegistry :=
  e.whitelist.resolvers

/-- The registered functions. -/
def functions (e : Engine) : FunctionRegistry :=
  e.whitelist.functions

/-- The context keys that a rewritten formula demands. -/
def required (e : Engine) (rewritten : Rewritten) : List String :=
  match e.options.requirement with
  | .matched => rewritten.touched
  | .registered => e.resolvers.contextKeys

/-- Compiles a formula that has been parsed. -/
def compileTree (e : Engine) (source : String) (tree : Expr) :
    Except FormulaError CompiledFormula :=
  match e.whitelist.rewrite e.options.maxDepth tree with
  | .ok rewritten => .ok ⟨source, rewritten.expr, e.required rewritten⟩
  | .error err => .error err

/-- Compiles the text of a formula. -/
def compileFormula (e : Engine) (source : String) : Except FormulaError CompiledFormula :=
  match Expr.parse source with
  | .ok tree => e.compileTree source tree
  | .error err => .error (.malformed err)

/-- The canonical text of the compiled formula. -/
def test (e : Engine) (source : String) : Except FormulaError String :=
  (e.compileFormula source).map CompiledFormula.canonical

/-- Compiles the text of a formula and binds the functions that it calls. -/
def compile (e : Engine) (source : String) : Except FormulaError Evaluator :=
  (e.compileFormula source).map fun c => c.evaluator e.functions

/-- Compiles and evaluates at once. -/
def evaluate (e : Engine) (source : String) (context : Context) : Except FormulaError Value :=
  match e.compile source with
  | .ok evaluator => evaluator.call context
  | .error err => .error err

/-! ## Reports -/

/-- What there is to report when an engine is made. -/
def buildRecords (resolvers : List Resolver) (registrations : List Registration) :
    List LogRecord :=
  let draft := RegistryDraft.ofRegistrations registrations
  let registered := draft.replaced.map fun name =>
    ⟨.warn, .functions,
      "Function '" ++ name ++ "' registered twice, keeping the latest definition"⟩
  match draft.finish with
  | .error _ => registered
  | .ok functions =>
      registered ++ (ResolverRegistry.mk resolvers).records ++
        [⟨.debug, .engine,
          "Engine built with " ++ Text.integerText resolvers.length ++
            " resolvers and functions [" ++ ", ".intercalate functions.names ++ "]"⟩]

/-- What there is to report when a formula is compiled. -/
def compileRecords (e : Engine) (source : String) : List LogRecord :=
  match Expr.parse source with
  | .error _ => []
  | .ok tree =>
    let parsed : LogRecord := ⟨.debug, .engine, "Parsed expression: " ++ tree.canonical⟩
    let trail := (e.whitelist.walk e.options.maxDepth tree).trail
    let compiled : List LogRecord := match e.compileTree source tree with
      | .error _ => []
      | .ok c =>
          [⟨.debug, .engine,
            "Compiled '" ++ source ++ "' requiring [" ++ ", ".intercalate c.required ++ "]"⟩]
    parsed :: trail.map RewriteEvent.logged ++ compiled

end Engine
end Formulary
