import Formulary.Compilation.Engine
import Formulary.Expr.Inspection

/-!
# Inspecting engines

Inspection texts of engines, their registries and options, of compiled formulas and
of evaluators.
-/

namespace Formulary

open Text

/-- The inspection text of an arity. -/
def Arity.inspect : Arity → String
  | .any => "Any"
  | .exactly n => inspectChoice "Exact" (integerText n)
  | .atLeast n => inspectChoice "AtLeast" (integerText n)
  | .between least greatest =>
      inspectChoice "Range" (integerText least ++ ", " ++ integerText greatest)

/-- The inspection text of a function: which parts it has. -/
def FunctionDescriptor.inspect (d : FunctionDescriptor) : String :=
  inspectFields "FunctionDescriptor"
    [("name", diagnostic d.name), ("arity", d.arity.inspect),
      ("implementation", inspectBool d.implementation.isSome),
      ("rewrite", inspectBool d.rewrite.isSome)]

/-- The inspection text of a registry of functions: their names. -/
def FunctionRegistry.inspect (r : FunctionRegistry) : String :=
  inspectFields "FunctionRegistry" [("functions", inspectItems r.names)]

/-- The inspection text of a resolver: what it reads. -/
def Resolver.inspect (r : Resolver) : String :=
  let kind := match r with
    | .simple _ => "Simple"
    | .attributed _ => "Attributed"
  kind ++ "(" ++ r.displayName ++ " -> " ++ r.contextKey ++ ")"

/-- The inspection text of a pattern variable. -/
def PatternVariable.inspect (v : PatternVariable) : String :=
  inspectFields "PatternVariable"
    [("display_name", diagnostic v.displayName), ("pattern", diagnostic v.pattern.source),
      ("context_key", diagnostic v.contextKey)]

/-- The inspection text of an attribute variable. -/
def AttributeVariable.inspect (v : AttributeVariable) : String :=
  inspectFields "AttributeVariable"
    [("name", diagnostic v.name), ("context_key", diagnostic v.contextKey)]

/-- The inspection text of a registry of variables: their names. -/
def ResolverRegistry.inspect (r : ResolverRegistry) : String :=
  inspectFields "ResolverRegistry"
    [("simple", inspectItems (r.simpleNames.map diagnostic)),
      ("attributed", inspectItems (r.attributedNames.map diagnostic))]

/-- The inspection text of a requirement. -/
def ContextRequirement.inspect : ContextRequirement → String
  | .matched => "Matched"
  | .registered => "Registered"

/-- The inspection text of the options of an engine. -/
def EngineOptions.inspect (o : EngineOptions) : String :=
  inspectFields "EngineOptions"
    [("context_requirement", o.requirement.inspect), ("max_depth", integerText o.maxDepth)]

/-- The inspection text of an engine. -/
def Engine.inspect (e : Engine) : String :=
  inspectFields "Engine"
    [("resolvers", e.resolvers.inspect), ("functions", e.functions.inspect),
      ("options", e.options.inspect)]

/-- The inspection text of a compiled formula. -/
def CompiledFormula.inspect (c : CompiledFormula) : String :=
  inspectFields "CompiledExpression"
    [("source", diagnostic c.source), ("expr", c.expr.inspect),
      ("required_context", inspectSet c.required)]

/-- The inspection text of an evaluator. -/
def Evaluator.inspect (e : Evaluator) : String :=
  inspectFields "Evaluator"
    [("expression", diagnostic e.compiled.canonical),
      ("required_context", inspectSet e.compiled.required),
      ("functions", inspectItems (e.boundFunctions.map diagnostic))]

end Formulary
