import Formulary.Expr.SyntaxError
import Formulary.Function.Registry
import Formulary.Pattern.Matching
import Formulary.Text.Integer

/-!
# Failures of formulas

Why an engine cannot be made, why it refuses a formula, and why a formula that it
accepts has no value.

Main definitions:

- `FormulaError`, with `FormulaError.message`.
-/

namespace Formulary

/-- Why a text cannot serve as the pattern of a variable. -/
inductive PatternFault where
  | malformed (cause : PatternError)
  /-- An index is read off a group, and there is none. -/
  | noGroup
  deriving DecidableEq

/-- The cause in words. -/
def PatternFault.message : PatternFault → String
  | .malformed cause => cause.message
  | .noGroup => "index binding needs a capture group"

/-- Why an identifier cannot be bound. -/
inductive BindingFault where
  | noMatch (pattern : String)
  | noIndex (digits : String) (cause : Text.IntegerError)
  /-- A binder has reasons of its own. -/
  | refused (message : String)
  deriving DecidableEq

/-- The cause in words. -/
def BindingFault.message : BindingFault → String
  | .noMatch pattern => "does not match " ++ pattern
  | .noIndex digits cause => "'" ++ digits ++ "' is not an index: " ++ cause.message
  | .refused message => message

/-- Why there is no engine, no compiled formula or no value. -/
inductive FormulaError where
  /-- The text is no formula. -/
  | malformed (cause : SyntaxError)
  | unknownVariable (name : String) (supported : List String)
  | unknownFunction (name : String) (possible : List String)
  /-- A call has arguments that the function does not take. -/
  | call (cause : ValidationError)
  | missingContext (keys : List String)
  | nestingTooDeep (limit : Nat)
  | pattern (source : String) (cause : PatternFault)
  | binding (name : String) (cause : BindingFault)
  | registry (cause : RegistryError)
  /-- A call has no implementation. -/
  | unboundFunction (name : String)
  /-- An implementation fails. -/
  | host (cause : CallFailure)
  /-- A value operation fails. -/
  | evaluation (cause : ValueError)

/-- The failure in words. -/
def FormulaError.message : FormulaError → String
  | .malformed cause => "Syntax error: " ++ cause.message
  | .unknownVariable name supported =>
      "'" ++ name ++ "' is not an available variable name, supported names [" ++
        ", ".intercalate supported ++ "]"
  | .unknownFunction name possible =>
      "Forbidden function call " ++ name ++ ", possible functions [" ++
        ", ".intercalate possible ++ "]"
  | .call cause => cause.message
  | .missingContext keys =>
      "Awaited context wasn't provided [" ++ ", ".intercalate keys ++ "]"
  | .nestingTooDeep limit =>
      "Expression nesting exceeds the limit of " ++ Text.integerText limit
  | .pattern source cause => "Invalid variable pattern '" ++ source ++ "': " ++ cause.message
  | .binding name cause => "Cannot bind variable '" ++ name ++ "': " ++ cause.message
  | .registry cause => cause.message
  | .unboundFunction name => "No implementation bound for function " ++ name
  | .host cause => cause.message
  | .evaluation cause => cause.message

end Formulary
