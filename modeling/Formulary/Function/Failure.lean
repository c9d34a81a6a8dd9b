import Formulary.Function.Arity
import Formulary.Value.Error

/-!
# Failures of calls

Why a function has no result for its arguments.  A host function may also fail
with words of its own.
-/

namespace Formulary

/-- Why a call fails. -/
inductive CallFailure where
  /-- A value operation inside the function fails. -/
  | value (error : ValueError)
  | arity (function : String) (expected : Arity) (found : Nat)
  | notNumeric (function : String) (found : ValueType)
  | notSequence (function : String) (found : ValueType)
  | notNumericColumn (function : String) (found : ElementType)
  | notNumericElement (function : String) (found : ValueType)
  | noLength (found : ValueType)
  | absoluteOverflow
  | digitsOutOfRange
  | digitsNotInteger (found : ValueType)
  | notRoundable (value : Float)
  /-- A host function fails. -/
  | host (message : String)

/-- The failure in words. -/
def CallFailure.message : CallFailure → String
  | .value e => e.message
  | .arity f expected found =>
      operationMessage (f ++ "() expects " ++ expected.describe ++ ", got " ++
        Text.integerText found)
  | .notNumeric f t =>
      operationMessage (f ++ "() requires numeric argument, got " ++ t.label)
  | .notSequence f t =>
      operationMessage (f ++ "() requires a list or column, got " ++ t.label)
  | .notNumericColumn f t =>
      operationMessage (f ++ "() requires a numeric column, got " ++ t.label)
  | .notNumericElement f t =>
      operationMessage (f ++ "() requires numeric elements, got " ++ t.label)
  | .noLength t => operationMessage ("len() is not defined for " ++ t.label)
  | .absoluteOverflow => operationMessage "abs() integer overflow"
  | .digitsOutOfRange => operationMessage "round() digits out of range"
  | .digitsNotInteger t => operationMessage ("round() digits must be an integer, got " ++ t.label)
  | .notRoundable x =>
      operationMessage ("round() cannot convert " ++ Decimal.Layout.plain.render x ++
        " to an integer")
  | .host message => message

/-- A function that is called with the values of its arguments. -/
abbrev HostFunction := List Value → Except CallFailure Value

/-- The result of a value operation as the result of a call. -/
def ofValueResult {α : Type} (r : Except ValueError α) : Except CallFailure α :=
  r.mapError CallFailure.value

end Formulary
