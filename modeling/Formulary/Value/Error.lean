import Formulary.Value.Basic

/-!
# Errors of value operations

Why an operation has no value for its operands.
-/

namespace Formulary

/-- Why an operation on values fails. -/
inductive ValueError where
  /-- The exact result of an arithmetic operation is no word. -/
  | overflow (op : ArithOp)
  /-- The negation of a word is no word. -/
  | negationOverflow
  | divisionByZero
  /-- The operator is not defined for these types. -/
  | inapplicable (op : ArithOp) (left right : ValueType)
  | notNegatable (operand : ValueType)
  /-- The two types have no common order. -/
  | incomparable (left right : ValueType)
  /-- One of the two numbers is the undefined float. -/
  | undefinedOrder
  /-- The value cannot be repeated into a column. -/
  | notRepeatable (operand : ValueType)
  /-- The types or lengths of two columns do not fit. -/
  | columnMismatch
  | notIndexable (operand : ValueType)
  | noField (key : String) (operand : ValueType)
  /-- The float is no number of a document. -/
  | notDocument (value : Float)
  /-- A column cannot hold both types. -/
  | mixedColumn (first other : ValueType)
  /-- A column cannot hold the type. -/
  | noColumn (first : ValueType)

/-- The operation as a noun. -/
def ArithOp.noun : ArithOp → String
  | .add => "addition"
  | .sub => "subtraction"
  | .mul => "multiplication"
  | .div => "division"

/-- The words that introduce a failed operation. -/
def operationMessage (detail : String) : String :=
  "Operation error: " ++ detail

/-- The error in words. -/
def ValueError.message : ValueError → String
  | .overflow op => operationMessage ("Integer overflow in " ++ op.noun)
  | .negationOverflow => operationMessage "Integer overflow in negation"
  | .divisionByZero => operationMessage "Division by zero"
  | .inapplicable op l r =>
      "Type error: cannot apply '" ++ op.symbol ++ "' to " ++ l.label ++ " and " ++ r.label
  | .notNegatable t => operationMessage ("Cannot negate " ++ t.label)
  | .incomparable l r =>
      operationMessage ("Cannot compare values of types " ++ l.label ++ " and " ++ r.label)
  | .undefinedOrder => operationMessage "Cannot compare NaN values"
  | .notRepeatable t => operationMessage ("Cannot combine " ++ t.label ++ " with a column")
  | .columnMismatch => operationMessage "Column operation failed"
  | .notIndexable t => operationMessage ("Cannot index into " ++ t.label)
  | .noField key t =>
      operationMessage ("Cannot access field '" ++ key ++ "' on " ++ t.label)
  | .notDocument x =>
      operationMessage (Decimal.Layout.plain.render x ++ " has no JSON representation")
  | .mixedColumn first other =>
      operationMessage ("Cannot build a column from mixed " ++ first.label ++ " and " ++
        other.label ++ " values")
  | .noColumn first => operationMessage ("Cannot build a column from " ++ first.label ++ " values")

end Formulary
