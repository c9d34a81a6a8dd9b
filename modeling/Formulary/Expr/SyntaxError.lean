import Formulary.Text.Integer

/-!
# Syntax errors

Why a text is no formula.  Positions count the bytes of the text without the
white space around it.
-/

namespace Formulary

/-- Why a text is no formula. -/
inductive SyntaxError where
  /-- Nothing but white space. -/
  | emptyInput
  /-- A complete formula, with something after it. -/
  | unexpectedToken (found : String) (position : Nat)
  /-- A text without its closing quote. -/
  | unterminatedText (position : Nat)
  /-- Groups, calls, `not` or minus signs nested past the limit. -/
  | nestingTooDeep (limit : Nat) (position : Nat)
  /-- No formula starts here; `found` is none at the end of the text. -/
  | missingExpression (found : Option String) (position : Nat)
  deriving DecidableEq

namespace SyntaxError

/-- Where the text stops being a formula, absent for an empty one. -/
def position : SyntaxError → Option Nat
  | emptyInput => none
  | unexpectedToken _ p => some p
  | unterminatedText p => some p
  | nestingTooDeep _ p => some p
  | missingExpression _ p => some p

/-- The error in words. -/
def message : SyntaxError → String
  | emptyInput => "Empty input"
  | unexpectedToken found p =>
      "Unexpected token '" ++ found ++ "' at position " ++ Text.integerText p
  | unterminatedText p =>
      "Unterminated string literal starting at position " ++ Text.integerText p
  | nestingTooDeep limit p =>
      "Nesting deeper than " ++ Text.integerText limit ++ " levels at position " ++
        Text.integerText p
  | missingExpression found p =>
      "Invalid syntax at position " ++ Text.integerText p ++ ": " ++
        match found with
        | none => "unexpected end of input"
        | some token => "expected an expression before '" ++ token ++ "'"

end SyntaxError
end Formulary
