import Formulary.Decimal.Layout
import Formulary.Expr.Basic
import Formulary.Text.Integer
import Formulary.Text.Quoted

/-!
# Canonical text

The canonical text of a formula puts every arithmetic operation, comparison and
boolean chain in parentheses, writes text between double quotes and marks every
float by a point or an exponent.  A binding is written as a subscript of its
context value, and a conditional as `if … then … else … end`.
-/

namespace Formulary

/-- The canonical text of a constant. -/
def Literal.canonical : Literal → String
  | .int n => Text.integerText n.toInt
  | .float x => Decimal.Layout.canonical.render x
  | .text s => Text.quoted s
  | .bool b => if b then "true" else "false"
  | .null => "null"

/-- The canonical text of a subscript. -/
def Subscript.canonical : Subscript → String
  | .index i => Text.integerText i.toInt
  | .key k => Text.quoted k

/-- The canonical text of a binding. -/
def Binding.canonical (b : Binding) : String :=
  b.context ++ "[" ++ b.subscript.canonical ++ "]"

namespace Expr

mutual

/-- The canonical text of a formula. -/
def canonical : Expr → String
  | literal l => l.canonical
  | name n => n
  | attr base member => base ++ "." ++ member
  | call f args => f ++ "(" ++ canonicalJoin ", " args ++ ")"
  | negate e => "-" ++ canonical e
  | not e => "not " ++ canonical e
  | arith op l r => "(" ++ canonical l ++ " " ++ op.symbol ++ " " ++ canonical r ++ ")"
  | compare op l r => "(" ++ canonical l ++ " " ++ op.symbol ++ " " ++ canonical r ++ ")"
  | logic op operands => "(" ++ canonicalJoin (" " ++ op.symbol ++ " ") operands ++ ")"
  | conditional c t e =>
      "if " ++ canonical c ++ " then " ++ canonical t ++ " else " ++ canonical e ++ " end"
  | binding b => b.canonical

/-- The canonical texts of a list with a separator between them. -/
def canonicalJoin (separator : String) : List Expr → String
  | [] => ""
  | e :: es => canonical e ++ canonicalTail separator es

/-- The canonical texts of a list, each after a separator. -/
def canonicalTail (separator : String) : List Expr → String
  | [] => ""
  | e :: es => separator ++ canonical e ++ canonicalTail separator es

end

end Expr
end Formulary
