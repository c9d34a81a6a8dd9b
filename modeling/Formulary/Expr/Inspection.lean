import Formulary.Decimal.Layout
import Formulary.Expr.Document
import Formulary.Text.Diagnostic
import Formulary.Text.Integer

/-!
# Inspecting formulas

The inspection text of a thing names its type and shows all its parts: fields
between braces, items between brackets, and the single part of a choice between
parentheses.  Texts inside it are quoted as in diagnostic texts.

Main definitions:

- `Expr.inspect`: the inspection text of a formula.
-/

namespace Formulary
namespace Text

/-- A type name with named parts. -/
def inspectFields (name : String) (fields : List (String × String)) : String :=
  name ++ " \x7b " ++ ", ".intercalate (fields.map fun (field, text) => field ++ ": " ++ text) ++
    " \x7d"

/-- The name of a choice with its single part. -/
def inspectChoice (name part : String) : String :=
  name ++ "(" ++ part ++ ")"

/-- Items between brackets. -/
def inspectItems (items : List String) : String :=
  "[" ++ ", ".intercalate items ++ "]"

/-- Quoted texts between braces. -/
def inspectSet (texts : List String) : String :=
  "\x7b" ++ ", ".intercalate (texts.map diagnostic) ++ "\x7d"

/-- A truth value. -/
def inspectBool (b : Bool) : String :=
  if b then "true" else "false"

end Text

open Text

/-- The inspection text of a constant. -/
def Literal.inspect : Literal → String
  | .int n => inspectChoice "Int" (integerText n.toInt)
  | .float x => inspectChoice "Float" (Decimal.Layout.canonical.render x)
  | .text s => inspectChoice "String" (diagnostic s)
  | .bool b => inspectChoice "Bool" (inspectBool b)
  | .null => "Null"

/-- The inspection text of a subscript. -/
def Subscript.inspect : Subscript → String
  | .index i => inspectChoice "Index" (integerText i.toInt)
  | .key k => inspectChoice "Key" (diagnostic k)

/-- The inspection text of a binding. -/
def Binding.inspect (b : Binding) : String :=
  inspectFields "Binding" [("context", diagnostic b.context), ("key", b.subscript.inspect)]

namespace Expr

mutual

/-- The inspection text of a formula. -/
def inspect : Expr → String
  | literal l => inspectChoice "Literal" l.inspect
  | name n => inspectChoice "Name" (diagnostic n)
  | attr base member =>
      inspectFields "Attribute" [("base", diagnostic base), ("attr", diagnostic member)]
  | call f args =>
      inspectFields "FunctionCall"
        [("name", diagnostic f), ("args", inspectItems (inspectAll args))]
  | negate e => inspectFields "UnaryOp" [("op", "Neg"), ("expr", inspect e)]
  | not e => inspectFields "UnaryOp" [("op", "Not"), ("expr", inspect e)]
  | arith op l r =>
      inspectFields "BinaryOp" [("left", inspect l), ("op", op.label), ("right", inspect r)]
  | compare op l r =>
      inspectFields "Compare" [("left", inspect l), ("op", op.label), ("right", inspect r)]
  | logic op operands =>
      inspectFields "BoolOp"
        [("op", op.label), ("operands", inspectItems (inspectAll operands))]
  | conditional c t e =>
      inspectFields "Conditional"
        [("condition", inspect c), ("then_branch", inspect t), ("else_branch", inspect e)]
  | binding b => inspectChoice "Binding" b.inspect

/-- The inspection texts of some formulas. -/
def inspectAll : List Expr → List String
  | [] => []
  | e :: es => inspect e :: inspectAll es

end

end Expr
end Formulary
