import Formulary.Document.Basic
import Formulary.Expr.Basic

/-!
# Formulas as documents

A formula becomes an object with one field: the kind of its node over the parts
of the node.  Parts keep a fixed order.
-/

namespace Formulary

/-- An object with one field. -/
private def tagged (tag : String) (d : Document) : Document :=
  .object [(tag, d)]

/-- The document of a constant.  Infinities and the undefined value become null. -/
def Literal.document : Literal → Document
  | .int n => tagged "Int" (.int n)
  | .float x => tagged "Float" ((Document.float? x).getD .null)
  | .text s => tagged "String" (.text s)
  | .bool b => tagged "Bool" (.bool b)
  | .null => .text "Null"

/-- Name of the operator in documents. -/
def ArithOp.label : ArithOp → String
  | .add => "Add"
  | .sub => "Sub"
  | .mul => "Mul"
  | .div => "Div"

/-- Name of the operator in documents. -/
def Comparison.label : Comparison → String
  | .eq => "Eq"
  | .ne => "Ne"
  | .lt => "Lt"
  | .le => "Le"
  | .gt => "Gt"
  | .ge => "Ge"

/-- Name of the connective in documents. -/
def Connective.label : Connective → String
  | .and => "And"
  | .or => "Or"

/-- The document of a subscript. -/
def Subscript.document : Subscript → Document
  | .index i => tagged "Index" (.int i)
  | .key k => tagged "Key" (.text k)

/-- The document of a binding. -/
def Binding.document (b : Binding) : Document :=
  .object [("context", .text b.context), ("key", b.subscript.document)]

namespace Expr

mutual

/-- The document of a formula. -/
def document : Expr → Document
  | literal l => tagged "Literal" l.document
  | name n => tagged "Name" (.text n)
  | attr base member =>
      tagged "Attribute" (.object [("base", .text base), ("attr", .text member)])
  | call f args =>
      tagged "FunctionCall" (.object [("name", .text f), ("args", .list (documents args))])
  | negate e => tagged "UnaryOp" (.object [("op", .text "Neg"), ("expr", document e)])
  | not e => tagged "UnaryOp" (.object [("op", .text "Not"), ("expr", document e)])
  | arith op l r =>
      tagged "BinaryOp"
        (.object [("left", document l), ("op", .text op.label), ("right", document r)])
  | compare op l r =>
      tagged "Compare"
        (.object [("left", document l), ("op", .text op.label), ("right", document r)])
  | logic op operands =>
      tagged "BoolOp" (.object [("op", .text op.label), ("operands", .list (documents operands))])
  | conditional c t e =>
      tagged "Conditional"
        (.object [("condition", document c), ("then_branch", document t),
          ("else_branch", document e)])
  | binding b => tagged "Binding" b.document

/-- The documents of a list of formulas. -/
def documents : List Expr → List Document
  | [] => []
  | e :: es => document e :: documents es

end

end Expr
end Formulary
