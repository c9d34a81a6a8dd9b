import Formulary.Column.Logic
import Formulary.Value.Comparison

/-!
# Logic of values

Scalars combine by their truth.  Columns combine as masks, cell by cell.  A
selection with a column as condition takes each cell from one of two branches;
any other condition takes a whole branch.
-/

namespace Formulary

/-- A connective on two truth values. -/
def Connective.apply : Connective → Bool → Bool → Bool
  | .and, a, b => a && b
  | .or, a, b => a || b

namespace Value

/-- A connective on two values. -/
def connect (op : Connective) (a b : Value) : Except ValueError Value :=
  match columnOperands? a b with
  | some operands => overColumns operands (Column.connect? op)
  | none => .ok (bool (op.apply a.isTruthy b.isTruthy))

/-- Logical negation. -/
def not : Value → Except ValueError Value
  | column c => ofColumn? c.not?
  | v => .ok (bool (!v.isTruthy))

/-- Takes each cell from one of two branches by the truth of a column. -/
def selectCells (c : Column) (thenValue elseValue : Value) : Except ValueError Value :=
  match c.cells.mask? with
  | none => .error .columnMismatch
  | some mask =>
    match thenValue.repeated c.name c.length with
    | .error e => .error e
    | .ok left =>
      match elseValue.repeated c.name c.length with
      | .error e => .error e
      | .ok right => ofColumn? (Column.select? mask left right)

/-- Takes one of two branches by the truth of a condition. -/
def select (condition thenValue elseValue : Value) : Except ValueError Value :=
  match condition with
  | column c => selectCells c thenValue elseValue
  | v => .ok (if v.isTruthy then thenValue else elseValue)

end Value
end Formulary
