import Formulary.Value.Elements

/-!
# Arithmetic of values

Numbers add, subtract, multiply and divide; texts and lists join.  As soon as one
operand is a column, the other one is repeated to its length and the operation
acts cell by cell.  Operations on words give the exact result or fail; those on columns
wrap around.

Main definitions:

- `arith`: sum, difference, product or quotient of two values.
- `neg`: negation.
-/

namespace Formulary
namespace Value

/-- The operands as columns if one of them is a column. -/
def columnOperands? (a b : Value) : Option (Except ValueError (Column × Column)) :=
  let operands (name : String) (length : Nat) : Except ValueError (Column × Column) :=
    match a.repeated name length with
    | .error e => .error e
    | .ok left =>
      match b.repeated name length with
      | .error e => .error e
      | .ok right => .ok (left, right)
  match a, b with
  | column c, _ => some (operands c.name c.length)
  | _, column c => some (operands c.name c.length)
  | _, _ => none

/-- Values that are no columns are not combined cell by cell. -/
theorem columnOperands?_eq_none {a b : Value} (ha : a.isColumn = false)
    (hb : b.isColumn = false) : columnOperands? a b = none := by
  unfold columnOperands?
  dsimp only
  split
  · cases ha
  · cases hb
  · rfl

/-- A column as a value, or the error of columns that do not fit. -/
def ofColumn? : Option Column → Except ValueError Value
  | some c => .ok (column c)
  | none => .error .columnMismatch

/-- Applies a column operation to two operands that have been made columns. -/
def overColumns (operands : Except ValueError (Column × Column))
    (f : Column → Column → Option Column) : Except ValueError Value :=
  operands.bind fun (left, right) => ofColumn? (f left right)

/-- The exact result as a word. -/
def exact (error : ValueError) (n : Int) : Except ValueError Value :=
  match word? n with
  | some w => .ok (int w)
  | none => .error error

/-- Sum of two values that are no columns. -/
def addScalars : Value → Value → Except ValueError Value
  | int x, int y => exact (.overflow .add) (x.toInt + y.toInt)
  | float x, float y => .ok (float (x + y))
  | int x, float y => .ok (float (nearestFloat x + y))
  | float x, int y => .ok (float (x + nearestFloat y))
  | text x, text y => .ok (text (x ++ y))
  | list x, list y => .ok (list (x ++ y))
  | a, b => .error (.inapplicable .add a.type b.type)

/-- Difference of two values that are no columns. -/
def subScalars : Value → Value → Except ValueError Value
  | int x, int y => exact (.overflow .sub) (x.toInt - y.toInt)
  | float x, float y => .ok (float (x - y))
  | int x, float y => .ok (float (nearestFloat x - y))
  | float x, int y => .ok (float (x - nearestFloat y))
  | a, b => .error (.inapplicable .sub a.type b.type)

/-- Product of two values that are no columns. -/
def mulScalars : Value → Value → Except ValueError Value
  | int x, int y => exact (.overflow .mul) (x.toInt * y.toInt)
  | float x, float y => .ok (float (x * y))
  | int x, float y => .ok (float (nearestFloat x * y))
  | float x, int y => .ok (float (x * nearestFloat y))
  | a, b => .error (.inapplicable .mul a.type b.type)

/-- Quotient of two values that are no columns; always a float.  The divisor is
looked at first. -/
def divScalars (a b : Value) : Except ValueError Value :=
  let refused : Except ValueError Value := .error (.inapplicable .div a.type b.type)
  match b.number? with
  | none => refused
  | some y =>
    if y == 0.0 then .error .divisionByZero
    else
      match a.number? with
      | some x => .ok (float (x / y))
      | none => refused

/-- An arithmetic operation on two values that are no columns. -/
def arithScalars : ArithOp → Value → Value → Except ValueError Value
  | .add => addScalars
  | .sub => subScalars
  | .mul => mulScalars
  | .div => divScalars

/-- An arithmetic operation. -/
def arith (op : ArithOp) (a b : Value) : Except ValueError Value :=
  match columnOperands? a b with
  | some operands => overColumns operands (Column.arith? op)
  | none => arithScalars op a b

/-- Sum of two values. -/
def add (a b : Value) : Except ValueError Value :=
  arith .add a b

/-- Arithmetic negation; a column is subtracted from zero. -/
def neg : Value → Except ValueError Value
  | int n => exact .negationOverflow (-n.toInt)
  | float x => .ok (float (-x))
  | column c => arith .sub (int 0) (column c)
  | v => .error (.notNegatable v.type)

end Value
end Formulary
