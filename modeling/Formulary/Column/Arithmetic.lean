import Formulary.Column.Basic
import Formulary.Expr.Basic

/-!
# Column arithmetic

Two columns are brought to one length and one element type and then combined
cell by cell.  Words wrap around; a null in either cell gives a null.  Adding to
a text column joins texts; adding two boolean columns counts.

Main definitions:

- `ElementType.common?`: the type in which two element types meet.
- `Column.arith?`: one of the four operations on two columns.
-/

namespace Formulary

/-- The type in which the numbers of two element types meet. -/
def ElementType.commonNumber? : ElementType → ElementType → Option ElementType
  | .float, b => if b.isNumeric then some .float else none
  | a, .float => if a.isNumeric then some .float else none
  | .int, .int | .int, .count | .int, .int32 | .count, .int | .int32, .int => some .int
  | .count, .int32 | .int32, .count => some .int
  | .count, .count => some .count
  | .int32, .int32 => some .int32
  | .word, .word | .word, .count | .count, .word => some .word
  | .float32, .float32 => some .float32
  | a, b => if a.isNumeric && b.isNumeric then some .float else none

/-- The type in which two element types meet: null gives way to anything, and
booleans give way to numbers. -/
def ElementType.common? : ElementType → ElementType → Option ElementType
  | .list, _ => none
  | _, .list => none
  | .null, b => some b
  | a, .null => some a
  | .bool, .bool => some .bool
  | .text, .text => some .text
  | .bool, b => if b.isNumeric then some b else none
  | a, .bool => if a.isNumeric then some a else none
  | a, b => commonNumber? a b

namespace Cells

/-- The wrapping operations on signed words. -/
def wrapping : ArithOp → Int64 → Int64 → Int64
  | .add, x, y => x + y
  | .sub, x, y => x - y
  | .mul, x, y => x * y
  | .div, x, y => x / y

/-- The operations on floats. -/
def floating : ArithOp → Float → Float → Float
  | .add, x, y => x + y
  | .sub, x, y => x - y
  | .mul, x, y => x * y
  | .div, x, y => x / y

/-- The operation of a type with the four of them. -/
def operation {α : Type} [Add α] [Sub α] [Mul α] [Div α] : ArithOp → α → α → α
  | .add, x, y => x + y
  | .sub, x, y => x - y
  | .mul, x, y => x * y
  | .div, x, y => x / y

/-- Sum, difference or product of two columns of one length, in their common
type; none if there is none. -/
def combine? (op : ArithOp) (a b : Cells) : Option Cells :=
  if a.type = .text ∨ b.type = .text then
    if op = .add then do some (texts (lift (· ++ ·) (← a.texts?) (← b.texts?))) else none
  else
    match ElementType.common? a.type b.type with
    | some .int => do some (ints (lift (wrapping op) (← a.ints?) (← b.ints?)))
    | some .float => do some (floats (lift (floating op) (← a.floats?) (← b.floats?)))
    | some .bool =>
        if op = .add then do some (counts (lift (· + ·) (← a.counts?) (← b.counts?))) else none
    | some .null => some (nulls a.length)
    | some .count => do some (counts (lift (operation op) (← a.counts?) (← b.counts?)))
    | some .int32 => do some (int32s (lift (operation op) (← a.int32s?) (← b.int32s?)))
    | some .word => do some (words (lift (operation op) (← a.words?) (← b.words?)))
    | some .float32 => do some (float32s (lift (operation op) (← a.float32s?) (← b.float32s?)))
    | _ => none

/-- Quotient of two columns as floats.  A single divisor is inverted once and
multiplied, where the other column is longer or shorter. -/
def divide? (a b : Cells) : Option Cells := do
  let xs ← a.quotientOperand?
  let ys ← b.quotientOperand?
  if b.length = 1 ∧ a.length ≠ 1 then
    some (floats (lift (fun x y => x * (1.0 / y)) xs (stretchList xs.length ys)))
  else
    match (floats xs).aligned? (floats ys) with
    | some (floats xs, floats ys) => some (floats (lift (floating .div) xs ys))
    | _ => none

end Cells

namespace Column

/-- Joining texts and counting booleans take the name of the right column when a
single left cell is stretched over it. -/
def resultName (op : ArithOp) (a b : Column) : String :=
  let joins := a.type = .text ∨ b.type = .text
  let counts := ElementType.common? a.type b.type = some .bool
  if op = .add ∧ (joins ∨ counts) ∧ a.length = 1 ∧ b.length ≠ 1 then b.name else a.name

/-- One of the four operations on two columns; none if their types or lengths do
not fit. -/
def arith? (op : ArithOp) (a b : Column) : Option Column :=
  match op with
  | .div => (a.cells.divide? b.cells).map fun cells => ⟨a.name, cells⟩
  | _ => do
      let (x, y) ← a.cells.aligned? b.cells
      let cells ← Cells.combine? op x y
      some ⟨resultName op a b, cells⟩

end Column
end Formulary
