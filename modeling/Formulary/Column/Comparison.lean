import Formulary.Column.Arithmetic

/-!
# Column comparison

Two columns of one length are compared cell by cell in their common type.
Floats are ordered totally: the undefined value equals itself and is the
greatest.  Booleans compare with texts as texts.  A column of nulls gives nulls.
-/

namespace Formulary

/-- Whether an order relation holds. -/
def Comparison.holds : Comparison → Ordering → Bool
  | .eq, o => o == .eq
  | .ne, o => o != .eq
  | .lt, o => o == .lt
  | .le, o => o != .gt
  | .gt, o => o == .gt
  | .ge, o => o != .lt

/-- The order of two signed words. -/
def orderInts (x y : Int64) : Ordering :=
  if x < y then .lt else if y < x then .gt else .eq

/-- The total order of floats. -/
def orderFloats (x y : Float) : Ordering :=
  if x.isNaN then (if y.isNaN then .eq else .gt)
  else if y.isNaN then .lt
  else if x < y then .lt
  else if y < x then .gt
  else .eq

/-- The order of texts by code points. -/
def orderTexts (x y : String) : Ordering :=
  if x < y then .lt else if y < x then .gt else .eq

/-- False comes before true. -/
def orderBools (x y : Bool) : Ordering :=
  match x, y with
  | false, true => .lt
  | true, false => .gt
  | _, _ => .eq

namespace Cells

/-- The order of the cells of two columns of one length; none if their types
cannot be compared. -/
def order? (a b : Cells) : Option (List (Option Ordering)) :=
  match a.type, b.type with
  | .text, .bool | .bool, .text => do some (lift orderTexts (← a.texts?) (← b.texts?))
  | s, t =>
      match ElementType.common? s t with
      | some .int => do some (lift orderInts (← a.ints?) (← b.ints?))
      | some .float => do some (lift orderFloats (← a.floats?) (← b.floats?))
      | some .bool => do some (lift orderBools (← a.mask?) (← b.mask?))
      | some .text => do some (lift orderTexts (← a.texts?) (← b.texts?))
      | some .null => some (List.replicate a.length none)
      | some .count => do some (lift compare (← a.counts?) (← b.counts?))
      | some .int32 => do some (lift compare (← a.int32s?) (← b.int32s?))
      | some .word => do some (lift compare (← a.words?) (← b.words?))
      | some .float32 => do some (lift orderFloats (← a.floats?) (← b.floats?))
      | _ => none

/-- Which cells are null. -/
def isNull : Cells → List Bool
  | ints xs => xs.map Option.isNone
  | floats xs => xs.map Option.isNone
  | bools xs => xs.map Option.isNone
  | texts xs => xs.map Option.isNone
  | nulls n => List.replicate n true
  | counts xs => xs.map Option.isNone
  | int32s xs => xs.map Option.isNone
  | words xs => xs.map Option.isNone
  | float32s xs => xs.map Option.isNone
  | lists xs => xs.map Option.isNone

/-- Whether two columns hold the same cells; a null equals a null, and numbers
of different types may be equal. -/
def equals (a b : Cells) : Bool :=
  a.length == b.length && a.isNull == b.isNull &&
    match a, b with
    | lists xs, lists ys => xs == ys
    | _, _ =>
        match a.order? b with
        | some orders => orders.all fun o => o.all (· == .eq)
        | none => false

end Cells

namespace Column

/-- The truth of a comparison cell by cell; none if types or lengths do not fit. -/
def compare? (op : Comparison) (a b : Column) : Option Column := do
  let (x, y) ← a.cells.aligned? b.cells
  let orders ← x.order? y
  some ⟨a.name, .bools (Cells.change op.holds orders)⟩

end Column
end Formulary
