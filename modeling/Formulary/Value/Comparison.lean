import Formulary.Value.Arithmetic

/-!
# Comparison of values

Scalars of one kind are ordered; null comes before everything.  Equality is
defined for all values.  A comparison with a column acts cell by cell.
-/

namespace Formulary

/-- The order of two floats, none if one is undefined. -/
def orderFloats? (x y : Float) : Option Ordering :=
  if x < y then some .lt else if y < x then some .gt else if x == y then some .eq else none

namespace Value

/-- The order of two floats, or the error of an undefined one. -/
def compareFloats (x y : Float) : Except ValueError Ordering :=
  match orderFloats? x y with
  | some o => .ok o
  | none => .error .undefinedOrder

/-- The order of two scalars. -/
def compare : Value → Value → Except ValueError Ordering
  | null, null => .ok .eq
  | null, _ => .ok .lt
  | _, null => .ok .gt
  | bool a, bool b => .ok (orderBools a b)
  | int a, int b => .ok (orderInts a b)
  | float a, float b => compareFloats a b
  | text a, text b => .ok (orderTexts a b)
  | int a, float b => compareFloats (nearestFloat a) b
  | float a, int b => compareFloats a (nearestFloat b)
  | a, b => .error (.incomparable a.type b.type)

/-- A comparison of two values that are no columns. -/
def relateScalars (op : Comparison) (a b : Value) : Except ValueError Value :=
  match op with
  | .eq => .ok (bool (a.equals b))
  | .ne => .ok (bool (!a.equals b))
  | op => (compare a b).map fun o => bool (op.holds o)

/-- A comparison. -/
def relate (op : Comparison) (a b : Value) : Except ValueError Value :=
  match columnOperands? a b with
  | some operands => overColumns operands (Column.compare? op)
  | none => relateScalars op a b

end Value
end Formulary
