import Formulary.Column.Comparison
import Formulary.Table

/-!
# Values

A formula computes with constants, lists, maps, columns and frames.  The entries
of a map are sorted by key; a frame is a list of columns of one length with distinct
names.  The type alone does not ask for this.  What is made of a document or read as a
frame is well-formed in this sense, and a formula makes well-formed values of
well-formed ones.

Main definitions:

- `Value` and `ValueType`.
- `Value.equals`: equality, under which a word equals the float it converts to.
- `Value.isTruthy`: the truth of a value as a condition.
-/

namespace Formulary

/-- What a formula reads and computes. -/
inductive Value where
  | null
  | bool (value : Bool)
  | int (value : Int64)
  | float (value : Float)
  | text (value : String)
  | list (items : List Value)
  | map (entries : List (String × Value))
  | column (value : Column)
  | frame (columns : List Column)
  deriving Inhabited

/-- The types of values. -/
inductive ValueType where
  | null | bool | int | float | text | list | map | column | frame
  deriving DecidableEq

/-- Name of a type in messages. -/
def ValueType.label : ValueType → String
  | .null => "null"
  | .bool => "boolean"
  | .int => "integer"
  | .float => "float"
  | .text => "string"
  | .list => "array"
  | .map => "object"
  | .column => "series"
  | .frame => "dataframe"

/-- Number of rows of a frame. -/
def frameHeight : List Column → Nat
  | [] => 0
  | c :: _ => c.length

namespace Value

/-- The type of a value. -/
def type : Value → ValueType
  | null => .null
  | bool _ => .bool
  | int _ => .int
  | float _ => .float
  | text _ => .text
  | list _ => .list
  | map _ => .map
  | column _ => .column
  | frame _ => .frame

/-- Whether the value is null. -/
def isNull : Value → Bool
  | null => true
  | _ => false

/-- Whether the value is a column. -/
def isColumn : Value → Bool
  | column _ => true
  | _ => false

/-- The map of some entries; the last one of a key stays. -/
def ofEntries (entries : List (String × Value)) : Value :=
  map (sortEntries entries)

/-- Number of elements: characters, items, entries, cells or rows. -/
def elementCount? : Value → Option Nat
  | text s => some s.length
  | list items => some items.length
  | map entries => some entries.length
  | column c => some c.length
  | frame columns => some (frameHeight columns)
  | null | bool _ | int _ | float _ => none

/-- The truth of a value: null, false, zero, the undefined float and whatever has
no elements are false. -/
def isTruthy : Value → Bool
  | null => false
  | bool b => b
  | int i => i != 0
  | float x => x != 0.0 && !x.isNaN
  | v => v.elementCount?.any (0 < ·)

mutual

/-- Whether two values are equal.  A word equals the float it converts to; in
columns nulls are equal and names do not count. -/
def equals : Value → Value → Bool
  | null, null => true
  | bool a, bool b => a == b
  | int a, int b => a == b
  | float a, float b => a == b
  | int a, float b => nearestFloat a == b
  | float a, int b => nearestFloat b == a
  | text a, text b => a == b
  | list a, list b => equalItems a b
  | map a, map b => equalEntries a b
  | column a, column b => a.cells.equals b.cells
  | frame a, frame b =>
      frameHeight a == frameHeight b && a.length == b.length &&
        (a.zip b).all fun (x, y) => x.name == y.name && x.cells.equals y.cells
  | _, _ => false

/-- Whether two lists hold equal values. -/
def equalItems : List Value → List Value → Bool
  | [], [] => true
  | a :: as, b :: bs => equals a b && equalItems as bs
  | _, _ => false

/-- Whether two sorted lists of entries hold equal values under the same keys. -/
def equalEntries : List (String × Value) → List (String × Value) → Bool
  | [], [] => true
  | (k, a) :: as, (l, b) :: bs => k == l && equals a b && equalEntries as bs
  | _, _ => false

end

end Value
end Formulary
