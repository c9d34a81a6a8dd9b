import Formulary.Decimal.Layout
import Formulary.Decimal.Reading
import Formulary.Text.Integer

/-!
# Columns

A column is a named list of cells of one element type; any cell may be null.
Formulas compute with words, floats, booleans and texts.  The other element
types only come in from outside, save for the unsigned counts that adding
booleans makes.

Columns of integers of 8 and of 16 bits, signed or not, and columns of dates have no
element type here.  Reading one of them is left out, and so is computing with it.

Main definitions:

- `Cells` and `Column`: the cells by element type, and a name for them.
- `Cells.ints?` and its like: the cells as those of another type.
- `Cells.aligned?`: two columns of one length, the shorter one stretched.
-/

namespace Formulary

/-- The element types of columns. -/
inductive ElementType where
  | int | float | bool | text | null | count | int32 | word | float32 | list
  deriving DecidableEq, Inhabited

/-- Name of an element type in messages. -/
def ElementType.label : ElementType → String
  | .int => "i64"
  | .float => "f64"
  | .bool => "bool"
  | .text => "str"
  | .null => "null"
  | .count => "u32"
  | .int32 => "i32"
  | .word => "u64"
  | .float32 => "f32"
  | .list => "list[i64]"

/-- Whether the elements are numbers. -/
def ElementType.isNumeric : ElementType → Bool
  | .int | .float | .count | .int32 | .word | .float32 => true
  | .bool | .text | .null | .list => false

/-- The cells of a column. -/
inductive Cells where
  | ints (cells : List (Option Int64))
  | floats (cells : List (Option Float))
  | bools (cells : List (Option Bool))
  | texts (cells : List (Option String))
  | nulls (length : Nat)
  | counts (cells : List (Option UInt32))
  | int32s (cells : List (Option Int32))
  | words (cells : List (Option UInt64))
  | float32s (cells : List (Option Float32))
  | lists (cells : List (Option (List (Option Int64))))
  deriving Inhabited

/-- Cells with a name. -/
structure Column where
  name : String
  cells : Cells
  deriving Inhabited

namespace Cells

/-- The element type. -/
def type : Cells → ElementType
  | ints _ => .int
  | floats _ => .float
  | bools _ => .bool
  | texts _ => .text
  | nulls _ => .null
  | counts _ => .count
  | int32s _ => .int32
  | words _ => .word
  | float32s _ => .float32
  | lists _ => .list

/-- Number of cells. -/
def length : Cells → Nat
  | ints xs => xs.length
  | floats xs => xs.length
  | bools xs => xs.length
  | texts xs => xs.length
  | nulls n => n
  | counts xs => xs.length
  | int32s xs => xs.length
  | words xs => xs.length
  | float32s xs => xs.length
  | lists xs => xs.length

/-- A single cell repeated `n` times; other lists are left alone. -/
def stretchList {α : Type} (n : Nat) : List α → List α
  | [x] => List.replicate n x
  | xs => xs

/-- A single cell repeated `n` times; other columns are left alone. -/
def stretch (n : Nat) : Cells → Cells
  | ints xs => ints (stretchList n xs)
  | floats xs => floats (stretchList n xs)
  | bools xs => bools (stretchList n xs)
  | texts xs => texts (stretchList n xs)
  | nulls m => nulls (if m = 1 then n else m)
  | counts xs => counts (stretchList n xs)
  | int32s xs => int32s (stretchList n xs)
  | words xs => words (stretchList n xs)
  | float32s xs => float32s (stretchList n xs)
  | lists xs => lists (stretchList n xs)

/-- Two columns of one length: a column of one cell is stretched to the length
of the other; none if the lengths do not fit. -/
def aligned? (a b : Cells) : Option (Cells × Cells) :=
  if a.length = b.length then some (a, b)
  else if a.length = 1 then some (a.stretch b.length, b)
  else if b.length = 1 then some (a, b.stretch a.length)
  else none

/-- Applies `f` to each pair of cells; a null in either gives a null. -/
def lift {α β γ : Type} (f : α → β → γ) (xs : List (Option α)) (ys : List (Option β)) :
    List (Option γ) :=
  List.zipWith (fun x y => x.bind fun a => y.map fun b => f a b) xs ys

/-- Changes each cell that is not null. -/
def change {α β : Type} (f : α → β) (xs : List (Option α)) : List (Option β) :=
  xs.map (Option.map f)

/-! ## Cells of another type -/

/-- The integer of a truth value. -/
def bit (b : Bool) : Int :=
  if b then 1 else 0

/-- The cells as signed words, where that loses nothing. -/
def ints? : Cells → Option (List (Option Int64))
  | ints xs => some xs
  | bools xs => some (change (fun b => Int64.ofInt (bit b)) xs)
  | nulls n => some (List.replicate n none)
  | counts xs => some (change (fun c => Int64.ofNat c.toNat) xs)
  | int32s xs => some (change (fun i => i.toInt64) xs)
  | _ => none

/-- A short float as a float. -/
def wideFloat (x : Float32) : Float :=
  .ofModel <| .pack <|
    match x.toModel.unpack with
    | .finite s m e _ => .round .binary64 s m e
    | special => special

/-- The cells as floats, where they are numbers, booleans or null. -/
def floats? : Cells → Option (List (Option Float))
  | ints xs => some (change nearestFloat xs)
  | floats xs => some xs
  | bools xs => some (change (fun b => if b then 1.0 else 0.0) xs)
  | nulls n => some (List.replicate n none)
  | counts xs => some (change (fun c => nearestFloat (Int64.ofNat c.toNat)) xs)
  | int32s xs => some (change (fun i => nearestFloat i.toInt64) xs)
  | words xs => some (change UInt64.toFloat xs)
  | float32s xs => some (change wideFloat xs)
  | texts _ => none
  | lists _ => none

/-- The cells as unsigned counts. -/
def counts? : Cells → Option (List (Option UInt32))
  | bools xs => some (change (fun b => if b then 1 else 0) xs)
  | nulls n => some (List.replicate n none)
  | counts xs => some xs
  | _ => none

/-- The cells as unsigned words. -/
def words? : Cells → Option (List (Option UInt64))
  | bools xs => some (change (fun b => if b then 1 else 0) xs)
  | nulls n => some (List.replicate n none)
  | counts xs => some (change UInt32.toUInt64 xs)
  | words xs => some xs
  | _ => none

/-- The cells as short signed words. -/
def int32s? : Cells → Option (List (Option Int32))
  | bools xs => some (change (fun b => if b then 1 else 0) xs)
  | nulls n => some (List.replicate n none)
  | int32s xs => some xs
  | _ => none

/-- The cells as short floats. -/
def float32s? : Cells → Option (List (Option Float32))
  | bools xs => some (change (fun b => if b then 1.0 else 0.0) xs)
  | nulls n => some (List.replicate n none)
  | float32s xs => some xs
  | _ => none

/-- The text of a truth value. -/
def boolText (b : Bool) : String :=
  if b then "true" else "false"

/-- The cells as text; lists have no text. -/
def texts? : Cells → Option (List (Option String))
  | ints xs => some (change (fun i => Text.integerText i.toInt) xs)
  | floats xs => some (change Decimal.Layout.cell.render xs)
  | bools xs => some (change boolText xs)
  | texts xs => some xs
  | nulls n => some (List.replicate n none)
  | counts xs => some (change (fun c => Text.integerText c.toNat) xs)
  | int32s xs => some (change (fun i => Text.integerText i.toInt) xs)
  | words xs => some (change (fun w => Text.integerText w.toNat) xs)
  | float32s xs => some (change (fun x => Decimal.Layout.cell.render (wideFloat x)) xs)
  | lists _ => none

/-- The cells as lists. -/
def lists? : Cells → Option (List (Option (List (Option Int64))))
  | nulls n => some (List.replicate n none)
  | lists xs => some xs
  | _ => none

/-- The cells as numbers for a division.  A text is read as a number, and one
that is no number becomes null. -/
def quotientOperand? : Cells → Option (List (Option Float))
  | texts xs => some (xs.map fun x => x.bind fun s => Decimal.readFloat? s.toList)
  | c => c.floats?

/-- The cells as truth values: a number is true unless it is zero.  Text has no
truth value, so that only an empty text column has a mask. -/
def mask? : Cells → Option (List (Option Bool))
  | ints xs => some (change (fun i => i != 0) xs)
  | floats xs => some (change (fun x => x != 0.0) xs)
  | bools xs => some xs
  | texts xs => if xs.isEmpty then some [] else none
  | nulls n => some (List.replicate n none)
  | counts xs => some (change (fun c => c != 0) xs)
  | int32s xs => some (change (fun i => i != 0) xs)
  | words xs => some (change (fun w => w != 0) xs)
  | float32s xs => some (change (fun x => x != 0.0) xs)
  | lists _ => none

/-! ## Lemmas -/

/-- Combined cells are as many as the shorter column has. -/
@[simp]
theorem length_lift {α β γ : Type} (f : α → β → γ) (xs : List (Option α))
    (ys : List (Option β)) : (lift f xs ys).length = min xs.length ys.length := by
  simp [lift]

/-- The cell at a position of a lifted operation. -/
theorem getElem?_lift {α β γ : Type} (f : α → β → γ) (xs : List (Option α))
    (ys : List (Option β)) (i : Nat) :
    (lift f xs ys)[i]? =
      (xs[i]?).bind fun x => (ys[i]?).map fun y => x.bind fun a => y.map fun b => f a b := by
  unfold lift
  rw [List.getElem?_zipWith]
  cases xs[i]? <;> cases ys[i]? <;> rfl

@[simp]
theorem length_change {α β : Type} (f : α → β) (xs : List (Option α)) :
    (change f xs).length = xs.length := by
  simp [change]

/-- Columns of one length are aligned as they are. -/
theorem aligned?_of_length_eq {a b : Cells} (h : a.length = b.length) :
    a.aligned? b = some (a, b) := by
  simp [aligned?, h]

end Cells

namespace Column

/-- Number of cells. -/
def length (c : Column) : Nat :=
  c.cells.length

/-- The element type. -/
def type (c : Column) : ElementType :=
  c.cells.type

end Column
end Formulary
