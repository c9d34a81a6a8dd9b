import Formulary.Value.Error

/-!
# Elements

Lists and columns are subscripted by position, from the end when the position is
negative; maps and frames by key.  A position of a map is looked up by its
decimal text, and a position of a frame selects a column.  Whatever is not there
is null.

Main definitions:

- `Value.index` and `Value.field`: the two subscripts.
- `Column.values`: the cells of a column as values.
- `Column.ofValues`: the column of a list of values.
-/

namespace Formulary

/-- The place of a signed position among `length` elements. -/
def position? (i : Int64) (length : Nat) : Option Nat :=
  (word? length).bind fun n =>
    let resolved := if i < 0 then n + i else i
    if 0 ≤ resolved ∧ resolved < n then some resolved.toInt.toNat else none

/-- The text of a word or null in a nested list. -/
def nestedText : Option Int64 → String
  | some n => Text.integerText n.toInt
  | none => "null"

/-- The text of a nested list; one of more than three items shows the first two
and the last. -/
def nestedListText : List (Option Int64) → String
  | a :: b :: c :: d :: rest =>
      "[" ++ nestedText a ++ ", " ++ nestedText b ++ ", … " ++
        nestedText ((d :: rest).getLastD c) ++ "]"
  | xs => "[" ++ ", ".intercalate (xs.map nestedText) ++ "]"

namespace Cells

/-- The cells as values; a null cell is null. -/
def ofCells {α : Type} (f : α → Value) (xs : List (Option α)) : List Value :=
  xs.map fun
    | some a => f a
    | none => .null

/-- The value of an unsigned word: itself, or the float nearest to it. -/
def wordValue (w : UInt64) : Value :=
  match word? w.toNat with
  | some n => .int n
  | none => .float w.toFloat

/-- The cells as values. -/
def values : Cells → List Value
  | ints xs => ofCells .int xs
  | floats xs => ofCells .float xs
  | bools xs => ofCells .bool xs
  | texts xs => ofCells .text xs
  | nulls n => List.replicate n .null
  | counts xs => ofCells (fun c => .int (Int64.ofNat c.toNat)) xs
  | int32s xs => ofCells (fun i => .int i.toInt64) xs
  | words xs => ofCells wordValue xs
  | float32s xs => ofCells (fun x => .float (wideFloat x)) xs
  | lists xs => ofCells (fun items => .text (nestedListText items)) xs

@[simp]
theorem length_values (c : Cells) : c.values.length = c.length := by
  cases c <;> simp [values, length, ofCells]

end Cells

namespace Column

/-- The cells as values. -/
def values (c : Column) : List Value :=
  c.cells.values

/-- The cell at a place, null if there is none. -/
def cell (c : Column) (i : Nat) : Value :=
  c.values[i]?.getD .null

end Column

namespace Value

/-- The column of a name, if there is one. -/
def findColumn (key : String) (columns : List Column) : Option Column :=
  columns.find? fun c => c.name == key

/-- Subscript by position. -/
def index (i : Int64) : Value → Except ValueError Value
  | null => .ok null
  | list items => .ok (((position? i items.length).bind (items[·]?)).getD null)
  | column c => .ok (((position? i c.length).map c.cell).getD null)
  | frame columns =>
      .ok ((((position? i columns.length).bind (columns[·]?)).map column).getD null)
  | map entries => .ok ((findEntry (Text.integerText i.toInt) entries).getD null)
  | v => .error (.notIndexable v.type)

/-- Subscript by key. -/
def field (key : String) : Value → Except ValueError Value
  | null => .ok null
  | map entries => .ok ((findEntry key entries).getD null)
  | frame columns => .ok (((findColumn key columns).map column).getD null)
  | v => .error (.noField key v.type)

/-! ## Columns from values -/

/-- The word of a value, if it is one. -/
def int? : Value → Option Int64
  | int n => some n
  | _ => none

/-- The number of a value as a float, if it is one. -/
def number? : Value → Option Float
  | int n => some (nearestFloat n)
  | float x => some x
  | _ => none

/-- The truth value of a value, if it is one. -/
def bool? : Value → Option Bool
  | bool b => some b
  | _ => none

/-- The text of a value, if it is one. -/
def text? : Value → Option String
  | text s => some s
  | _ => none

/-- Whether the value is a float. -/
def isFloat : Value → Bool
  | float _ => true
  | _ => false

/-- Gathers the cells of a column whose first value has the type `first`; the
first value that `read` refuses is an error. -/
def gather {α : Type} (first : ValueType) (read : Value → Option α) :
    List Value → Except ValueError (List (Option α))
  | [] => .ok []
  | null :: rest => (gather first read rest).map (none :: ·)
  | v :: rest =>
      match read v with
      | some a => (gather first read rest).map (some a :: ·)
      | none => .error (.mixedColumn first v.type)

end Value

/-- The column of a list of values.  The first value that is not null decides
the type; words among floats become floats. -/
def Column.ofValues (name : String) (values : List Value) : Except ValueError Column :=
  match values.find? (fun v => !v.isNull) with
  | none => .ok ⟨name, .nulls values.length⟩
  | some first =>
    let cells (read : Except ValueError Cells) : Except ValueError Column :=
      read.map fun cells => ⟨name, cells⟩
    match first.type with
    | .int | .float =>
      if values.any Value.isFloat then
        cells ((Value.gather first.type Value.number? values).map .floats)
      else cells ((Value.gather first.type Value.int? values).map .ints)
    | .bool => cells ((Value.gather first.type Value.bool? values).map .bools)
    | .text => cells ((Value.gather first.type Value.text? values).map .texts)
    | t => .error (.noColumn t)

/-- A value repeated into a column of `length` cells; a column is left alone. -/
def Value.repeated (name : String) (length : Nat) : Value → Except ValueError Column
  | .column c => .ok c
  | .null => .ok ⟨name, .nulls length⟩
  | .bool b => .ok ⟨name, .bools (List.replicate length (some b))⟩
  | .int n => .ok ⟨name, .ints (List.replicate length (some n))⟩
  | .float x => .ok ⟨name, .floats (List.replicate length (some x))⟩
  | .text s => .ok ⟨name, .texts (List.replicate length (some s))⟩
  | v => .error (.notRepeatable v.type)

end Formulary
