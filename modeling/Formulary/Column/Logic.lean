import Formulary.Column.Arithmetic

/-!
# Column logic

Columns combine as masks of truth values.  Conjunction and disjunction follow
the three-valued logic in which null is undetermined: a false conjunct settles a
conjunction and a true disjunct settles a disjunction.  Selection takes each
cell from one of two columns; an undetermined condition takes the second.

Main results:

- Theorem `threeValuedAnd_some`, `threeValuedOr_some`: on determined values the
  connectives are the usual ones.
-/

namespace Formulary

/-- Three-valued conjunction. -/
def threeValuedAnd : Option Bool → Option Bool → Option Bool
  | some false, _ => some false
  | _, some false => some false
  | some true, b => b
  | a, some true => a
  | none, none => none

/-- Three-valued disjunction. -/
def threeValuedOr : Option Bool → Option Bool → Option Bool
  | some true, _ => some true
  | _, some true => some true
  | some false, b => b
  | a, some false => a
  | none, none => none

@[simp]
theorem threeValuedAnd_some (a b : Bool) : threeValuedAnd (some a) (some b) = some (a && b) := by
  cases a <;> cases b <;> rfl

@[simp]
theorem threeValuedOr_some (a b : Bool) : threeValuedOr (some a) (some b) = some (a || b) := by
  cases a <;> cases b <;> rfl

/-- Three-valued meaning of a connective. -/
def Connective.threeValued : Connective → Option Bool → Option Bool → Option Bool
  | .and => threeValuedAnd
  | .or => threeValuedOr

namespace Cells

/-- The type of a selection: text wins over everything but lists, and lists go with lists and
nulls only. -/
def selectionType? (a b : ElementType) : Option ElementType :=
  match a, b with
  | .list, .list | .list, .null | .null, .list => some .list
  | .list, _ => none
  | _, .list => none
  | .text, _ => some .text
  | _, .text => some .text
  | a, b => ElementType.common? a b

/-- Takes each cell from one of two lists. -/
def choose {α : Type} (mask : List Bool) (xs ys : List (Option α)) : List (Option α) :=
  List.zipWith (fun m p => if m then p.1 else p.2) mask (xs.zip ys)

/-- Takes each cell from one of two columns of the length of the mask, in their
common type; none if there is none. -/
def choose? (mask : List Bool) (a b : Cells) : Option Cells :=
  match selectionType? a.type b.type with
  | some .int => do some (ints (choose mask (← a.ints?) (← b.ints?)))
  | some .float => do some (floats (choose mask (← a.floats?) (← b.floats?)))
  | some .text => do some (texts (choose mask (← a.texts?) (← b.texts?)))
  | some .null => some (nulls mask.length)
  | some .count => do some (counts (choose mask (← a.counts?) (← b.counts?)))
  | some .int32 => do some (int32s (choose mask (← a.int32s?) (← b.int32s?)))
  | some .word => do some (words (choose mask (← a.words?) (← b.words?)))
  | some .float32 => do some (float32s (choose mask (← a.float32s?) (← b.float32s?)))
  | some .bool => do some (bools (choose mask (← a.mask?) (← b.mask?)))
  | some .list => do some (lists (choose mask (← a.lists?) (← b.lists?)))
  | none => none

/-- The one length of a mask and two columns once those of a single cell are
stretched; none if there is none. -/
def commonLength? (lengths : List Nat) : Option Nat :=
  match lengths.filter (· ≠ 1) with
  | [] => some 1
  | n :: rest => if rest.all (· == n) then some n else none

end Cells

namespace Column

/-- A connective on two columns as masks; none if a column has no mask or the
lengths do not fit. -/
def connect? (op : Connective) (a b : Column) : Option Column := do
  let xs ← a.cells.mask?
  let ys ← b.cells.mask?
  match (Cells.bools xs).aligned? (Cells.bools ys) with
  | some (.bools xs, .bools ys) => some ⟨a.name, .bools (List.zipWith op.threeValued xs ys)⟩
  | _ => none

/-- Negation of a column as a mask. -/
def not? (a : Column) : Option Column :=
  a.cells.mask?.map fun xs => ⟨a.name, .bools (Cells.change Bool.not xs)⟩

/-- Takes each cell from one of two columns by the truth of a condition. -/
def select? (condition : List (Option Bool)) (a b : Column) : Option Column := do
  let n ← Cells.commonLength? [condition.length, a.length, b.length]
  let mask := Cells.stretchList n (condition.map (·.getD false))
  let cells ← Cells.choose? mask (a.cells.stretch n) (b.cells.stretch n)
  some ⟨a.name, cells⟩

end Column
end Formulary
