import Formulary.Proofs.Function.Sum
import Mathlib.Logic.Basic
import Mathlib.Tactic.ByContra

/-!
# Integers in columns

Cells of words, counts and truth values stand for integers.  Two columns of them meet in a
machine type that loses none of their integers, and are then combined in that type: a sum,
difference or product wraps around if the type does not hold it.

Main definitions:

- `Width`: the machine types of integers; `Width.Holds` are the integers of a type.
- `IntegerType`: a machine type as the type of the cells of a column.
- `Cells.integer?`: the integer of a cell.
- `Cells.Wraps`: a result has a cell that is an integer, but not the exact one.

Main results:

- Theorem `IntegerType.integer?_operate`: the cells of a sum, difference or product.
- Theorem `IntegerType.not_wraps_operate_iff`: the exact results have to fit.
- Theorem `Cells.integer?_of_combine?`: outside of the machine types there are no integers.
-/

namespace Formulary

/-! ## Machine types -/

/-- The machine types of integers: signed ones of 32 and of 64 bits, and unsigned ones of 32
and of 64 bits. -/
inductive Width where
  | short | word | counter | size
  deriving DecidableEq

/-- The integers that a machine type holds. -/
def Width.Holds : Width → Int → Prop
  | .short, n => -2 ^ 31 ≤ n ∧ n < 2 ^ 31
  | .word, n => IsWord n
  | .counter, n => 0 ≤ n ∧ n < 2 ^ 32
  | .size, n => 0 ≤ n ∧ n < 2 ^ 64

/-- The exact result of an operation on integers; a quotient is rounded towards zero. -/
def ArithOp.exact : ArithOp → Int → Int → Int
  | .add, m, n => m + n
  | .sub, m, n => m - n
  | .mul, m, n => m * n
  | .div, m, n => m.tdiv n

namespace Cells

variable {α β : Type}

/-- The integer of the cell at a place, given the integers of the elements. -/
def integerAt? (value : α → Int) (xs : List (Option α)) (i : Nat) : Option Int :=
  (xs[i]?).join.map value

/-- The integer of the cell at a place, if it has one. -/
def integer? : Cells → Nat → Option Int
  | ints xs, i => integerAt? Int64.toInt xs i
  | bools xs, i => integerAt? bit xs i
  | counts xs, i => integerAt? (fun c => c.toNat) xs i
  | int32s xs, i => integerAt? Int32.toInt xs i
  | words xs, i => integerAt? (fun w => w.toNat) xs i
  | floats _, _ | texts _, _ | nulls _, _ | float32s _, _ | lists _, _ => none

/-- A result has a cell that is an integer, but not the exact result of the cells there. -/
def Wraps (op : ArithOp) (x y z : Cells) : Prop :=
  ∃ i m n p, x.integer? i = some m ∧ y.integer? i = some n ∧ z.integer? i = some p ∧
    p ≠ op.exact m n

/-- Nothing wraps in a column that holds no integers. -/
theorem not_wraps_of_integer?_eq_none {z : Cells} (h : ∀ i, z.integer? i = none) (op : ArithOp)
    (x y : Cells) : ¬Wraps op x y z := by
  rintro ⟨i, m, n, p, -, -, hp, -⟩
  rw [h i] at hp
  cases hp

/-- Elements that are changed into others keep the integers that those stand for. -/
theorem integerAt?_change {value : α → Int} {value' : β → Int} {f : α → β}
    (hf : ∀ a, value' (f a) = value a) (xs : List (Option α)) :
    integerAt? value' (change f xs) = integerAt? value xs := by
  have hvalue : (fun a => value' (f a)) = value := funext hf
  funext i
  rw [integerAt?, integerAt?, change, List.getElem?_map, ← hvalue]
  rcases xs[i]? with _ | _ | a <;> rfl

/-- Nulls stand for no integers. -/
theorem integerAt?_replicate_none (value : α → Int) (n : Nat) :
    integerAt? value (List.replicate n none) = fun _ => none := by
  funext i
  rw [integerAt?, List.getElem?_replicate]
  split <;> rfl

/-- The integer of the cell of an operation on integers. -/
theorem integerAt?_lift {value : α → Int} {f : Int → Int → Int} (xs ys : List (Option α))
    (i : Nat) :
    ((lift (fun x y => f (value x) (value y)) xs ys)[i]?).join =
      (integerAt? value xs i).bind fun m => (integerAt? value ys i).map (f m) := by
  rw [getElem?_lift, integerAt?, integerAt?]
  rcases xs[i]? with _ | _ | x <;> rcases ys[i]? with _ | _ | y <;> rfl

end Cells

/-- A machine type of integers as the type of the cells of a column.  What the type does not
hold wraps around, and other cells are converted into its own without a loss. -/
structure IntegerType (α : Type) [Add α] [Sub α] [Mul α] where
  width : Width
  /-- The integer that an element stands for. -/
  value : α → Int
  /-- The element to which an integer wraps around. -/
  wrap : Int → α
  /-- The cells of a column as cells of this type. -/
  cells? : Cells → Option (List (Option α))
  /-- A column of this type. -/
  ofCells : List (Option α) → Cells
  value_wrap_iff : ∀ {n}, value (wrap n) = n ↔ width.Holds n
  wrap_value : ∀ a, wrap (value a) = a
  wrap_add : ∀ m n, wrap (m + n) = wrap m + wrap n
  wrap_sub : ∀ m n, wrap (m - n) = wrap m - wrap n
  wrap_mul : ∀ m n, wrap (m * n) = wrap m * wrap n
  integer?_of_cells? : ∀ {c xs}, cells? c = some xs → c.integer? = Cells.integerAt? value xs
  cells?_ofCells : ∀ xs, cells? (ofCells xs) = some xs

namespace IntegerType

open Cells

variable {α : Type} [Add α] [Sub α] [Mul α] (T : IntegerType α)

/-- The exact results in the cells of two columns. -/
def exactCells (op : ArithOp) (xs ys : List (Option α)) : List (Option Int) :=
  lift (fun x y => op.exact (T.value x) (T.value y)) xs ys

/-- The results in the cells of two columns, which wrap around. -/
def operate (op : ArithOp) (xs ys : List (Option α)) : Cells :=
  T.ofCells (change T.wrap (T.exactCells op xs ys))

/-- A sum, difference or product of the machine is the exact one wrapped around. -/
theorem wrap_exact [Div α] {op : ArithOp} (hop : op ≠ .div) (x y : α) :
    T.wrap (op.exact (T.value x) (T.value y)) = operation op x y := by
  cases op with
  | add => exact (T.wrap_add _ _).trans (congrArg₂ _ (T.wrap_value x) (T.wrap_value y))
  | sub => exact (T.wrap_sub _ _).trans (congrArg₂ _ (T.wrap_value x) (T.wrap_value y))
  | mul => exact (T.wrap_mul _ _).trans (congrArg₂ _ (T.wrap_value x) (T.wrap_value y))
  | div => exact absurd rfl hop

/-- The operation on a column computes exactly and then wraps each cell. -/
theorem change_exactCells [Div α] {op : ArithOp} (hop : op ≠ .div) (xs ys : List (Option α)) :
    change T.wrap (T.exactCells op xs ys) = lift (operation op) xs ys := by
  rw [change, exactCells, lift, lift, List.map_zipWith]
  refine congrArg (List.zipWith · xs ys) (funext fun x => funext fun y => ?_)
  cases x with
  | none => rfl
  | some x =>
    cases y with
    | none => rfl
    | some y => exact congrArg some (T.wrap_exact hop x y)

/-- The operation of the machine on the cells of two columns. -/
theorem operate_eq [Div α] {op : ArithOp} (hop : op ≠ .div) (xs ys : List (Option α)) :
    T.operate op xs ys = T.ofCells (lift (operation op) xs ys) :=
  congrArg T.ofCells (T.change_exactCells hop xs ys)

variable {T} {a b : Cells} {xs ys : List (Option α)}

/-- The cells of a result have the exact results, wrapped around. -/
theorem integer?_operate (ha : T.cells? a = some xs) (hb : T.cells? b = some ys) (op : ArithOp)
    (i : Nat) :
    (T.operate op xs ys).integer? i = (a.integer? i).bind fun m =>
      (b.integer? i).map fun n => T.value (T.wrap (op.exact m n)) := by
  have hwrapped : (((T.exactCells op xs ys)[i]?).join.map fun n => T.value (T.wrap n)) =
      (T.operate op xs ys).integer? i := by
    rw [operate, T.integer?_of_cells? (T.cells?_ofCells _)]
    exact (congrFun (integerAt?_change (fun _ => rfl) _) i).symm
  rw [← hwrapped, exactCells, integerAt?_lift, T.integer?_of_cells? ha, T.integer?_of_cells? hb]
  cases integerAt? T.value xs i with
  | none => rfl
  | some m => cases integerAt? T.value ys i <;> rfl

/-- The exact results that are noted are those of the cells with integers. -/
theorem mem_exactCells_iff (ha : T.cells? a = some xs) (hb : T.cells? b = some ys)
    {op : ArithOp} {p : Int} :
    some p ∈ T.exactCells op xs ys ↔
      ∃ i m n, a.integer? i = some m ∧ b.integer? i = some n ∧ op.exact m n = p := by
  have hcell (i : Nat) : ((T.exactCells op xs ys)[i]?).join =
      (a.integer? i).bind fun m => (b.integer? i).map (op.exact m) := by
    rw [exactCells, integerAt?_lift, T.integer?_of_cells? ha, T.integer?_of_cells? hb]
  rw [List.mem_iff_getElem?]
  refine exists_congr fun i => ?_
  rw [← Option.join_eq_some_iff, hcell, Option.bind_eq_some_iff]
  simp [Option.map_eq_some_iff]

/-- Nothing wraps around exactly if the type holds all exact results. -/
theorem not_wraps_operate_iff (ha : T.cells? a = some xs) (hb : T.cells? b = some ys)
    {op : ArithOp} :
    ¬Wraps op a b (T.operate op xs ys) ↔
      ∀ p, some p ∈ T.exactCells op xs ys → T.width.Holds p := by
  constructor
  · intro hwraps p hp
    obtain ⟨i, m, n, hm, hn, rfl⟩ := (mem_exactCells_iff ha hb).1 hp
    by_contra hholds
    refine hwraps ⟨i, m, n, _, hm, hn, ?_, mt T.value_wrap_iff.1 hholds⟩
    rw [integer?_operate ha hb, hm, hn]
    rfl
  · rintro hholds ⟨i, m, n, p, hm, hn, hp, hne⟩
    rw [integer?_operate ha hb, hm, hn] at hp
    cases hp
    exact hne (T.value_wrap_iff.2 (hholds _ ((mem_exactCells_iff ha hb).2 ⟨i, m, n, hm, hn, rfl⟩)))

/-! ## The machine types of columns -/

/-- A short integer stays exact if it is one. -/
theorem toInt_ofInt_short_iff {n : Int} :
    (Int32.ofInt n).toInt = n ↔ Width.short.Holds n :=
  ⟨fun h => h ▸ ⟨Int32.le_toInt _, Int32.toInt_lt _⟩, fun h => Int32.toInt_ofInt_of_le h.1 h.2⟩

theorem toInt_ofInt_word_iff {n : Int} : (Int64.ofInt n).toInt = n ↔ Width.word.Holds n :=
  ⟨fun h => h ▸ isWord_toInt _, fun h => Int64.toInt_ofInt_of_le h.1 h.2⟩

/-- A count keeps its lowest thirty-two bits. -/
theorem toNat_ofInt_counter (n : Int) : ((UInt32.ofInt n).toNat : Int) = n % 2 ^ 32 := by
  have hrange : (n % 2 ^ 32).toNat < UInt32.size := by
    show _ < 2 ^ 32
    omega
  rw [UInt32.ofInt, UInt32.toNat_ofNat_of_lt' hrange]
  omega

theorem toNat_ofInt_size (n : Int) : ((UInt64.ofInt n).toNat : Int) = n % 2 ^ 64 := by
  have hrange : (n % 2 ^ 64).toNat < UInt64.size := by
    show _ < 2 ^ 64
    omega
  rw [UInt64.ofInt, UInt64.toNat_ofNat_of_lt' hrange]
  omega

/-- Columns of short integers. -/
def shorts : IntegerType Int32 where
  width := .short
  value := Int32.toInt
  wrap := Int32.ofInt
  cells? := int32s?
  ofCells := int32s
  value_wrap_iff := toInt_ofInt_short_iff
  wrap_value := Int32.ofInt_toInt
  wrap_add := Int32.ofInt_add
  wrap_sub := Int32.ofInt_sub
  wrap_mul := Int32.ofInt_mul
  integer?_of_cells? {c} _ h := by
    cases c with
    | bools xs =>
      cases h
      exact (integerAt?_change (by decide) xs).symm
    | nulls n =>
      cases h
      exact (integerAt?_replicate_none _ n).symm
    | int32s xs =>
      cases h
      rfl
    | _ => cases h
  cells?_ofCells _ := rfl

/-- Columns of words. -/
def words : IntegerType Int64 where
  width := .word
  value := Int64.toInt
  wrap := Int64.ofInt
  cells? := ints?
  ofCells := ints
  value_wrap_iff := toInt_ofInt_word_iff
  wrap_value := Int64.ofInt_toInt
  wrap_add := Int64.ofInt_add
  wrap_sub := Int64.ofInt_sub
  wrap_mul := Int64.ofInt_mul
  integer?_of_cells? {c} _ h := by
    cases c with
    | ints xs =>
      cases h
      rfl
    | bools xs =>
      cases h
      exact (integerAt?_change (by decide) xs).symm
    | nulls n =>
      cases h
      exact (integerAt?_replicate_none _ n).symm
    | counts xs =>
      cases h
      refine (integerAt?_change (fun c => ?_) xs).symm
      have hc := c.toNat_lt
      exact Int64.toInt_ofNat_of_lt (by omega)
    | int32s xs =>
      cases h
      exact (integerAt?_change Int32.toInt_toInt64 xs).symm
    | _ => cases h
  cells?_ofCells _ := rfl

/-- Columns of counts. -/
def counts : IntegerType UInt32 where
  width := .counter
  value c := c.toNat
  wrap := UInt32.ofInt
  cells? := Cells.counts?
  ofCells := Cells.counts
  value_wrap_iff {n} := by
    rw [toNat_ofInt_counter]
    show _ ↔ 0 ≤ n ∧ n < 2 ^ 32
    omega
  wrap_value c := by
    have hvalue := toNat_ofInt_counter c.toNat
    have hc := c.toNat_lt
    exact UInt32.toNat_inj.1 (by omega)
  wrap_add := UInt32.ofInt_add
  wrap_sub m n := by
    rw [Int.sub_eq_add_neg, UInt32.ofInt_add, UInt32.ofInt_neg, UInt32.sub_eq_add_neg]
  wrap_mul := UInt32.ofInt_mul
  integer?_of_cells? {c} _ h := by
    cases c with
    | bools xs =>
      cases h
      exact (integerAt?_change (by decide) xs).symm
    | nulls n =>
      cases h
      exact (integerAt?_replicate_none _ n).symm
    | counts xs =>
      cases h
      rfl
    | _ => cases h
  cells?_ofCells _ := rfl

/-- Columns of unsigned words. -/
def sizes : IntegerType UInt64 where
  width := .size
  value w := w.toNat
  wrap := UInt64.ofInt
  cells? := words?
  ofCells := Cells.words
  value_wrap_iff {n} := by
    rw [toNat_ofInt_size]
    show _ ↔ 0 ≤ n ∧ n < 2 ^ 64
    omega
  wrap_value w := by
    have hvalue := toNat_ofInt_size w.toNat
    have hw := w.toNat_lt
    exact UInt64.toNat_inj.1 (by omega)
  wrap_add := UInt64.ofInt_add
  wrap_sub m n := by
    rw [Int.sub_eq_add_neg, UInt64.ofInt_add, UInt64.ofInt_neg, UInt64.sub_eq_add_neg]
  wrap_mul := UInt64.ofInt_mul
  integer?_of_cells? {c} _ h := by
    cases c with
    | bools xs =>
      cases h
      exact (integerAt?_change (by decide) xs).symm
    | nulls n =>
      cases h
      exact (integerAt?_replicate_none _ n).symm
    | counts xs =>
      cases h
      refine (integerAt?_change (fun c => ?_) xs).symm
      rw [UInt32.toNat_toUInt64]
    | words xs =>
      cases h
      rfl
    | _ => cases h
  cells?_ofCells _ := rfl

end IntegerType

/-! ## Other columns -/

/-- The element types whose columns are combined as machine integers; the booleans are counted. -/
def ElementType.isInteger : ElementType → Bool
  | .int | .bool | .count | .int32 | .word => true
  | .float | .text | .null | .float32 | .list => false

/-- Columns that do not meet in integers have no integers in their results. -/
theorem Cells.integer?_of_combine? {op : ArithOp} {a b z : Cells}
    (h : combine? op a b = some z)
    (htype : a.type = .text ∨ b.type = .text ∨
      ∀ t, ElementType.common? a.type b.type = some t → t.isInteger = false) (i : Nat) :
    z.integer? i = none := by
  unfold combine? at h
  split at h
  · split at h
    · obtain ⟨xs, -, h⟩ := Option.bind_eq_some_iff.1 h
      obtain ⟨ys, -, h⟩ := Option.bind_eq_some_iff.1 h
      cases h
      rfl
    · cases h
  · next htext =>
    have hnumbers := (htype.resolve_left (htext ∘ .inl)).resolve_left (htext ∘ .inr)
    cases hcommon : ElementType.common? a.type b.type with
    | none =>
      rw [hcommon] at h
      cases h
    | some t =>
      have ht := hnumbers t hcommon
      rw [hcommon] at h
      cases t with
      | int | bool | count | int32 | word => cases ht
      | float | float32 =>
        obtain ⟨xs, -, h⟩ := Option.bind_eq_some_iff.1 h
        obtain ⟨ys, -, h⟩ := Option.bind_eq_some_iff.1 h
        cases h
        rfl
      | null =>
        cases h
        rfl
      | text | list => cases h

/-- Quotients of columns are floats. -/
theorem Cells.integer?_of_divide? {a b z : Cells} (h : a.divide? b = some z) (i : Nat) :
    z.integer? i = none := by
  unfold divide? at h
  obtain ⟨xs, -, h⟩ := Option.bind_eq_some_iff.1 h
  obtain ⟨ys, -, h⟩ := Option.bind_eq_some_iff.1 h
  split at h
  · cases h
    rfl
  · split at h
    · cases h
      rfl
    · cases h

/-- Sum, difference or product of two columns. -/
theorem Column.arith?_eq {op : ArithOp} (hop : op ≠ .div) (a b : Column) :
    arith? op a b = (a.cells.aligned? b.cells).bind fun (x, y) =>
      (Cells.combine? op x y).map (⟨resultName op a b, ·⟩) := by
  have harith : arith? op a b = (do
      let (x, y) ← a.cells.aligned? b.cells
      let cells ← Cells.combine? op x y
      some ⟨resultName op a b, cells⟩) := by
    cases op with
    | div => exact absurd rfl hop
    | _ => rfl
  rw [harith]
  refine congrArg (Option.bind _) (funext fun aligned => ?_)
  exact (Option.map_eq_bind ..).symm

end Formulary
