import Formulary.Function.Standard

/-!
# Columns of words and words

Sums, differences, products, negations and absolute values are defined for words and for
columns of words.  On words they give the exact result or fail.  On columns they never
fail: a cell is null where an operand is null, and elsewhere it is the exact result wrapped
around.  So a column agrees with its elements exactly where the operation on the elements
does not overflow.

Main definitions:

- `Application`: an operation with its operands; `Application.atPlace` puts the elements of a
  place for the operands.
- `Application.result?`: the exact result on words.
- `Application.OverWords`: the operands are words and columns of words of one length.
- `Application.AgreesAt`: a column has the result of the elements of a place.

Main results:

- Theorem `Application.run_eq_ok_iff`: an operation on words succeeds with the exact result.
- Theorem `Application.run_overWords`: an operation on columns wraps the exact results.
- Theorem `Application.agreesAt_iff`: where columns agree with their elements.
-/

namespace Formulary

/-! ## Places of columns -/

/-- The value of a cell of words. -/
def wordCell : Option Int64 → Value
  | some w => .int w
  | none => .null

namespace Column

theorem cell_ints {name : String} {cells : List (Option Int64)} {i : Nat} {x : Option Int64}
    (h : cells[i]? = some x) : (Column.mk name (.ints cells)).cell i = wordCell x := by
  simp only [cell, values, Cells.values, Cells.ofCells, List.getElem?_map, h]
  cases x <;> rfl

end Column

namespace Value

/-- The element of a value at a place: a cell of a column, and else the value itself. -/
def element (i : Nat) : Value → Value
  | column c => c.cell i
  | v => v

/-- A word, or a column of `n` cells that are words or null. -/
inductive WordsOf (n : Nat) : Value → Prop where
  | word (w : Int64) : WordsOf n (int w)
  | column (name : String) {cells : List (Option Int64)} (h : cells.length = n) :
      WordsOf n (column ⟨name, .ints cells⟩)

/-- The cells are the elements of the value at the first `n` places. -/
structure Spread (n : Nat) (v : Value) (cells : List (Option Int64)) : Prop where
  length : cells.length = n
  element : ∀ {i x}, cells[i]? = some x → v.element i = wordCell x

/-- There is an operand for every place of a column. -/
theorem Spread.exists_getElem? {n : Nat} {v : Value} {cells : List (Option Int64)}
    (h : Spread n v cells) {i : Nat} (hi : i < n) : ∃ x, cells[i]? = some x :=
  ⟨_, List.getElem?_eq_getElem (h.length.symm ▸ hi)⟩

/-- A word or column of words is repeated into a column of its elements. -/
theorem WordsOf.repeated {n : Nat} {v : Value} (h : WordsOf n v) (name : String) :
    ∃ name' cells, v.repeated name n = .ok ⟨name', .ints cells⟩ ∧ Spread n v cells := by
  cases h with
  | word w =>
    refine ⟨name, List.replicate n (some w), rfl, List.length_replicate .., ?_⟩
    intro i x hx
    rw [List.getElem?_replicate] at hx
    split at hx
    · cases hx
      rfl
    · cases hx
  | column name' hn => exact ⟨name', _, rfl, hn, Column.cell_ints⟩

/-- Of two operands one of which is a column, each is repeated to its length. -/
theorem columnOperands?_of_wordsOf {n : Nat} {a b : Value} (ha : WordsOf n a)
    (hb : WordsOf n b) (hcolumn : a.isColumn = true ∨ b.isColumn = true) :
    ∃ left right xs ys,
      columnOperands? a b = some (.ok (⟨left, .ints xs⟩, ⟨right, .ints ys⟩)) ∧
        Spread n a xs ∧ Spread n b ys := by
  have hoperands : ∃ name, ∀ left right, a.repeated name n = .ok left →
      b.repeated name n = .ok right → columnOperands? a b = some (.ok (left, right)) := by
    cases ha with
    | @column name cells hn =>
      have hlength : (Column.mk name (.ints cells)).length = n := hn
      refine ⟨name, fun left right hleft hright => ?_⟩
      simp [columnOperands?, hlength, hleft, hright]
    | word w =>
      cases hb with
      | @column name cells hn =>
        have hlength : (Column.mk name (.ints cells)).length = n := hn
        refine ⟨name, fun left right hleft hright => ?_⟩
        simp [columnOperands?, hlength, hleft, hright]
      | word w' => simp [isColumn] at hcolumn
  obtain ⟨name, hname⟩ := hoperands
  obtain ⟨left, xs, hleft, hxs⟩ := ha.repeated name
  obtain ⟨right, ys, hright, hys⟩ := hb.repeated name
  exact ⟨_, _, xs, ys, hname _ _ hleft hright, hxs, hys⟩

end Value

namespace Cells

/-- Cells that are as many as they should be stay as they are. -/
theorem stretchList_of_length {α : Type} {n : Nat} {xs : List α} (h : xs.length = n) :
    stretchList n xs = xs := by
  unfold stretchList
  split
  · subst h
    rfl
  · rfl

theorem commonLength?_same (n : Nat) : commonLength? [n, n, n] = some n := by
  by_cases h : n = 1
  · subst h
    rfl
  · simp [commonLength?, h]

/-- An operation with one word in every cell of the right column. -/
theorem lift_replicate {α β γ : Type} (f : α → β → γ) (xs : List (Option α)) (b : β) :
    lift f xs (List.replicate xs.length (some b)) = change (fun a => f a b) xs := by
  induction xs with
  | nil => rfl
  | cons x xs ih =>
    rw [List.length_cons, List.replicate_succ]
    cases x with
    | none => exact congrArg _ ih
    | some a => exact congrArg _ ih

/-- The cell at a place of a choice. -/
theorem getElem?_choose {α : Type} {mask : List Bool} {xs ys : List (Option α)} {i : Nat}
    {m : Bool} {x y : Option α} (hm : mask[i]? = some m) (hx : xs[i]? = some x)
    (hy : ys[i]? = some y) : (choose mask xs ys)[i]? = some (if m then x else y) := by
  have hpair : (xs.zip ys)[i]? = some (x, y) := List.getElem?_zip_eq_some.2 ⟨hx, hy⟩
  simp [choose, List.getElem?_zipWith, hm, hpair]

/-- Columns of words are combined in wrapping arithmetic. -/
theorem combine?_ints (op : ArithOp) (xs ys : List (Option Int64)) :
    combine? op (ints xs) (ints ys) = some (ints (lift (wrapping op) xs ys)) :=
  rfl

/-- Columns of words are ordered as words. -/
theorem order?_ints (xs ys : List (Option Int64)) :
    order? (ints xs) (ints ys) = some (lift orderInts xs ys) :=
  rfl

/-- A choice between columns of words is one. -/
theorem choose?_ints (mask : List Bool) (xs ys : List (Option Int64)) :
    choose? mask (ints xs) (ints ys) = some (ints (choose mask xs ys)) :=
  rfl

end Cells

namespace Column

variable {left right : String} {xs ys : List (Option Int64)}

/-- Sum, difference or product of two columns of words of one length. -/
theorem arith?_ints {op : ArithOp} (hop : op ≠ .div) (h : xs.length = ys.length) :
    arith? op ⟨left, .ints xs⟩ ⟨right, .ints ys⟩ =
      some ⟨resultName op ⟨left, .ints xs⟩ ⟨right, .ints ys⟩,
        .ints (Cells.lift (Cells.wrapping op) xs ys)⟩ := by
  have haligned : (Cells.ints xs).aligned? (.ints ys) = some (.ints xs, .ints ys) :=
    Cells.aligned?_of_length_eq h
  cases op with
  | div => exact absurd rfl hop
  | add | sub | mul => simp [arith?, haligned, Cells.combine?_ints]

/-- A comparison of two columns of words of one length. -/
theorem compare?_ints (op : Comparison) (h : xs.length = ys.length) :
    compare? op ⟨left, .ints xs⟩ ⟨right, .ints ys⟩ =
      some ⟨left, .bools (Cells.change op.holds (Cells.lift orderInts xs ys))⟩ := by
  have haligned : (Cells.ints xs).aligned? (.ints ys) = some (.ints xs, .ints ys) :=
    Cells.aligned?_of_length_eq h
  simp [compare?, haligned, Cells.order?_ints]

/-- A choice between two columns of words of the length of the condition. -/
theorem select?_ints {condition : List (Option Bool)} {n : Nat} (hc : condition.length = n)
    (hx : xs.length = n) (hy : ys.length = n) :
    select? condition ⟨left, .ints xs⟩ ⟨right, .ints ys⟩ =
      some ⟨left, .ints (Cells.choose (condition.map (·.getD false)) xs ys)⟩ := by
  have hn : Cells.commonLength? [condition.length, (Column.mk left (.ints xs)).length,
      (Column.mk right (.ints ys)).length] = some n := by
    rw [hc, show (Column.mk left (.ints xs)).length = n from hx,
      show (Column.mk right (.ints ys)).length = n from hy, Cells.commonLength?_same]
  have hmask : (condition.map (·.getD false)).length = n := by rw [List.length_map, hc]
  simp [select?, hn, Cells.stretch, Cells.stretchList_of_length hmask,
    Cells.stretchList_of_length hx, Cells.stretchList_of_length hy, Cells.choose?_ints]

end Column

namespace Value

/-- A comparison of a column of words with a word. -/
theorem relate_int (op : Comparison) (name : String) (cells : List (Option Int64))
    (w : Int64) :
    relate op (column ⟨name, .ints cells⟩) (int w) =
      .ok (column ⟨name, .bools (cells.map (Option.map fun v => op.holds (orderInts v w)))⟩) := by
  have hcells : Cells.change op.holds (Cells.lift orderInts cells
      (List.replicate cells.length (some w))) =
        cells.map (Option.map fun v => op.holds (orderInts v w)) := by
    rw [Cells.lift_replicate, Cells.change, Cells.change, List.map_map]
    apply List.map_congr_left
    intro x hx
    exact Option.map_map ..
  have hoperands : columnOperands? (column ⟨name, .ints cells⟩) (int w) = some (.ok
      (⟨name, .ints cells⟩, ⟨name, .ints (List.replicate cells.length (some w))⟩)) :=
    rfl
  have hlength : cells.length = (List.replicate cells.length (some w)).length := by simp
  rw [relate, hoperands]
  simp only [overColumns, Except.bind, Column.compare?_ints op hlength, hcells]
  rfl

end Value

/-- Whether a cell holds a word below zero. -/
def isBelowZero (x : Option Int64) : Bool :=
  (x.map fun w => Comparison.lt.holds (orderInts w 0)).getD false

/-- The absolute value of a column takes the cells below zero from its negation. -/
theorem Standard.absColumn_ints {name name' : String} {cells negated : List (Option Int64)}
    (hneg : Value.neg (.column ⟨name, .ints cells⟩) = .ok (.column ⟨name', .ints negated⟩))
    (hlength : negated.length = cells.length) :
    absColumn ⟨name, .ints cells⟩ =
      .ok (.column ⟨name', .ints (Cells.choose (cells.map isBelowZero) negated cells)⟩) := by
  have hcondition :
      (cells.map (Option.map fun w => Comparison.lt.holds (orderInts w 0))).length =
        cells.length := List.length_map ..
  have hmask : (cells.map (Option.map fun w => Comparison.lt.holds (orderInts w 0))).map
      (·.getD false) = cells.map isBelowZero := List.map_map ..
  have hselect := @Column.select?_ints name' name _ _ _ _ hcondition hlength rfl
  rw [hmask] at hselect
  rw [absColumn, Value.relate_int]
  simp only [hneg, Value.select, Value.selectCells, Cells.mask?, Value.repeated]
  rw [hselect]
  rfl

/-! ## Applications -/

/-- An operation that words and columns share, applied to its operands. -/
inductive Application where
  | arith (op : ArithOp) (a b : Value)
  | neg (a : Value)
  | abs (a : Value)

namespace Application

/-- The operands. -/
def operands : Application → List Value
  | arith _ a b => [a, b]
  | neg a => [a]
  | abs a => [a]

/-- The outcome. -/
def run : Application → Except CallFailure Value
  | arith op a b => ofValueResult (Value.arith op a b)
  | neg a => ofValueResult a.neg
  | abs a => StandardFunction.abs.call [a]

/-- The operation on the elements of a place. -/
def atPlace (i : Nat) : Application → Application
  | arith op a b => arith op (a.element i) (b.element i)
  | neg a => neg (a.element i)
  | abs a => abs (a.element i)

/-- The exact result of an operation on words; a quotient is a float. -/
def result? : Application → Option Int
  | arith .add (.int x) (.int y) => some (x.toInt + y.toInt)
  | arith .sub (.int x) (.int y) => some (x.toInt - y.toInt)
  | arith .mul (.int x) (.int y) => some (x.toInt * y.toInt)
  | neg (.int x) => some (-x.toInt)
  | abs (.int x) => some x.toInt.natAbs
  | _ => none

/-- Whether the operation is a division. -/
def isQuotient : Application → Bool
  | arith .div _ _ => true
  | _ => false

/-- The operands are words and columns of `n` words, at least one of them a column. -/
structure OverWords (n : Nat) (app : Application) : Prop where
  words : ∀ v ∈ app.operands, Value.WordsOf n v
  column : ∃ v ∈ app.operands, v.isColumn = true
  notQuotient : app.isQuotient = false

/-- At a place the column is null if an operand is, and else it has the result of the
operation on the elements there. -/
def AgreesAt (app : Application) (result : Column) (i : Nat) : Prop :=
  (.null ∈ (app.atPlace i).operands → result.cell i = .null) ∧
    (.null ∉ (app.atPlace i).operands → (app.atPlace i).run = .ok (result.cell i))

/-! ## Operations on words -/

/-- An operation on words gives the exact result if that is a word, and else fails. -/
theorem run_of_result? {app : Application} {m : Int} (h : app.result? = some m) :
    ∃ failure, app.run = match word? m with
      | some w => .ok (.int w)
      | none => .error failure := by
  have hexact : ∀ error : ValueError, ofValueResult (Value.exact error m) = match word? m with
      | some w => .ok (.int w)
      | none => .error (.value error) := by
    intro error
    unfold Value.exact
    cases word? m <;> rfl
  unfold result? at h
  split at h <;> first | injection h with h; subst h | cases h
  · exact ⟨_, hexact (.overflow .add)⟩
  · exact ⟨_, hexact (.overflow .sub)⟩
  · exact ⟨_, hexact (.overflow .mul)⟩
  · exact ⟨_, hexact .negationOverflow⟩
  · exact ⟨.absoluteOverflow, rfl⟩

/-- An operation on words succeeds with the exact result only. -/
theorem run_eq_ok_iff {app : Application} {m : Int} (h : app.result? = some m) {v : Value} :
    app.run = .ok v ↔ ∃ w : Int64, w.toInt = m ∧ v = .int w := by
  obtain ⟨failure, hrun⟩ := run_of_result? h
  rw [hrun]
  constructor
  · intro hv
    split at hv
    · next w hw => exact ⟨w, word?_eq_some_iff.1 hw, by injection hv with hv; exact hv.symm⟩
    · cases hv
  · rintro ⟨w, rfl, rfl⟩
    rw [word?_toInt]

/-! ## Operations on columns -/

/-- A cell of a sum, difference or product: the exact result wrapped around. -/
theorem wrapping_cell {op : ArithOp} (hop : op ≠ .div) (x y : Option Int64) :
    (x.bind fun a => y.map fun b => Cells.wrapping op a b) =
      (arith op (wordCell x) (wordCell y)).result?.map Int64.ofInt := by
  cases x with
  | none => cases op <;> rfl
  | some a =>
    cases y with
    | none => cases op <;> rfl
    | some b =>
      cases op with
      | add => simp [wordCell, result?, Cells.wrapping, Int64.ofInt_add]
      | sub => simp [wordCell, result?, Cells.wrapping, Int64.ofInt_sub]
      | mul => simp [wordCell, result?, Cells.wrapping, Int64.ofInt_mul]
      | div => exact absurd rfl hop

/-- Sums, differences and products with a column wrap the exact results. -/
theorem arith_overWords {n : Nat} {op : ArithOp} {a b : Value} (hop : op ≠ .div)
    (ha : Value.WordsOf n a) (hb : Value.WordsOf n b)
    (hcolumn : a.isColumn = true ∨ b.isColumn = true) :
    ∃ name results, Value.arith op a b = .ok (.column ⟨name, .ints results⟩) ∧
      results.length = n ∧ ∀ i < n, results[i]? =
        some ((arith op (a.element i) (b.element i)).result?.map Int64.ofInt) := by
  obtain ⟨left, right, xs, ys, hoperands, hxs, hys⟩ :=
    Value.columnOperands?_of_wordsOf ha hb hcolumn
  have hlength : xs.length = ys.length := hxs.length.trans hys.length.symm
  refine ⟨Column.resultName op ⟨left, .ints xs⟩ ⟨right, .ints ys⟩,
    Cells.lift (Cells.wrapping op) xs ys, ?_, ?_, ?_⟩
  · rw [Value.arith, hoperands]
    simp only [Value.overColumns, Except.bind, Column.arith?_ints hop hlength]
    rfl
  · rw [Cells.length_lift, hxs.length, hys.length, Nat.min_self]
  · intro i hi
    obtain ⟨x, hx⟩ := hxs.exists_getElem? hi
    obtain ⟨y, hy⟩ := hys.exists_getElem? hi
    rw [Cells.getElem?_lift, hx, hy, hxs.element hx, hys.element hy, ← wrapping_cell hop]
    rfl

/-- The negation of a column, a difference from zero, wraps the exact results. -/
theorem neg_overWords {n : Nat} {a : Value} (ha : Value.WordsOf n a)
    (hcolumn : a.isColumn = true) :
    ∃ name results, a.neg = .ok (.column ⟨name, .ints results⟩) ∧ results.length = n ∧
      ∀ i < n, results[i]? = some ((neg (a.element i)).result?.map Int64.ofInt) := by
  have hexact : ∀ v, (arith .sub (.int 0) v).result? = (neg v).result? := by
    intro v
    cases v <;> simp [result?]
  cases ha with
  | word w => cases hcolumn
  | column name hn =>
    obtain ⟨name', results, hneg, hlength, hresults⟩ :=
      arith_overWords (show ArithOp.sub ≠ .div by decide) (.word 0) (.column name hn) (.inr rfl)
    refine ⟨name', results, hneg, hlength, ?_⟩
    intro i hi
    rw [hresults i hi, ← hexact]
    rfl

/-- A cell of an absolute value: a word below zero is replaced by its negation. -/
theorem abs_cell (x : Option Int64) :
    (if isBelowZero x then (neg (wordCell x)).result?.map Int64.ofInt else x) =
      (abs (wordCell x)).result?.map Int64.ofInt := by
  cases x with
  | none => rfl
  | some w =>
    by_cases hw : w < 0
    · have hneg : w.toInt < 0 := Int64.lt_iff_toInt_lt.1 hw
      have habs : (w.toInt.natAbs : Int) = -w.toInt := by omega
      simp [wordCell, result?, isBelowZero, orderInts, hw, Comparison.holds, habs]
    · have hnonneg : ¬ w.toInt < 0 := fun h => hw (Int64.lt_iff_toInt_lt.2 h)
      have habs : (w.toInt.natAbs : Int) = w.toInt := by omega
      have horder : Comparison.lt.holds (orderInts w 0) = false := by
        unfold orderInts
        rw [if_neg hw]
        split <;> rfl
      simp [wordCell, result?, isBelowZero, horder, habs]

/-- The absolute value of a column wraps the exact results. -/
theorem abs_overWords {n : Nat} {a : Value} (ha : Value.WordsOf n a)
    (hcolumn : a.isColumn = true) :
    ∃ name results, StandardFunction.abs.call [a] = .ok (.column ⟨name, .ints results⟩) ∧
      results.length = n ∧
        ∀ i < n, results[i]? = some ((abs (a.element i)).result?.map Int64.ofInt) := by
  obtain ⟨name', negated, hneg, hnegated, hcells⟩ := neg_overWords ha hcolumn
  cases ha with
  | word w => cases hcolumn
  | @column name cells hn =>
    refine ⟨name', Cells.choose (cells.map isBelowZero) negated cells, ?_, ?_, ?_⟩
    · show ofValueResult (Standard.absColumn ⟨name, .ints cells⟩) = _
      rw [Standard.absColumn_ints hneg (hnegated.trans hn.symm)]
      rfl
    · simp [Cells.choose, hn, hnegated]
    · intro i hi
      obtain ⟨x, hx⟩ : ∃ x, cells[i]? = some x := ⟨_, List.getElem?_eq_getElem (hn.symm ▸ hi)⟩
      have hmask : (cells.map isBelowZero)[i]? = some (isBelowZero x) := by simp [hx]
      rw [Cells.getElem?_choose hmask (hcells i hi) hx, Value.element, Column.cell_ints hx,
        ← abs_cell]

/-- Operations on columns wrap the exact results: a cell is null if an operand is null at
its place, and else the word to which the exact result wraps around. -/
theorem run_overWords {n : Nat} {app : Application} (h : app.OverWords n) :
    ∃ name results, app.run = .ok (.column ⟨name, .ints results⟩) ∧ results.length = n ∧
      ∀ i < n, results[i]? = some ((app.atPlace i).result?.map Int64.ofInt) := by
  obtain ⟨hwords, hcolumn, hquotient⟩ := h
  cases app with
  | arith op a b =>
    have hop : op ≠ .div := by
      rintro rfl
      cases hquotient
    have hab : a.isColumn = true ∨ b.isColumn = true := by simpa [operands] using hcolumn
    obtain ⟨name, results, hrun, hresults⟩ :=
      arith_overWords hop (hwords a (by simp [operands])) (hwords b (by simp [operands])) hab
    exact ⟨name, results, by rw [run, hrun]; rfl, hresults⟩
  | neg a =>
    have ha : a.isColumn = true := by simpa [operands] using hcolumn
    obtain ⟨name, results, hrun, hresults⟩ :=
      neg_overWords (hwords a (by simp [operands])) ha
    exact ⟨name, results, by rw [run, hrun]; rfl, hresults⟩
  | abs a =>
    have ha : a.isColumn = true := by simpa [operands] using hcolumn
    exact abs_overWords (hwords a (by simp [operands])) ha

/-! ## Agreement -/

/-- At a place of columns of words an operand is null or there is an exact result. -/
theorem result?_eq_none_iff {n : Nat} {app : Application} (h : app.OverWords n) {i : Nat}
    (hi : i < n) : (app.atPlace i).result? = none ↔ .null ∈ (app.atPlace i).operands := by
  have helement : ∀ v ∈ app.operands, ∃ x, v.element i = wordCell x := by
    intro v hv
    obtain ⟨-, cells, -, hcells⟩ := (h.words v hv).repeated ""
    obtain ⟨x, hx⟩ := hcells.exists_getElem? hi
    exact ⟨x, hcells.element hx⟩
  have hquotient := h.notQuotient
  cases app with
  | arith op a b =>
    obtain ⟨x, hx⟩ := helement a (by simp [operands])
    obtain ⟨y, hy⟩ := helement b (by simp [operands])
    simp only [atPlace, operands, hx, hy]
    cases op with
    | div => cases hquotient
    | add | sub | mul => cases x <;> cases y <;> simp [result?, wordCell]
  | neg a | abs a =>
    obtain ⟨x, hx⟩ := helement a (by simp [operands])
    simp only [atPlace, operands, hx]
    cases x <;> simp [result?, wordCell]

/-- On columns of words an operation never fails.  Its result agrees with the elements of a
place exactly if an operand is null there or the operation on the elements succeeds; where
that fails, the result has the word to which the exact result wraps around. -/
theorem agreesAt_iff {n : Nat} {app : Application} (h : app.OverWords n) :
    ∃ result : Column, app.run = .ok (.column result) ∧ result.length = n ∧ ∀ i < n,
      (app.AgreesAt result i ↔
        .null ∈ (app.atPlace i).operands ∨ ∃ v, (app.atPlace i).run = .ok v) ∧
      (.null ∉ (app.atPlace i).operands →
        ∃ m, (app.atPlace i).result? = some m ∧ result.cell i = .int (Int64.ofInt m)) := by
  obtain ⟨name, results, hrun, hlength, hresults⟩ := run_overWords h
  refine ⟨⟨name, .ints results⟩, hrun, hlength, ?_⟩
  intro i hi
  have hcell := @Column.cell_ints name _ _ _ (hresults i hi)
  have hexact := result?_eq_none_iff h hi
  by_cases hnull : .null ∈ (app.atPlace i).operands
  · rw [hexact.2 hnull] at hcell
    exact ⟨⟨fun _ => .inl hnull, fun _ => ⟨fun _ => hcell, fun hwords => absurd hnull hwords⟩⟩,
      fun hwords => absurd hnull hwords⟩
  · obtain ⟨m, hm⟩ := Option.ne_none_iff_exists'.1 (mt hexact.1 hnull)
    rw [hm] at hcell
    refine ⟨⟨?_, ?_⟩, fun _ => ⟨m, hm, hcell⟩⟩
    · intro hagrees
      exact .inr ⟨_, hagrees.2 hnull⟩
    · rintro (hmem | ⟨v, hv⟩)
      · exact absurd hmem hnull
      · refine ⟨fun hmem => absurd hmem hnull, fun _ => ?_⟩
        -- The exact result is a word, so that nothing is lost by wrapping it.
        obtain ⟨w, rfl, rfl⟩ := (run_eq_ok_iff hm).1 hv
        rw [hv, hcell, Option.map_some, Int64.ofInt_toInt]
        rfl

/-- Adding one to the greatest word in a column with a null: the null stays, the other word
is counted up, and the greatest word becomes the least one, where the sum of the two words
fails. -/
theorem agreesAt_iff_greatestWord :
    let sum : Application :=
      .arith .add (.column ⟨"c", .ints [some Int64.maxValue, none, some 41]⟩) (.int 1)
    ∃ result : Column, sum.run = .ok (.column result) ∧ ¬ sum.AgreesAt result 0 ∧
      result.cell 0 = .int Int64.minValue ∧ sum.AgreesAt result 1 ∧ sum.AgreesAt result 2 := by
  intro sum
  have hover : sum.OverWords 3 := by
    refine ⟨?_, ⟨_, List.mem_cons_self .., rfl⟩, rfl⟩
    intro v hv
    simp only [sum, operands, List.mem_cons, List.not_mem_nil, or_false] at hv
    rcases hv with rfl | rfl
    · exact .column _ rfl
    · exact .word 1
  obtain ⟨result, hrun, -, hplaces⟩ := agreesAt_iff hover
  obtain ⟨hagrees, hwrapped⟩ := hplaces 0 (by decide)
  have hwords : .null ∉ (sum.atPlace 0).operands := by
    simp [sum, atPlace, operands, Value.element, Column.cell, Column.values, Cells.values,
      Cells.ofCells]
  have hfails : (sum.atPlace 0).run = .error (.value (.overflow .add)) := rfl
  refine ⟨result, hrun, ?_, ?_, ?_, ?_⟩
  · rw [hagrees]
    rintro (hnull | ⟨v, hv⟩)
    · exact hwords hnull
    · rw [hfails] at hv
      cases hv
  · obtain ⟨m, hm, hcell⟩ := hwrapped hwords
    cases hm
    exact hcell
  · exact (hplaces 1 (by decide)).1.2 (.inl (List.mem_cons_self ..))
  · exact (hplaces 2 (by decide)).1.2 (.inr ⟨.int 42, rfl⟩)

end Application
end Formulary
