import Formulary.Proofs.Column.Agreement
import Formulary.Proofs.Number.Zero
import Formulary.Proofs.Value.Order

/-!
# Truth in columns

The mask of a column of numbers marks what is not zero.  So negation, conjunction and
disjunction of columns, and the selection by a column, do at every place what they do to the
elements there, as long as the element is defined.  The undefined float is no zero and is
marked, but as a value it is false.

Main definitions:

- `Value.isMarked`: whether the mask of a column marks an element.
- `Column.Determined`: a column of numbers or booleans without nulls.
- `Column.Fits`: two branches that a column can select from.

Main results:

- Theorem `Column.Determined.mask?_eq`: the mask of a column.
- Theorem `Value.logic_elementwise`: logic on columns goes by the elements, exactly where they
  are defined.
-/

namespace Formulary

/-! ## Masks -/

namespace Value

/-- Whether the mask of a column marks an element: it is true, or the undefined float. -/
def isMarked (v : Value) : Bool :=
  v.isTruthy || v.isUndefined

/-- Only an undefined float is marked although it is not true. -/
theorem isMarked_eq_isTruthy {v : Value} (h : v.isUndefined = false) :
    v.isMarked = v.isTruthy := by
  rw [isMarked, h, Bool.or_false]

/-- An undefined float is not true. -/
theorem isTruthy_of_isUndefined {v : Value} (h : v.isUndefined = true) :
    v.isTruthy = false := by
  cases v with
  | float x =>
    have hx : x.isNaN = true := h
    rw [isTruthy, hx, Bool.not_true, Bool.and_false]
  | _ => cases h

/-- The mask of a column and the truth of a value differ at the undefined float. -/
theorem isTruthy_eq_isMarked_iff {v : Value} :
    v.isTruthy = v.isMarked ↔ v.isUndefined = false := by
  constructor
  · intro h
    by_contra hundefined
    rw [Bool.not_eq_false] at hundefined
    rw [isMarked, hundefined, isTruthy_of_isUndefined hundefined] at h
    cases h
  · intro h
    rw [isMarked_eq_isTruthy h]

theorem isMarked_int (n : Int64) : (int n).isMarked = (n != 0) :=
  Bool.or_false _

theorem isMarked_bool (b : Bool) : (bool b).isMarked = b :=
  Bool.or_false _

/-- Of the floats the mask marks those that are not zero. -/
theorem isMarked_float (x : Float) : (float x).isMarked = (x != 0.0) := by
  rw [isMarked, isTruthy, isUndefined]
  cases hx : x.isNaN with
  | true =>
    rw [bne, beq_zero_of_isNaN hx]
    rfl
  | false => rw [Bool.not_false, Bool.and_true, Bool.or_false]

end Value

namespace Cells

open Value

/-- A word is marked unless its value is zero. -/
theorem isMarked_int_iff {n : Int64} {m : Int} (h : n.toInt = m) :
    (int n).isMarked = true ↔ m ≠ 0 := by
  rw [isMarked_int, bne_iff_ne, Ne, ← Int64.toInt_inj, h, Int64.toInt_zero]

theorem isMarked_count (c : UInt32) : (int (Int64.ofNat c.toNat)).isMarked = (c != 0) := by
  have hc := c.toNat_lt
  have hword : (Int64.ofNat c.toNat).toInt = c.toNat := Int64.toInt_ofNat_of_lt (by omega)
  rw [Bool.eq_iff_iff, isMarked_int_iff hword, bne_iff_ne, Ne, Ne, ← UInt32.toNat_inj]
  exact not_congr Int.natCast_eq_zero

theorem isMarked_int32 (i : Int32) : (int i.toInt64).isMarked = (i != 0) := by
  rw [Bool.eq_iff_iff, isMarked_int_iff i.toInt_toInt64, bne_iff_ne, Ne, Ne, ← Int32.toInt_inj,
    Int32.toInt_zero]

/-- Whether an unsigned word is a word or only a float, its mask is the same. -/
theorem isMarked_wordValue (w : UInt64) : (wordValue w).isMarked = (w != 0) := by
  unfold wordValue
  split
  · next n hn =>
    rw [Bool.eq_iff_iff, isMarked_int_iff (word?_eq_some_iff.1 hn), bne_iff_ne, Ne, Ne,
      ← UInt64.toNat_inj]
    exact not_congr Int.natCast_eq_zero
  · rw [isMarked_float, bne, toFloat_beq_zero, bne]

theorem isMarked_wideFloat (x : Float32) : (float (wideFloat x)).isMarked = (x != 0.0) := by
  rw [isMarked_float, bne, beq_zero, isZero_wideFloat, ← beq_zero_short, bne]

/-- What the mask of a column marks, where no cell is null. -/
theorem change_eq_map {α : Type} {f : α → Value} {p : α → Bool}
    (h : ∀ a, (f a).isMarked = p a) {xs : List (Option α)}
    (hpresent : ∀ v ∈ ofCells f xs, v.isNull = false) :
    change p xs = (ofCells f xs).map fun v => some v.isMarked := by
  induction xs with
  | nil => rfl
  | cons x xs ih =>
    rw [ofCells, List.map_cons, List.forall_mem_cons] at hpresent
    cases x with
    | none => cases hpresent.1
    | some a =>
      rw [change, ofCells, List.map_cons, List.map_cons, List.map_cons]
      exact congr (congrArg List.cons (congrArg some (h a).symm)) (ih hpresent.2)

/-! ## Places -/

/-- The cell at a place as a value, null if there is none. -/
def cell (c : Cells) (i : Nat) : Value :=
  c.values[i]?.getD .null

/-- What a column holds is no column. -/
theorem isColumn_of_mem_values {c : Cells} {v : Value} (h : v ∈ c.values) :
    v.isColumn = false := by
  have hcells : ∀ {α : Type} {f : α → Value} {xs : List (Option α)},
      (∀ a, (f a).isColumn = false) → v ∈ ofCells f xs → v.isColumn = false := by
    intro α f xs hf hmem
    obtain ⟨x, -, rfl⟩ := List.mem_map.1 hmem
    cases x with
    | none => rfl
    | some a => exact hf a
  cases c with
  | nulls n =>
    rw [(List.mem_replicate.1 h).2]
    rfl
  | words xs =>
    refine hcells (fun w => ?_) h
    unfold wordValue
    split <;> rfl
  | _ => exact hcells (fun _ => rfl) h

/-- The cell of a column is no column. -/
theorem isColumn_cell (c : Cells) (i : Nat) : (c.cell i).isColumn = false := by
  unfold cell
  cases hv : c.values[i]? with
  | none => rfl
  | some v => exact isColumn_of_mem_values (List.mem_of_getElem? hv)

/-- The values of a column are its cells. -/
theorem getElem?_values {c : Cells} {i : Nat} (hi : i < c.length) :
    c.values[i]? = some (c.cell i) := by
  rw [cell, List.getElem?_eq_getElem (c.length_values.symm ▸ hi)]
  rfl

end Cells

namespace Column

/-! ## Columns as masks -/

/-- A column of numbers or booleans without nulls. -/
structure Determined (c : Column) : Prop where
  type : c.type.isNumeric = true ∨ c.type = .bool
  present : ∀ v ∈ c.values, v.isNull = false

/-- The marks of the elements of a column. -/
def marks (c : Column) : List (Option Bool) :=
  c.values.map fun v => some v.isMarked

@[simp]
theorem length_marks (c : Column) : c.marks.length = c.length := by
  rw [marks, List.length_map]
  exact Cells.length_values c.cells

/-- The mark at a place is the one of the cell there. -/
theorem getElem?_marks {c : Column} {i : Nat} (hi : i < c.length) :
    c.marks[i]? = some (some (c.cell i).isMarked) := by
  have hvalue : c.values[i]? = some (c.cell i) := Cells.getElem?_values hi
  rw [marks, List.getElem?_map, hvalue, Option.map_some]

/-- The mask of a column marks its elements. -/
theorem Determined.mask?_eq {c : Column} (h : c.Determined) :
    c.cells.mask? = some c.marks := by
  obtain ⟨name, cells⟩ := c
  obtain ⟨htype, hpresent⟩ := h
  cases cells with
  | ints xs => exact congrArg some (Cells.change_eq_map Value.isMarked_int hpresent)
  | floats xs => exact congrArg some (Cells.change_eq_map Value.isMarked_float hpresent)
  | bools xs =>
    have hxs : Cells.change id xs = xs := by simp [Cells.change]
    have hmask := Cells.change_eq_map (p := id) Value.isMarked_bool hpresent
    exact congrArg some (hxs.symm.trans hmask)
  | counts xs => exact congrArg some (Cells.change_eq_map Cells.isMarked_count hpresent)
  | int32s xs => exact congrArg some (Cells.change_eq_map Cells.isMarked_int32 hpresent)
  | words xs => exact congrArg some (Cells.change_eq_map Cells.isMarked_wordValue hpresent)
  | float32s xs => exact congrArg some (Cells.change_eq_map Cells.isMarked_wideFloat hpresent)
  | texts | nulls | lists => rcases htype with h | h <;> cases h

/-- A cell of a column of booleans. -/
theorem cell_bools {name : String} {cells : List (Option Bool)} {i : Nat} {b : Bool}
    (h : cells[i]? = some (some b)) : (Column.mk name (.bools cells)).cell i = .bool b := by
  simp [cell, values, Cells.values, Cells.ofCells, h]

section Logic

variable {c d : Column}

/-- Negation marks what the mask does not mark. -/
theorem Determined.not (hc : c.Determined) :
    ∃ r, Value.not (.column c) = .ok (.column r) ∧ r.length = c.length ∧
      ∀ i < c.length, r.cell i = .bool (!(c.cell i).isMarked) := by
  refine ⟨⟨c.name, .bools (Cells.change Bool.not c.marks)⟩, ?_, ?_, fun i hi => ?_⟩
  · rw [Value.not, not?, hc.mask?_eq]
    rfl
  · exact (Cells.length_change ..).trans c.length_marks
  · apply cell_bools
    rw [Cells.change, List.getElem?_map, getElem?_marks hi]
    rfl

/-- A connective marks what it makes of the two masks. -/
theorem Determined.connect (op : Connective) (hc : c.Determined) (hd : d.Determined)
    (hlength : c.length = d.length) :
    ∃ r, Value.connect op (.column c) (.column d) = .ok (.column r) ∧ r.length = c.length ∧
      ∀ i < c.length, r.cell i = .bool (op.apply (c.cell i).isMarked (d.cell i).isMarked) := by
  have hdetermined : ∀ x y : Bool, op.threeValued (some x) (some y) = some (op.apply x y) := by
    cases op with
    | and => exact threeValuedAnd_some
    | or => exact threeValuedOr_some
  have haligned : (Cells.bools c.marks).aligned? (.bools d.marks) =
      some (.bools c.marks, .bools d.marks) :=
    Cells.aligned?_of_length_eq (c.length_marks.trans (hlength.trans d.length_marks.symm))
  have hconnect : connect? op c d =
      some ⟨c.name, .bools (List.zipWith op.threeValued c.marks d.marks)⟩ := by
    simp [connect?, hc.mask?_eq, hd.mask?_eq, haligned]
  refine ⟨⟨c.name, .bools (List.zipWith op.threeValued c.marks d.marks)⟩, ?_, ?_, fun i hi => ?_⟩
  · have hoperands : Value.columnOperands? (.column c) (.column d) = some (.ok (c, d)) := rfl
    rw [Value.connect, hoperands]
    exact congrArg Value.ofColumn? hconnect
  · show (List.zipWith op.threeValued c.marks d.marks).length = c.length
    rw [List.length_zipWith, length_marks, length_marks, ← hlength, Nat.min_self]
  · apply cell_bools
    rw [List.getElem?_zipWith, getElem?_marks hi, getElem?_marks (hlength ▸ hi)]
    exact congrArg some (hdetermined _ _)

end Logic

end Column

/-! ## Branches -/

namespace Cells

/-- The cells in another type. -/
def inType? : ElementType → Cells → Option Cells
  | .int, c => c.ints?.map ints
  | .float, c => c.floats?.map floats
  | .bool, c => c.mask?.map bools
  | .text, c => c.texts?.map texts
  | .null, c => some (nulls c.length)
  | .count, c => c.counts?.map counts
  | .int32, c => c.int32s?.map int32s
  | .word, c => c.words?.map words
  | .float32, c => c.float32s?.map float32s
  | .list, c => c.lists?.map lists

/-- Two columns can be read in the type of a selection from them. -/
theorem exists_inType? {a b : Cells} {t : ElementType}
    (ht : selectionType? a.type b.type = some t) :
    ∃ l r, a.inType? t = some l ∧ b.inType? t = some r := by
  cases a <;> cases b <;> cases ht <;> exact ⟨_, _, rfl, rfl⟩

/-- In another type the cells are as many. -/
theorem inType?_eq_some {t : ElementType} {c l : Cells} (h : c.inType? t = some l) :
    l.type = t ∧ l.length = c.length := by
  cases t <;> cases c <;> first
    | cases h; exact ⟨rfl, by simp [length]⟩
    | cases h
    | skip
  -- A text column has a mask only if it is empty.
  next xs =>
    cases xs with
    | nil =>
      cases h
      exact ⟨rfl, rfl⟩
    | cons x xs => cases h

/-- Cells that are taken from one of two columns by a mask. -/
structure Chosen (mask : List Bool) (l r chosen : Cells) : Prop where
  length : chosen.length = mask.length
  getElem? : ∀ {i : Nat} {m : Bool}, mask[i]? = some m →
    chosen.values[i]? = if m = true then l.values[i]? else r.values[i]?

/-- A choice between cells of one type takes them by the mask. -/
theorem chosen_choose {α : Type} {of : List (Option α) → Cells} (f : α → Value)
    (hvalues : ∀ zs, (of zs).values = ofCells f zs) (hlength : ∀ zs, (of zs).length = zs.length)
    {mask : List Bool} {xs ys : List (Option α)} (hxs : (of xs).length = mask.length)
    (hys : (of ys).length = mask.length) :
    Chosen mask (of xs) (of ys) (of (choose mask xs ys)) := by
  rw [hlength] at hxs hys
  constructor
  · simp [hlength, choose, hxs, hys]
  · intro i m hm
    obtain ⟨hi, -⟩ := List.getElem?_eq_some_iff.1 hm
    have hchoose := getElem?_choose hm (List.getElem?_eq_getElem (hxs ▸ hi))
      (List.getElem?_eq_getElem (hys ▸ hi))
    cases m <;> simp [hvalues, ofCells, hchoose, List.getElem?_eq_getElem (hxs ▸ hi),
      List.getElem?_eq_getElem (hys ▸ hi)]

/-- A choice takes every cell from one of the two columns in their common type. -/
theorem choose?_eq_some {mask : List Bool} {a b l r : Cells} {t : ElementType}
    (ht : selectionType? a.type b.type = some t) (hl : a.inType? t = some l)
    (hr : b.inType? t = some r) (ha : a.length = mask.length) (hb : b.length = mask.length) :
    ∃ chosen, choose? mask a b = some chosen ∧ chosen.type = t ∧ Chosen mask l r chosen := by
  have hlength := (inType?_eq_some hl).2.trans ha
  have hlength' := (inType?_eq_some hr).2.trans hb
  unfold choose?
  rw [ht]
  cases t with
  | null =>
    cases hl
    cases hr
    refine ⟨nulls mask.length, rfl, rfl, rfl, fun hm => ?_⟩
    rw [ha, hb, ite_self]
  | _ =>
    obtain ⟨xs, hxs, rfl⟩ := Option.map_eq_some_iff.1 hl
    obtain ⟨ys, hys, rfl⟩ := Option.map_eq_some_iff.1 hr
    refine ⟨_, ?_, ?_, chosen_choose _ (fun _ => rfl) (fun _ => rfl) hlength hlength'⟩
    · simp [hxs, hys]
    · rfl

/-! ## Lengths -/

/-- Every length is the common one or one. -/
theorem eq_or_eq_one_of_commonLength? {lengths : List Nat} {n : Nat}
    (h : commonLength? lengths = some n) : ∀ k ∈ lengths, k = n ∨ k = 1 := by
  intro k hk
  by_cases hone : k = 1
  · exact .inr hone
  have hmem : k ∈ lengths.filter (· ≠ 1) := List.mem_filter.2 ⟨hk, decide_eq_true hone⟩
  unfold commonLength? at h
  split at h
  · next hnil =>
    rw [hnil] at hmem
    cases hmem
  · next m rest hcons =>
    rw [hcons] at hmem
    split at h
    · next hall =>
      cases h
      rcases List.mem_cons.1 hmem with heq | hrest
      · exact .inl heq
      · exact .inl (beq_iff_eq.1 (List.all_eq_true.1 hall k hrest))
    · cases h

theorem length_stretchList {α : Type} {n : Nat} {xs : List α}
    (h : xs.length = n ∨ xs.length = 1) : (stretchList n xs).length = n := by
  match xs, h with
  | [], h => simpa [stretchList] using h
  | [x], _ => simp [stretchList]
  | x :: y :: xs, h => simpa [stretchList] using h

theorem stretchList_map {α β : Type} (f : α → β) (n : Nat) (xs : List α) :
    stretchList n (xs.map f) = (stretchList n xs).map f := by
  match xs with
  | [] => rfl
  | [x] => simp [stretchList]
  | x :: y :: xs => rfl

/-- The values of a stretched column are stretched. -/
theorem values_stretch (n : Nat) (c : Cells) :
    (c.stretch n).values = stretchList n c.values := by
  cases c with
  | nulls m =>
    match m with
    | 0 | 1 | m + 2 => rfl
  | _ => exact (stretchList_map ..).symm

/-- The mask that a selection by a column takes from its elements. -/
theorem mask_stretch (n : Nat) (c : Cells) :
    stretchList n ((c.values.map fun v => some v.isMarked).map (·.getD false)) =
      (c.stretch n).values.map Value.isMarked := by
  rw [List.map_map, stretchList_map, values_stretch]
  rfl

/-- A stretched column has the length that was asked for. -/
theorem length_stretch {n : Nat} {c : Cells} (h : c.length = n ∨ c.length = 1) :
    (c.stretch n).length = n := by
  rw [← length_values] at h ⊢
  rw [values_stretch, length_stretchList h]

theorem type_stretch (n : Nat) (c : Cells) : (c.stretch n).type = c.type := by
  cases c <;> rfl

end Cells

namespace Column

/-- Two branches that a column can select from: both are repeated into columns, their types
meet, and the three columns have one length once those of a single cell are stretched. -/
structure Fits (c : Column) (thenValue elseValue : Value) (left right : Column) (n : Nat) :
    Prop where
  repeated_then : thenValue.repeated c.name c.length = .ok left
  repeated_else : elseValue.repeated c.name c.length = .ok right
  common : Cells.commonLength? [c.length, left.length, right.length] = some n
  type : (Cells.selectionType? left.type right.type).isSome = true

section Select

variable {c left right : Column} {thenValue elseValue : Value} {n : Nat}

/-- A selection by the mask of a column chooses between the stretched branches. -/
theorem select?_marks :
    select? c.marks left right =
      (Cells.commonLength? [c.length, left.length, right.length]).bind fun n =>
        (Cells.choose? ((c.cells.stretch n).values.map Value.isMarked) (left.cells.stretch n)
          (right.cells.stretch n)).map fun cells => ⟨left.name, cells⟩ := by
  rw [select?, length_marks]
  simp only [marks, values, Cells.mask_stretch, Option.map_eq_bind]
  rfl

/-- A selection takes every cell from the branches in their common type by the mask. -/
theorem Determined.select (hc : c.Determined) (h : Fits c thenValue elseValue left right n) :
    ∃ r l e, Value.select (.column c) thenValue elseValue = .ok (.column r) ∧ r.length = n ∧
      Cells.selectionType? left.type right.type = some r.type ∧
      (left.cells.stretch n).inType? r.type = some l ∧
      (right.cells.stretch n).inType? r.type = some e ∧
      ∀ i < n, r.cell i =
        if ((c.cells.stretch n).cell i).isMarked = true then l.cell i else e.cell i := by
  obtain ⟨hleft, hright, hcommon, htype⟩ := h
  have hlengths := Cells.eq_or_eq_one_of_commonLength? hcommon
  simp only [List.forall_mem_cons] at hlengths
  obtain ⟨hlength, hleftLength, hrightLength, -⟩ := hlengths
  obtain ⟨t, ht⟩ := Option.isSome_iff_exists.1 htype
  obtain ⟨l, e, hl, he⟩ :=
    Cells.exists_inType? (a := left.cells.stretch n) (b := right.cells.stretch n)
      (by rwa [Cells.type_stretch, Cells.type_stretch])
  have hmask : ((c.cells.stretch n).values.map Value.isMarked).length = n := by
    rw [List.length_map, Cells.length_values, Cells.length_stretch hlength]
  have hleftMask : (left.cells.stretch n).length =
      ((c.cells.stretch n).values.map Value.isMarked).length := by
    rw [hmask, Cells.length_stretch hleftLength]
  have hrightMask : (right.cells.stretch n).length =
      ((c.cells.stretch n).values.map Value.isMarked).length := by
    rw [hmask, Cells.length_stretch hrightLength]
  obtain ⟨chosen, hchoose, rfl, hchosen⟩ :=
    Cells.choose?_eq_some (by rwa [Cells.type_stretch, Cells.type_stretch]) hl he hleftMask
      hrightMask
  refine ⟨⟨left.name, chosen⟩, l, e, ?_, hchosen.length.trans hmask, ht, hl, he,
    fun i hi => ?_⟩
  · have hselect : select? c.marks left right = some ⟨left.name, chosen⟩ := by
      rw [select?_marks, hcommon, Option.bind_some, hchoose, Option.map_some]
    rw [Value.select, Value.selectCells, hc.mask?_eq]
    simp only [hleft, hright, hselect]
    rfl
  · have hplace : i < (c.cells.stretch n).length := by rwa [Cells.length_stretch hlength]
    have hmarked : ((c.cells.stretch n).values.map Value.isMarked)[i]? =
        some ((c.cells.stretch n).cell i).isMarked := by
      rw [List.getElem?_map, Cells.getElem?_values hplace, Option.map_some]
    show chosen.values[i]?.getD .null = _
    rw [hchosen.getElem? hmarked, apply_ite (Option.getD · Value.null)]
    rfl

/-- A column selects only from branches that fit. -/
theorem Determined.exists_fits (hc : c.Determined) {v : Value}
    (h : Value.select (.column c) thenValue elseValue = .ok v) :
    ∃ left right n, Fits c thenValue elseValue left right n := by
  rw [Value.select, Value.selectCells, hc.mask?_eq] at h
  split at h
  · cases h
  · next mask hmask =>
    cases hmask
    split at h
    · cases h
    · next left hleft =>
      split at h
      · cases h
      · next right hright =>
        have hselect : select? c.marks left right ≠ none := by
          intro hnone
          rw [hnone] at h
          cases h
        rw [select?_marks] at hselect
        cases hcommon : Cells.commonLength? [c.length, left.length, right.length] with
        | none => exact absurd (by rw [hcommon, Option.bind_none]) hselect
        | some n =>
          rw [hcommon, Option.bind_some, Ne, Option.map_eq_none_iff] at hselect
          refine ⟨left, right, n, hleft, hright, hcommon, Option.isSome_iff_ne_none.2 ?_⟩
          intro hnone
          refine hselect ?_
          rw [Cells.choose?, Cells.type_stretch, Cells.type_stretch]
          exact hnone ▸ rfl

end Select

end Column

/-! ## Elements -/

namespace Value

/-- A scalar is negated by its truth. -/
theorem not_eq_ok {v : Value} (h : v.isColumn = false) :
    Value.not v = .ok (bool (!v.isTruthy)) := by
  cases v <;> first | rfl | cases h

/-- Scalars are connected by their truth. -/
theorem connect_eq_ok (op : Connective) {v w : Value} (hv : v.isColumn = false)
    (hw : w.isColumn = false) : connect op v w = .ok (bool (op.apply v.isTruthy w.isTruthy)) := by
  rw [connect, columnOperands?_eq_none hv hw]

/-- A scalar chooses a branch by its truth. -/
theorem select_eq_ok {v : Value} (h : v.isColumn = false) (thenValue elseValue : Value) :
    select v thenValue elseValue = .ok (if v.isTruthy then thenValue else elseValue) := by
  cases v <;> first | rfl | cases h

/-- A defined value that decides a connective whatever the other one is. -/
def Settles (op : Connective) (v : Value) : Prop :=
  v.isUndefined = false ∧ op.apply v.isTruthy true = op.apply v.isTruthy false

/-- Marks connect like truth exactly if both operands are defined or one settles the result. -/
theorem apply_isMarked_iff (op : Connective) (v w : Value) :
    op.apply v.isTruthy w.isTruthy = op.apply v.isMarked w.isMarked ↔
      (v.isUndefined = false ∧ w.isUndefined = false) ∨ v.Settles op ∨ w.Settles op := by
  have hv := @isTruthy_of_isUndefined v
  have hw := @isTruthy_of_isUndefined w
  unfold isMarked Settles
  generalize v.isTruthy = x, v.isUndefined = x', w.isTruthy = y, w.isUndefined = y' at *
  revert x x' y y'
  cases op <;> decide

/-- Logic on columns without nulls goes by the elements.  Negation does so exactly at the places
whose element is defined, a connective at those where both are defined or one defined element
settles it.  A selection gives a column exactly if the branches fit; a defined element takes the
branch that it takes as a value, and the undefined float takes the first branch, the
second one as a value. -/
theorem logic_elementwise {c : Column} (hc : c.Determined) :
    (∃ r, Value.not (column c) = .ok (column r) ∧ r.length = c.length ∧
      ∀ i < c.length,
        (Value.not (c.cell i) = .ok (r.cell i) ↔ (c.cell i).isUndefined = false)) ∧
    (∀ op (d : Column), d.Determined → c.length = d.length →
      ∃ r, connect op (column c) (column d) = .ok (column r) ∧ r.length = c.length ∧
        ∀ i < c.length, (connect op (c.cell i) (d.cell i) = .ok (r.cell i) ↔
          ((c.cell i).isUndefined = false ∧ (d.cell i).isUndefined = false) ∨
            (c.cell i).Settles op ∨ (d.cell i).Settles op)) ∧
    (∀ thenValue elseValue, (∃ v, select (column c) thenValue elseValue = .ok v) ↔
      ∃ left right n, c.Fits thenValue elseValue left right n) ∧
    ∀ thenValue elseValue left right n, c.Fits thenValue elseValue left right n →
      ∃ r l e, select (column c) thenValue elseValue = .ok (column r) ∧ r.length = n ∧
        Cells.selectionType? left.type right.type = some r.type ∧
        (left.cells.stretch n).inType? r.type = some l ∧
        (right.cells.stretch n).inType? r.type = some e ∧
        ∀ i < n, let x := (c.cells.stretch n).cell i
          (x.isUndefined = false → select x (l.cell i) (e.cell i) = .ok (r.cell i)) ∧
          (x.isUndefined = true →
            r.cell i = l.cell i ∧ select x (l.cell i) (e.cell i) = .ok (e.cell i)) := by
  have hscalar : ∀ (c : Column) i, (c.cell i).isColumn = false := fun c =>
    c.cells.isColumn_cell
  refine ⟨?_, fun op d hd hlength => ?_, fun thenValue elseValue => ⟨?_, ?_⟩,
    fun thenValue elseValue left right n hfits => ?_⟩
  · obtain ⟨r, hnot, hlength, hcell⟩ := hc.not
    refine ⟨r, hnot, hlength, fun i hi => ?_⟩
    rw [not_eq_ok (hscalar c i), hcell i hi, Except.ok.injEq, bool.injEq, Bool.not_inj_iff]
    exact isTruthy_eq_isMarked_iff
  · obtain ⟨r, hconnect, hlength', hcell⟩ := hc.connect op hd hlength
    refine ⟨r, hconnect, hlength', fun i hi => ?_⟩
    rw [connect_eq_ok op (hscalar c i) (hscalar d i), hcell i hi,
      Except.ok.injEq, bool.injEq]
    exact apply_isMarked_iff op _ _
  · rintro ⟨v, hv⟩
    exact hc.exists_fits hv
  · rintro ⟨left, right, n, hfits⟩
    obtain ⟨r, -, -, hselect, -⟩ := hc.select hfits
    exact ⟨_, hselect⟩
  · obtain ⟨r, l, e, hselect, hlength, htype, hl, he, hcell⟩ := hc.select hfits
    refine ⟨r, l, e, hselect, hlength, htype, hl, he, fun i hi => ⟨fun hx => ?_, fun hx => ?_⟩⟩
    · rw [select_eq_ok (Cells.isColumn_cell _ i), hcell i hi, isMarked_eq_isTruthy hx]
    · rw [select_eq_ok (Cells.isColumn_cell _ i), hcell i hi, isTruthy_of_isUndefined hx,
        isMarked, hx, Bool.or_true]
      exact ⟨rfl, rfl⟩

/-- The undefined float selects the first branch in a column and the second one as a value. -/
theorem logic_elementwise_undefined :
    ∃ r, select (column ⟨"c", .floats [some (0 / 0)]⟩) (int 1) (int 2) = .ok (column r) ∧
      r.cell 0 = int 1 ∧ select (float (0 / 0)) (int 1) (int 2) = .ok (int 2) := by
  have hdetermined : (Column.mk "c" (.floats [some (0 / 0)])).Determined := by
    refine ⟨.inl rfl, fun v hv => ?_⟩
    rw [List.mem_singleton.1 hv]
    rfl
  have hfits : (Column.mk "c" (.floats [some (0 / 0)])).Fits (int 1) (int 2)
      ⟨"c", .ints [some 1]⟩ ⟨"c", .ints [some 2]⟩ 1 := ⟨rfl, rfl, rfl, rfl⟩
  obtain ⟨-, -, -, hselect⟩ := logic_elementwise hdetermined
  obtain ⟨r, l, e, hr, -, htype, hl, he, hcell⟩ := hselect _ _ _ _ _ hfits
  have hundefined : (float (0 / 0)).isUndefined = true := by decide +kernel
  obtain ⟨hfirst, hsecond⟩ := (hcell 0 Nat.zero_lt_one).2 hundefined
  rw [← Option.some.inj htype] at hl he
  cases hl
  cases he
  exact ⟨r, hr, hfirst, hsecond⟩

end Value

end Formulary
