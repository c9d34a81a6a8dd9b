import Formulary.Proofs.Column.Truth
import Formulary.Proofs.Compilation.Meaning

/-!
# Conditions that are columns

A condition that is a column of booleans takes every cell from one of two branches: from the
first one where it is true, and from the second one where it is false or null.  A branch that
is a scalar stands at every place, and a branch that is a column of the same length gives its
cell there.  The branches have cells of one type, or one of them is null.  No other value can be
a branch.

Main definitions:

- `Value.Branch`: a value that has a cell at every place, and the type of its cells.

Main results:

- Theorem `Column.select?_eq_some`: a selection from columns of one length.
- Theorem `evaluate_conditional_column`: a conditional whose condition is a column.
-/

namespace Formulary

/-! ## Types -/

/-- The type in which two types meet, of which null gives way to the other. -/
def ElementType.meet (t u : ElementType) : ElementType :=
  if t = .null then u else t

namespace ElementType

variable {t u : ElementType}

/-- A type meets another in itself, unless it is the type of nulls. -/
theorem meet_left (t u : ElementType) : t = t.meet u ∨ t = .null := by
  by_cases h : t = .null
  · exact .inr h
  · exact .inl (if_neg h).symm

theorem meet_right (h : t = u ∨ t = .null ∨ u = .null) : u = t.meet u ∨ u = .null := by
  by_cases ht : t = .null
  · exact .inl (if_pos ht).symm
  · rcases h with rfl | hnull | hnull
    · exact .inl (if_neg ht).symm
    · exact absurd hnull ht
    · exact .inr hnull

end ElementType

namespace Cells

/-- A selection from branches of one type has that type, and null gives way to any type. -/
theorem selectionType?_of_meets {t u : ElementType} (h : t = u ∨ t = .null ∨ u = .null) :
    selectionType? t u = some (t.meet u) := by
  revert h
  cases t <;> cases u <;> decide

/-- Cells are read in their own type as they are, and cells of nulls stay nulls in any type. -/
theorem exists_inType?_of_type {c : Cells} {t : ElementType} (h : c.type = t ∨ c.type = .null) :
    ∃ d, c.inType? t = some d ∧ d.values = c.values := by
  rcases h with rfl | hnull
  · refine ⟨c, ?_, rfl⟩
    cases c <;> rfl
  · cases c with
    | nulls n => cases t <;> exact ⟨_, rfl, by simp [values, ofCells, length]⟩
    | _ => cases hnull

/-- A column of the right length is not stretched. -/
theorem stretch_of_length {c : Cells} {n : Nat} (h : c.length = n) : c.stretch n = c := by
  cases c with
  | nulls m =>
    have hm : m = n := h
    rw [stretch, hm, ite_self]
  | _ => exact congrArg _ (stretchList_of_length h)

end Cells

/-! ## Branches -/

namespace Value

/-- A value that has a cell at each of `n` places: a scalar, which stands at every place, or a
column of `n` cells. -/
inductive Branch (n : Nat) : Value → ElementType → Prop where
  | null : Branch n null .null
  | bool (b : Bool) : Branch n (bool b) .bool
  | int (w : Int64) : Branch n (int w) .int
  | float (x : Float) : Branch n (float x) .float
  | text (s : String) : Branch n (text s) .text
  | column (c : Column) (h : c.length = n) : Branch n (column c) c.type

/-- The column of a branch has its cells. -/
structure Branch.Fills (n : Nat) (v : Value) (t : ElementType) (c : Column) : Prop where
  length : c.length = n
  type : c.type = t
  cell : ∀ i < n, c.cell i = v.element i

/-- A branch is repeated into the column of its cells. -/
theorem Branch.exists_repeated {n : Nat} {v : Value} {t : ElementType} (h : Branch n v t)
    (name : String) : ∃ c, v.repeated name n = .ok c ∧ Branch.Fills n v t c := by
  cases h with
  | column c hlength => exact ⟨c, rfl, hlength, rfl, fun i hi => rfl⟩
  | _ =>
    refine ⟨_, rfl, by simp [Column.length, Cells.length], rfl, fun i hi => ?_⟩
    simp [Column.cell, Column.values, Cells.values, Cells.ofCells, hi, element]

/-- Lists, maps and frames cannot be repeated. -/
theorem repeated_of_composite {v : Value} (h : v.type = .list ∨ v.type = .map ∨ v.type = .frame)
    (name : String) (n : Nat) : v.repeated name n = .error (.notRepeatable v.type) := by
  cases v <;> first | rfl | simp [type] at h

end Value

/-! ## Selections -/

namespace Column

/-- A selection from columns of one length takes the cells by the mask. -/
theorem select?_eq_some {mask : List (Option Bool)} {left right : Column} {l r : Cells}
    {n : Nat} {t : ElementType} (hmask : mask.length = n) (hleft : left.length = n)
    (hright : right.length = n) (ht : Cells.selectionType? left.type right.type = some t)
    (hl : left.cells.inType? t = some l) (hr : right.cells.inType? t = some r) :
    ∃ chosen, select? mask left right = some ⟨left.name, chosen⟩ ∧ chosen.type = t ∧
      Cells.Chosen (mask.map (·.getD false)) l r chosen := by
  have hlength : (mask.map (·.getD false)).length = n := by rw [List.length_map, hmask]
  obtain ⟨chosen, hchoose, htype, hchosen⟩ :=
    Cells.choose?_eq_some ht hl hr (hleft.trans hlength.symm) (hright.trans hlength.symm)
  refine ⟨chosen, ?_, htype, hchosen⟩
  have hcommon : Cells.commonLength? [mask.length, left.length, right.length] = some n := by
    rw [hmask, hleft, hright, Cells.commonLength?_same]
  simp [select?, hcommon, Cells.stretchList_of_length hlength, Cells.stretch_of_length hleft,
    Cells.stretch_of_length hright, hchoose]

end Column

namespace Value

variable {name : String} {mask : List (Option Bool)} {n : Nat} {thenValue elseValue : Value}
  {t u : ElementType}

/-- A column of booleans selects from the columns of the branches. -/
theorem select_bools :
    select (column ⟨name, .bools mask⟩) thenValue elseValue = (do
      let left ← thenValue.repeated name mask.length
      let right ← elseValue.repeated name mask.length
      ofColumn? (Column.select? mask left right)) := by
  have hmask : (Cells.bools mask).mask? = some mask := rfl
  have hlength : (Column.mk name (.bools mask)).length = mask.length := rfl
  simp only [select, selectCells, hmask, hlength]
  cases thenValue.repeated name mask.length with
  | error err => rfl
  | ok left => cases elseValue.repeated name mask.length <;> rfl

/-- A column of booleans takes the elements of the first branch where it is true, and those of
the second one elsewhere. -/
theorem select_of_branches (hmask : mask.length = n) (hthen : Branch n thenValue t)
    (helse : Branch n elseValue u) (hmeets : t = u ∨ t = .null ∨ u = .null) :
    ∃ r, select (column ⟨name, .bools mask⟩) thenValue elseValue = .ok (column r) ∧
      r.length = n ∧ r.type = t.meet u ∧
      ∀ i < n, r.cell i =
        if mask[i]? = some (some true) then thenValue.element i else elseValue.element i := by
  obtain ⟨left, hleft, hleftLength, rfl, hleftCell⟩ := hthen.exists_repeated name
  obtain ⟨right, hright, hrightLength, rfl, hrightCell⟩ := helse.exists_repeated name
  have ht := Cells.selectionType?_of_meets hmeets
  obtain ⟨l, hl, hlvalues⟩ := Cells.exists_inType?_of_type (left.type.meet_left right.type)
  obtain ⟨r, hr, hrvalues⟩ := Cells.exists_inType?_of_type (ElementType.meet_right hmeets)
  obtain ⟨chosen, hselect, htype, hchosen⟩ :=
    Column.select?_eq_some hmask hleftLength hrightLength ht hl hr
  refine ⟨⟨left.name, chosen⟩, ?_, ?_, htype, fun i hi => ?_⟩
  · rw [select_bools, hmask, hleft, hright]
    exact congrArg ofColumn? hselect
  · refine hchosen.length.trans ?_
    rw [List.length_map, hmask]
  · have hplace := List.getElem?_eq_getElem (hmask.symm ▸ hi : i < mask.length)
    have hmark : (mask.map (·.getD false))[i]? = some (mask[i].getD false) := by
      rw [List.getElem?_map, hplace, Option.map_some]
    show chosen.values[i]?.getD .null = _
    rw [hchosen.getElem? hmark, hlvalues, hrvalues, ← hleftCell i hi, ← hrightCell i hi, hplace]
    cases mask[i] with
    | none => rfl
    | some b => cases b <;> rfl

/-- No branch is a list, a map or a frame. -/
theorem select_of_composite {v : Value} (h : v.type = .list ∨ v.type = .map ∨ v.type = .frame)
    (hbranch : v = thenValue ∨ v = elseValue) :
    ∃ err, select (column ⟨name, .bools mask⟩) thenValue elseValue = .error err := by
  have hv := repeated_of_composite h name mask.length
  rw [select_bools]
  rcases hbranch with rfl | rfl
  · rw [hv]
    exact ⟨_, rfl⟩
  · rw [hv]
    cases thenValue.repeated name mask.length with
    | error err => exact ⟨err, rfl⟩
    | ok left => exact ⟨_, rfl⟩

end Value

/-! ## Conditionals -/

/-- A condition that is a column of booleans takes the elements of the first branch where it is
true, and those of the second one where it is false or null, if both have cells at its places
and their types meet.  With a list, a map or a frame as a branch it fails. -/
theorem evaluate_conditional_column (s : Scope) {c t e : Expr} {name : String}
    {mask : List (Option Bool)} (hc : s.evaluate c = .ok (.column ⟨name, .bools mask⟩)) :
    (∀ thenValue elseValue thenType elseType,
      s.evaluate t = .ok thenValue → s.evaluate e = .ok elseValue →
      thenValue.Branch mask.length thenType → elseValue.Branch mask.length elseType →
      thenType = elseType ∨ thenType = .null ∨ elseType = .null →
      ∃ r, s.evaluate (.conditional c t e) = .ok (.column r) ∧ r.length = mask.length ∧
        r.type = thenType.meet elseType ∧
        ∀ i < mask.length, r.cell i =
          if mask[i]? = some (some true) then thenValue.element i else elseValue.element i) ∧
    ∀ v, s.evaluate t = .ok v ∨ s.evaluate e = .ok v →
      v.type = .list ∨ v.type = .map ∨ v.type = .frame →
      ∃ err, s.evaluate (.conditional c t e) = .error err := by
  have hchoice : s.evaluate (.conditional c t e) = (s.evaluate t >>= fun thenValue =>
      s.evaluate e >>= fun elseValue =>
        evaluated (Value.select (.column ⟨name, .bools mask⟩) thenValue elseValue)) := by
    rw [evaluate_conditional, choice, hc]
    rfl
  rw [hchoice]
  refine ⟨fun thenValue elseValue thenType elseType ht he hthen helse hmeets => ?_,
    fun v hv hcomposite => ?_⟩
  · obtain ⟨r, hselect, hr⟩ := Value.select_of_branches rfl hthen helse hmeets
    refine ⟨r, ?_, hr⟩
    rw [ht, he]
    exact congrArg evaluated hselect
  · cases ht : s.evaluate t with
    | error err => exact ⟨err, rfl⟩
    | ok thenValue =>
      cases he : s.evaluate e with
      | error err => exact ⟨err, rfl⟩
      | ok elseValue =>
        rw [ht, he, Except.ok.injEq, Except.ok.injEq] at hv
        obtain ⟨err, herr⟩ := Value.select_of_composite hcomposite (hv.imp Eq.symm Eq.symm)
        exact ⟨.evaluation err, congrArg evaluated herr⟩

/-- A null in the condition takes the second branch, and a list is no branch. -/
theorem evaluate_conditional_column_null :
    let s : Scope :=
      ⟨Table.empty.put "m" (.list [.column ⟨"m", .bools [some true, none]⟩, .list []]), .empty⟩
    let c := Expr.binding ⟨"m", .index 0⟩
    (∃ r, s.evaluate (.conditional c (.literal (.text "yes")) (.literal .null)) =
        .ok (.column r) ∧ r.length = 2 ∧ r.type = .text ∧
      r.cell 0 = .text "yes" ∧ r.cell 1 = .null) ∧
    ∃ err, s.evaluate (.conditional c (.binding ⟨"m", .index 1⟩) (.literal .null)) =
      .error err := by
  intro s c
  have hc : s.evaluate c = .ok (.column ⟨"m", .bools [some true, none]⟩) := rfl
  constructor
  · obtain ⟨r, hr, hlength, htype, hcell⟩ :=
      (evaluate_conditional_column s (t := .literal (.text "yes")) (e := .literal .null) hc).1
        (.text "yes") .null .text .null rfl rfl (.text "yes") .null (.inr (.inr rfl))
    exact ⟨r, hr, hlength, htype, hcell 0 Nat.two_pos, hcell 1 Nat.one_lt_two⟩
  · exact (evaluate_conditional_column s hc).2 (.list []) (.inl rfl) (.inl rfl)

end Formulary
