import Formulary.Proofs.Function.Sum
import Formulary.Proofs.Value.Conversion

/-!
# Subscripts

A position counts from the start of a row of values, and from its end when it is negative.  The
sum of the length and a negative position is always a word, so that the place which is found is
the exact one.  Lists and columns find the same element, a frame finds the same column by its
position and by its name, and the cells of that column are what the rows of the document of the
frame show.

Main definitions:

- `Value.Stands`: what a position finds in a row of values.
- `Value.IsFrame`: columns that make a frame.

Main results:

- Theorem `position?_eq_some_iff`: the place of a position.
- Theorem `Value.stands_index_list`: what a list has at a position.
- Theorem `Value.index_column`: a column is subscripted like the list of its elements.
- Theorem `Value.subscript_coherent`: all sources together.
-/

namespace Formulary

/-! ## Positions -/

/-- A length plus a negative position is a word. -/
theorem toInt_add_of_neg {n i : Int64} (hn : 0 ≤ n.toInt) (hi : i.toInt < 0) :
    (n + i).toInt = n.toInt + i.toInt := by
  have hnlt := Int64.toInt_lt n
  have hile := Int64.le_toInt i
  rw [Int64.toInt_add]
  exact Int.bmod_eq_of_le (by omega) (by omega)

/-- A position that is found lies inside the row. -/
theorem lt_of_position? {i : Int64} {length place : Nat}
    (h : position? i length = some place) : place < length := by
  obtain ⟨n, hn, h⟩ := Option.bind_eq_some_iff.1 h
  have hlength := word?_eq_some_iff.1 hn
  simp only [Option.ite_none_right_eq_some, Option.some.injEq] at h
  obtain ⟨⟨hlow, hhigh⟩, rfl⟩ := h
  rw [Int64.le_iff_toInt_le, Int64.toInt_zero] at hlow
  rw [Int64.lt_iff_toInt_lt] at hhigh
  omega

/-- The place of a position is the position itself, or the length and the position. -/
theorem position?_eq_some_iff {i : Int64} {length place : Nat} (hlength : IsWord length) :
    position? i length = some place ↔
      place < length ∧ ((place : Int) = i.toInt ∨ (place : Int) = length + i.toInt) := by
  cases hn : word? length with
  | none => exact absurd hlength (not_isWord_of_word? hn)
  | some n =>
    have hvalue := word?_eq_some_iff.1 hn
    simp only [position?, hn, Option.bind_some, Option.ite_none_right_eq_some,
      Option.some.injEq, Int64.le_iff_toInt_le, Int64.lt_iff_toInt_lt, Int64.toInt_zero]
    split
    · next hi =>
      rw [toInt_add_of_neg (by omega) hi]
      omega
    · omega

namespace Value

/-! ## Lists and columns -/

/-- What stands at a position of a row of values: one of its values, counted from the start or
from the end, or null outside of the row. -/
structure Stands (items : List Value) (i : Int) (v : Value) : Prop where
  fromStart : 0 ≤ i → i < items.length → items[i.toNat]? = some v
  fromEnd : -items.length ≤ i → i < 0 → items[(items.length + i).toNat]? = some v
  outside : i < -items.length ∨ items.length ≤ i → v = null

/-- A list has the value that stands at the position. -/
theorem stands_index_list {items : List Value} (h : IsWord items.length) (i : Int64) :
    ∃ v, index i (list items) = .ok v ∧ Stands items i.toInt v := by
  refine ⟨_, rfl, ?_⟩
  have found : ∀ place : Nat, place < items.length →
      ((place : Int) = i.toInt ∨ (place : Int) = items.length + i.toInt) →
      items[place]? =
        some (((position? i items.length).bind (items[·]?)).getD null) := by
    intro place hplace hi
    rw [(position?_eq_some_iff h).2 ⟨hplace, hi⟩]
    simp [hplace]
  constructor
  · intro hlow hhigh
    exact found _ (by omega) (.inl (by omega))
  · intro hlow hhigh
    exact found _ (by omega) (.inr (by omega))
  · intro hout
    cases hplace : position? i items.length with
    | none => rfl
    | some place =>
      have := (position?_eq_some_iff h).1 hplace
      omega

/-- A column is subscripted like the list of its elements. -/
theorem index_column (i : Int64) (c : Column) :
    index i (column c) = index i (list c.values) := by
  have hlength : c.values.length = c.length := Cells.length_values c.cells
  simp only [index, hlength]
  cases hplace : position? i c.length with
  | none => rfl
  | some place => rfl

/-! ## Frames -/

/-- The columns make a frame: their names are distinct and they are of one height. -/
structure IsFrame (columns : List Column) : Prop where
  names : (columns.map Column.name).Nodup
  heights : ∀ c ∈ columns, c.length = frameHeight columns

variable {columns : List Column}

/-- A column of a frame is found by its name. -/
theorem IsFrame.field_name (h : IsFrame columns) {c : Column} (hc : c ∈ columns) :
    field c.name (frame columns) = .ok (column c) := by
  have hfind : findColumn c.name columns = some c := by
    have hnames := h.names
    clear h
    induction columns with
    | nil => cases hc
    | cons d columns ih =>
      rw [List.map_cons, List.nodup_cons] at hnames
      rcases List.mem_cons.1 hc with rfl | hc
      · exact List.find?_cons_of_pos (by simp)
      · have hne : d.name ≠ c.name := fun heq =>
          hnames.1 (heq ▸ List.mem_map_of_mem hc)
        rw [findColumn, List.find?_cons_of_neg (by simpa using hne)]
        exact ih hc hnames.2
  rw [field, hfind]
  rfl

/-- A column of a frame is found by its place, counted from the start or from the end. -/
theorem index_frame_of_place (hwidth : IsWord columns.length) {i : Int64} {place : Nat}
    {c : Column} (hc : columns[place]? = some c)
    (hi : (place : Int) = i.toInt ∨ (place : Int) = columns.length + i.toInt) :
    index i (frame columns) = .ok (column c) := by
  have hplace : place < columns.length := (List.getElem?_eq_some_iff.1 hc).1
  rw [index, (position?_eq_some_iff hwidth).2 ⟨hplace, hi⟩, Option.bind_some, hc]
  rfl

/-- No column of a frame is found outside of it. -/
theorem index_frame_of_outside (hwidth : IsWord columns.length) {i : Int64}
    (hi : i.toInt < -columns.length ∨ columns.length ≤ i.toInt) :
    index i (frame columns) = .ok null := by
  rw [index]
  cases hplace : position? i columns.length with
  | none => rfl
  | some place =>
    have := (position?_eq_some_iff hwidth).1 hplace
    omega

/-- The cell of a column in a row is what the position of the row finds. -/
theorem index_column_eq_cell {c : Column} (hheight : IsWord c.length) {i : Int64}
    (hlow : 0 ≤ i.toInt) (hhigh : i.toInt < c.length) :
    index i (column c) = .ok (c.cell i.toInt.toNat) := by
  have hplace : position? i c.length = some i.toInt.toNat :=
    (position?_eq_some_iff hheight).2 ⟨by omega, .inl (by omega)⟩
  rw [index, hplace]
  rfl

/-- A row of the document of a frame shows, under the name of a column, what the position of
the row finds in the column of that name. -/
theorem IsFrame.cell_of_row (h : IsFrame columns) (hheight : IsWord (frameHeight columns))
    {i : Int64} {fields : List (String × Document)} (hlow : 0 ≤ i.toInt)
    (hhigh : i.toInt < frameHeight columns) (hrow : IsRow columns i.toInt.toNat fields)
    {c : Column} (hc : c ∈ columns) :
    ∃ v d, (field c.name (frame columns)).bind (index i) = .ok v ∧ v.document = .ok d ∧
      findEntry c.name fields = some d := by
  have hlength := h.heights c hc
  obtain ⟨d, hd⟩ := hrow.defined c hc
  refine ⟨c.cell i.toInt.toNat, d, ?_, hd, (hrow.holds _ _).2 ⟨c, hc, rfl, hd⟩⟩
  rw [h.field_name hc]
  exact index_column_eq_cell (hlength ▸ hheight) hlow (hlength ▸ hhigh)

/-! ## All sources -/

/-- Subscripts are exact and agree across sources.  A list or column has at every word the
element that the word counts from the start, or from the end if it is negative, and null outside;
no sum on the way overflows, and no place outside is looked at.  A column is subscripted like the
list of its elements.  A frame has the same column at a position and under the name of the column
there, and in that column at the position of a row what the document of the frame shows in this
row under this name.  A map has at a position what it has under the decimal text of the
position. -/
theorem subscript_coherent :
    (∀ (items : List Value) (i : Int64), IsWord items.length →
      ∃ v, index i (list items) = .ok v ∧ Stands items i.toInt v) ∧
    (∀ (c : Column) (i : Int64), index i (column c) = index i (list c.values) ∧
      (IsWord c.length → ∃ v, index i (column c) = .ok v ∧ Stands c.values i.toInt v)) ∧
    (∀ (i n : Int64) (length : Nat), word? length = some n → i < 0 →
      (n + i).toInt = length + i.toInt) ∧
    (∀ (i : Int64) (length place : Nat), position? i length = some place → place < length) ∧
    (∀ columns : List Column, IsFrame columns → IsWord columns.length →
      IsWord (frameHeight columns) →
      (∀ (i : Int64) (place : Nat) (c : Column), columns[place]? = some c →
        ((place : Int) = i.toInt ∨ (place : Int) = columns.length + i.toInt) →
        index i (frame columns) = .ok (column c) ∧
          field c.name (frame columns) = .ok (column c)) ∧
      (∀ i : Int64, i.toInt < -columns.length ∨ columns.length ≤ i.toInt →
        index i (frame columns) = .ok null) ∧
      ∀ d, (frame columns).document = .ok d →
        ∃ rows : List (List (String × Document)), d = .list (rows.map .object) ∧
          rows.length = frameHeight columns ∧
          ∀ (r : Int64) (fields : List (String × Document)), 0 ≤ r.toInt →
            rows[r.toInt.toNat]? = some fields → ∀ c ∈ columns,
            ∃ v d, (field c.name (frame columns)).bind (index r) = .ok v ∧
              v.document = .ok d ∧ findEntry c.name fields = some d) ∧
    ∀ (entries : List (String × Value)) (i : Int64),
      index i (map entries) = field (toString i.toInt) (map entries) := by
  refine ⟨fun items i h => stands_index_list h i, fun c i => ⟨index_column i c, fun h => ?_⟩,
    fun i n length hn hi => ?_, fun i length place => lt_of_position?, fun columns hframe hwidth
    hheight => ⟨fun i place c hc hi => ?_, fun i => index_frame_of_outside hwidth,
    fun d hd => ?_⟩, fun entries i => ?_⟩
  · have hlength : c.values.length = c.length := Cells.length_values c.cells
    rw [index_column]
    exact stands_index_list (hlength ▸ h) i
  · have hvalue := word?_eq_some_iff.1 hn
    rw [Int64.lt_iff_toInt_lt, Int64.toInt_zero] at hi
    rw [toInt_add_of_neg (by omega) hi, hvalue]
  · exact ⟨index_frame_of_place hwidth hc hi, hframe.field_name (List.mem_of_getElem? hc)⟩
  · obtain ⟨rows, hrows, rfl⟩ := (document_frame_eq_ok_iff hframe.names).1 hd
    have hlength : rows.length = frameHeight columns := by
      rw [← hrows.length_eq, List.length_range]
    refine ⟨rows, rfl, hlength, fun r fields hlow hfields c hc => ?_⟩
    have hr : r.toInt.toNat < rows.length := (List.getElem?_eq_some_iff.1 hfields).1
    have hrow : IsRow columns r.toInt.toNat fields := by
      have hget := hrows.get (by rwa [hrows.length_eq]) hr
      rwa [List.get_eq_getElem, List.getElem_range, List.get_eq_getElem,
        (List.getElem?_eq_some_iff.1 hfields).2] at hget
    exact hframe.cell_of_row hheight hlow (by omega) hrow hc
  · rw [← Text.integerText_eq_toString]
    rfl

/-- Past the front of a list, from the end of a frame, and a cell of its second row. -/
theorem subscript_coherent_twoColumns :
    (IsWord ([int 4, text "x"] : List Value).length ∧
      index Int64.minValue (list [int 4, text "x"]) = .ok null) ∧
    (IsFrame twoColumns ∧ IsWord twoColumns.length ∧ IsWord (frameHeight twoColumns) ∧
      index (-2) (frame twoColumns) = .ok (column ⟨"b", .ints [some 1, none]⟩) ∧
      field "b" (frame twoColumns) = .ok (column ⟨"b", .ints [some 1, none]⟩)) ∧
    ∃ v d, (field "a" (frame twoColumns)).bind (index 1) = .ok v ∧ v.document = .ok d ∧
      findEntry "a" [("a", .number (.decimal 1.0)), ("b", .null)] = some d := by
  have hframe : IsFrame twoColumns := ⟨by decide, by decide⟩
  obtain ⟨hlist, -, -, -, hframes, -⟩ := subscript_coherent
  obtain ⟨hplace, -, hrows⟩ := hframes twoColumns hframe (by decide) (by decide)
  refine ⟨⟨by decide, ?_⟩, ⟨hframe, by decide, by decide, ?_⟩, ?_⟩
  · obtain ⟨v, hv, hstands⟩ := hlist [int 4, text "x"] Int64.minValue (by decide)
    rw [hv, hstands.outside (.inl (by decide))]
  · exact hplace (-2) 0 _ rfl (.inr (by decide))
  · obtain ⟨rows, hdocument, -, hcells⟩ := hrows _ document_twoColumns
    have hsame : twoRows = rows := by
      rw [Document.list.injEq] at hdocument
      exact List.map_injective_iff.2 (fun _ _ h => Document.object.inj h) hdocument
    subst hsame
    exact hcells 1 _ (by decide) rfl ⟨"a", .floats [none, some 1.0]⟩ (by simp [twoColumns])

end Value
end Formulary
