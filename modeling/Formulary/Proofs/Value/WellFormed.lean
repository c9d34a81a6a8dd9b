import Formulary.Csv.Frame
import Formulary.Proofs.Value.Subscript

/-!
# Well-formed values

The type of values allows maps whose keys are in any order and frames whose columns differ in
height.  No operation makes such a value: the keys of a map ascend and the columns of a frame fit
as soon as they do in the operands.  The values of documents are well-formed in any case, and so
are the frames that are read from separated values.

Main definitions:

- `Value.isFlat`: a value without parts that could be out of order.
- `Value.WellFormed`: the keys of all maps ascend, and all frames are frames.

Main results:

- Theorems `Value.WellFormed.arith` and `Value.WellFormed.select`: operations that hand on parts
  of their operands.
- Theorems `Value.isFlat_of_relate`, `Value.isFlat_of_connect`, `Value.isFlat_of_not` and
  `Value.isFlat_of_neg`: operations whose results have no parts.
- Theorems `Value.WellFormed.index` and `Value.WellFormed.field`: subscripts.
- Theorem `Value.wellFormed_ofDocument`: documents.
- Theorem `CsvFormat.wellFormed_of_read?`: separated values.
-/

namespace Formulary
namespace Value

/-- Whether a value is neither list nor map nor frame. -/
def isFlat : Value → Bool
  | list _ | map _ | frame _ => false
  | null | bool _ | int _ | float _ | text _ | column _ => true

/-- The keys of every map in the value ascend, and the columns of every frame make a frame. -/
inductive WellFormed : Value → Prop
  | flat {v : Value} (h : v.isFlat = true) : WellFormed v
  | list {items : List Value} (h : ∀ v ∈ items, WellFormed v) : WellFormed (list items)
  | map {entries : List (String × Value)} (hkeys : Ascending entries)
      (h : ∀ entry ∈ entries, WellFormed entry.2) : WellFormed (map entries)
  | frame {columns : List Column} (h : IsFrame columns) : WellFormed (frame columns)

theorem WellFormed.null : WellFormed null :=
  .flat rfl

/-! ## Parts -/

/-- The items of a well-formed list are well-formed, and nothing else is asked of it. -/
theorem wellFormed_list_iff {items : List Value} :
    (list items).WellFormed ↔ ∀ v ∈ items, v.WellFormed := by
  constructor
  · intro h
    cases h with
    | flat h => cases h
    | list h => exact h
  · exact .list

/-- A map is well-formed by its keys and its values. -/
theorem wellFormed_map_iff {entries : List (String × Value)} :
    (map entries).WellFormed ↔
      Ascending entries ∧ ∀ entry ∈ entries, entry.2.WellFormed := by
  constructor
  · intro h
    cases h with
    | flat h => cases h
    | map hkeys h => exact ⟨hkeys, h⟩
  · rintro ⟨hkeys, h⟩
    exact .map hkeys h

/-- Trees are well-formed. -/
theorem IsTree.wellFormed {v : Value} (h : v.IsTree) : v.WellFormed := by
  induction h with
  | null | bool | int | float | text => exact .flat rfl
  | list _ ih => exact .list ih
  | map hkeys _ ih => exact .map hkeys ih

/-- The value of a key in a well-formed map. -/
theorem wellFormed_of_findEntry {entries : List (String × Value)}
    (h : (map entries).WellFormed) (key : String) :
    ((findEntry key entries).getD .null).WellFormed := by
  cases hfind : findEntry key entries with
  | none => exact .null
  | some v => exact (wellFormed_map_iff.1 h).2 _ (mem_of_findEntry hfind)

/-- The cells of a column have no parts if their values have none. -/
theorem isFlat_of_mem_ofCells {α : Type} {f : α → Value} (hf : ∀ a, (f a).isFlat = true)
    {xs : List (Option α)} {v : Value} (h : v ∈ Cells.ofCells f xs) : v.isFlat = true := by
  obtain ⟨x, -, rfl⟩ := List.mem_map.1 h
  cases x with
  | none => rfl
  | some a => exact hf a

/-- The elements of a column have no parts. -/
theorem isFlat_of_mem_values {cells : Cells} {v : Value} (h : v ∈ cells.values) :
    v.isFlat = true := by
  cases cells with
  | nulls n => rw [List.eq_of_mem_replicate h]; rfl
  | words xs =>
    -- An unsigned word above all signed ones is shown as a float.
    refine isFlat_of_mem_ofCells (fun w => ?_) h
    rw [Cells.wordValue]
    split <;> rfl
  | _ => exact isFlat_of_mem_ofCells (fun _ => rfl) h

/-- The cell of a column has no parts. -/
theorem isFlat_cell (c : Column) (place : Nat) : (c.cell place).isFlat = true := by
  rw [Column.cell]
  cases hcell : c.values[place]? with
  | none => rfl
  | some v => exact isFlat_of_mem_values (List.mem_of_getElem? hcell)

/-! ## Operations -/

variable {a b v : Value}

/-- What is made of a column is a column. -/
theorem isFlat_of_ofColumn? {c : Option Column} (h : ofColumn? c = .ok v) : v.isFlat = true := by
  cases c with
  | none => cases h
  | some c => cases h; rfl

/-- What columns are combined to is a column. -/
theorem isFlat_of_overColumns {operands : Except ValueError (Column × Column)}
    {f : Column → Column → Option Column} (h : overColumns operands f = .ok v) :
    v.isFlat = true := by
  obtain ⟨⟨left, right⟩, -, h⟩ := bind_eq_ok_iff.1 h
  exact isFlat_of_ofColumn? h

theorem isFlat_of_exact {error : ValueError} {n : Int} (h : exact error n = .ok v) :
    v.isFlat = true := by
  unfold exact at h
  split at h
  · cases h; rfl
  · cases h

/-- A sum of scalars has no parts, unless two lists are joined. -/
theorem WellFormed.addScalars (ha : a.WellFormed) (hb : b.WellFormed)
    (h : addScalars a b = .ok v) : v.WellFormed := by
  unfold Value.addScalars at h
  split at h
  · exact .flat (isFlat_of_exact h)
  · cases h; exact .flat rfl
  · cases h; exact .flat rfl
  · cases h; exact .flat rfl
  · cases h; exact .flat rfl
  · cases h
    rw [wellFormed_list_iff] at ha hb ⊢
    exact List.forall_mem_append.2 ⟨ha, hb⟩
  · cases h

/-- A difference of scalars has no parts. -/
theorem isFlat_of_subScalars (h : subScalars a b = .ok v) : v.isFlat = true := by
  unfold subScalars at h
  split at h
  · exact isFlat_of_exact h
  · cases h; rfl
  · cases h; rfl
  · cases h; rfl
  · cases h

theorem isFlat_of_mulScalars (h : mulScalars a b = .ok v) : v.isFlat = true := by
  unfold mulScalars at h
  split at h
  · exact isFlat_of_exact h
  · cases h; rfl
  · cases h; rfl
  · cases h; rfl
  · cases h

theorem isFlat_of_divScalars (h : divScalars a b = .ok v) : v.isFlat = true := by
  unfold divScalars at h
  dsimp only at h
  split at h
  · cases h
  · split at h
    · cases h
    · split at h
      · cases h; rfl
      · cases h

/-- Arithmetic keeps values well-formed. -/
theorem WellFormed.arith {op : ArithOp} (ha : a.WellFormed) (hb : b.WellFormed)
    (h : arith op a b = .ok v) : v.WellFormed := by
  unfold Value.arith at h
  split at h
  · exact .flat (isFlat_of_overColumns h)
  · cases op with
    | add => exact ha.addScalars hb h
    | sub => exact .flat (isFlat_of_subScalars h)
    | mul => exact .flat (isFlat_of_mulScalars h)
    | div => exact .flat (isFlat_of_divScalars h)

/-- A negated value has no parts. -/
theorem isFlat_of_neg (h : a.neg = .ok v) : v.isFlat = true := by
  unfold neg at h
  split at h
  · exact isFlat_of_exact h
  · cases h; rfl
  · exact isFlat_of_overColumns h
  · cases h

/-- The truth of a comparison has no parts. -/
theorem isFlat_of_relate {op : Comparison} (h : relate op a b = .ok v) : v.isFlat = true := by
  unfold relate at h
  split at h
  · exact isFlat_of_overColumns h
  · unfold relateScalars at h
    split at h
    · cases h; rfl
    · cases h; rfl
    · obtain ⟨o, -, rfl⟩ := map_eq_ok_iff.1 h
      rfl

/-- Combined truth has no parts. -/
theorem isFlat_of_connect {op : Connective} (h : connect op a b = .ok v) : v.isFlat = true := by
  unfold connect at h
  split at h
  · exact isFlat_of_overColumns h
  · cases h; rfl

/-- Negated truth has no parts. -/
theorem isFlat_of_not (h : a.not = .ok v) : v.isFlat = true := by
  unfold not at h
  split at h
  · exact isFlat_of_ofColumn? h
  · cases h; rfl

/-- Cells that are taken from two branches make a column. -/
theorem isFlat_of_selectCells {c : Column} (h : selectCells c a b = .ok v) :
    v.isFlat = true := by
  unfold selectCells at h
  split at h
  · cases h
  · split at h
    · cases h
    · split at h
      · cases h
      · exact isFlat_of_ofColumn? h

/-- A selection makes a column or takes a branch. -/
theorem WellFormed.select {condition : Value} (ha : a.WellFormed) (hb : b.WellFormed)
    (h : select condition a b = .ok v) : v.WellFormed := by
  unfold Value.select at h
  split at h
  · exact .flat (isFlat_of_selectCells h)
  · cases h
    split
    · exact ha
    · exact hb

/-! ## Subscripts -/

/-- What a position finds is well-formed. -/
theorem WellFormed.index {i : Int64} (ha : a.WellFormed) (h : index i a = .ok v) :
    v.WellFormed := by
  unfold Value.index at h
  split at h
  · cases h; exact .null
  · next items =>
    cases h
    cases hitem : (position? i items.length).bind (items[·]?) with
    | none => exact .null
    | some item =>
      obtain ⟨place, -, hplace⟩ := Option.bind_eq_some_iff.1 hitem
      exact wellFormed_list_iff.1 ha _ (List.mem_of_getElem? hplace)
  · next c =>
    cases h
    cases position? i c.length with
    | none => exact .null
    | some place => exact .flat (isFlat_cell c place)
  · next columns =>
    cases h
    cases (position? i columns.length).bind (columns[·]?) with
    | none => exact .null
    | some c => exact .flat rfl
  · cases h
    exact wellFormed_of_findEntry ha _
  · cases h

/-- What a key finds is well-formed. -/
theorem WellFormed.field {key : String} (ha : a.WellFormed) (h : field key a = .ok v) :
    v.WellFormed := by
  unfold Value.field at h
  split at h
  · cases h; exact .null
  · cases h
    exact wellFormed_of_findEntry ha key
  · next columns =>
    cases h
    cases findColumn key columns with
    | none => exact .null
    | some c => exact .flat rfl
  · cases h

/-! ## Documents -/

mutual

/-- The value of a document is well-formed. -/
theorem wellFormed_ofDocument : ∀ d : Document, (ofDocument d).WellFormed
  | .null => .null
  | .bool _ => .flat rfl
  | .number (.signed _) => .flat rfl
  | .number (.unsigned _) => .flat rfl
  | .number (.decimal _) => .flat rfl
  | .text _ => .flat rfl
  | .list ds => .list (wellFormed_ofDocuments ds)
  | .object fields =>
      .map (ascending_sortEntries _) fun _ h =>
        wellFormed_ofFields fields _ (mem_of_mem_sortEntries h)

/-- The values of documents are well-formed. -/
theorem wellFormed_ofDocuments : ∀ ds : List Document, ∀ v ∈ ofDocuments ds, v.WellFormed
  | [], _, h => absurd h List.not_mem_nil
  | d :: ds, v, h => (List.mem_cons.1 h).elim (fun heq => heq ▸ wellFormed_ofDocument d)
      (wellFormed_ofDocuments ds v)

/-- The values of the fields of a document are well-formed. -/
theorem wellFormed_ofFields : ∀ fields : List (String × Document),
    ∀ entry ∈ ofFields fields, entry.2.WellFormed
  | [], _, h => absurd h List.not_mem_nil
  | (_, d) :: fields, entry, h => (List.mem_cons.1 h).elim
      (fun heq => heq ▸ wellFormed_ofDocument d) (wellFormed_ofFields fields entry)

end

end Value

/-! ## Separated values -/

namespace Csv

open Formulary.Value

/-- Columns of one height with distinct names make a frame. -/
theorem isFrame_of_length {columns : List Column} {height : Nat}
    (hnames : (columns.map Column.name).Nodup) (h : ∀ c ∈ columns, c.length = height) :
    IsFrame columns := by
  refine ⟨hnames, fun c hc => ?_⟩
  cases columns with
  | nil => cases hc
  | cons first rest => rw [h c hc, frameHeight, h first (List.mem_cons_self ..)]

/-- There is a cell for every field that is read. -/
theorem length_of_readCells {α : Type} {read : List Char → Option α} {fields : List Field}
    {cells : List (Option α)} (h : readCells read fields = some cells) :
    cells.length = fields.length :=
  (forall₂_of_mapM_eq_some h).length_eq.symm

/-- A column has a cell for every field. -/
theorem length_of_cells? {fields : List Field} {cells : Cells} (h : cells? fields = some cells) :
    cells.length = fields.length := by
  unfold cells? at h
  split at h
  · obtain ⟨xs, hxs, rfl⟩ := Option.map_eq_some_iff.1 h
    exact length_of_readCells hxs
  · obtain ⟨xs, hxs, rfl⟩ := Option.map_eq_some_iff.1 h
    exact length_of_readCells hxs
  · obtain ⟨xs, hxs, rfl⟩ := Option.map_eq_some_iff.1 h
    exact length_of_readCells hxs
  · cases h
    exact List.length_map ..

/-- The columns of records have the names that they are given, in order. -/
theorem map_name_of_columns? {names : List String} {records : List (List Field)}
    {columns : List Column} (h : columns? names records = some columns) :
    columns.map Column.name = names := by
  unfold columns? at h
  split at h
  · cases h
  · have hall : columns.map Column.name =
        (List.range names.length).map fun i => names[i]?.getD "" := by
      rw [← List.forall₂_eq_eq_eq, List.forall₂_map_left_iff, List.forall₂_map_right_iff]
      refine (forall₂_of_mapM_eq_some h).flip.imp fun c i hc => ?_
      obtain ⟨cells, -, hc⟩ := Option.bind_eq_some_iff.1 hc
      cases hc
      rfl
    rw [hall]
    refine List.ext_getElem (by simp) fun i _ hi => ?_
    simp [hi]

/-- The columns of records have a cell for every record. -/
theorem length_of_columns? {names : List String} {records : List (List Field)}
    {columns : List Column} (h : columns? names records = some columns) {c : Column}
    (hc : c ∈ columns) : c.length = records.length := by
  unfold columns? at h
  split at h
  · cases h
  · obtain ⟨i, -, hi⟩ := exists_of_mem_mapM h hc
    obtain ⟨cells, hcells, hi⟩ := Option.bind_eq_some_iff.1 hi
    cases hi
    exact (length_of_cells? hcells).trans (List.length_map ..)

/-- Records under distinct names make a frame. -/
theorem isFrame_of_columns? {names : List String} (hnames : names.Nodup)
    {records : List (List Field)} {columns : List Column}
    (h : columns? names records = some columns) : IsFrame columns := by
  refine isFrame_of_length ?_ fun c hc => length_of_columns? h hc
  rwa [map_name_of_columns? h]

/-- Numbered columns have distinct names. -/
theorem nodup_plainNames (width : Nat) : (plainNames width).Nodup := by
  refine List.pairwise_map.2 (List.nodup_range.imp fun hne h => hne ?_)
  exact Nat.succ_injective (Text.integerText_injective (String.append_right_inj _ |>.1 h))

end Csv

/-- What is read from separated values makes a frame. -/
theorem CsvFormat.wellFormed_of_read? {format : CsvFormat} {content : String}
    {columns : List Column} (h : format.read? content = some columns) :
    (Value.frame columns).WellFormed := by
  refine .frame ?_
  unfold CsvFormat.read? at h
  obtain ⟨-, h⟩ := Option.ite_none_left_eq_some.1 h
  dsimp only at h
  split at h
  · obtain ⟨hnames, h⟩ := Option.ite_none_right_eq_some.1 h
    exact Csv.isFrame_of_columns? hnames h
  · exact Csv.isFrame_of_columns? (Csv.nodup_plainNames _) h

end Formulary
