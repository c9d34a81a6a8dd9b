import Formulary.Proofs.Canonical.Defined
import Formulary.Proofs.Result
import Formulary.Proofs.Value.Entries
import Formulary.Value.Document

/-!
# Conversion of values and documents

A tree of constants, lists and maps has a document exactly if its floats are finite numbers,
and the value of that document is the tree.  A document is the one of its value exactly if
no integer of it is above the greatest signed word.  A column has the document of the list
of its cells, and a frame the list of its rows.

Main definitions:

- `Value.IsTree`: a value without columns and frames.
- `Value.HoldsFloat`, `Document.HoldsInteger`: the numbers that occur in a value or document.
- `Document.WellFormed`: a document that a text can hold.
- `Value.IsRow`: the fields of a row of a frame.

Main results:

- Theorem `Value.IsTree.exists_document_iff`: which trees have a document.
- Theorem `Value.IsTree.ofDocument_document`: the value of the document of a tree.
- Theorem `Document.WellFormed.comesBack_iff`: which documents come back.
- Theorem `Value.document_frame_eq_ok_iff`: the rows of a frame.
- Theorem `Value.conversion_faithful`: all of these together.
-/

namespace Formulary

/-! ## Floats -/

/-- A float is finite if it is defined and no infinity. -/
theorem isFinite_eq_true_iff {x : Float} :
    x.isFinite = true ↔ x.isNaN = false ∧ x.isInf = false := by
  show x.toModel.unpack.isFinite = true ↔
    x.toModel.unpack.isNaN = false ∧ x.toModel.unpack.isInf = false
  cases x.toModel.unpack with
  | notANumber => exact ⟨Bool.noConfusion, fun h => Bool.noConfusion h.1⟩
  | infinity => exact ⟨Bool.noConfusion, fun h => Bool.noConfusion h.2⟩
  | zero | finite => exact ⟨fun _ => ⟨rfl, rfl⟩, fun _ => rfl⟩

namespace Value

/-! ## Values as documents -/

/-- A value without columns and frames; the keys of maps ascend. -/
inductive IsTree : Value → Prop
  | null : IsTree null
  | bool (b : Bool) : IsTree (bool b)
  | int (n : Int64) : IsTree (int n)
  | float (x : Float) : IsTree (float x)
  | text (s : String) : IsTree (text s)
  | list {items : List Value} (h : ∀ v ∈ items, IsTree v) : IsTree (list items)
  | map {entries : List (String × Value)} (hkeys : Ascending entries)
      (h : ∀ entry ∈ entries, IsTree entry.2) : IsTree (map entries)

/-- The float occurs in the value. -/
inductive HoldsFloat (x : Float) : Value → Prop
  | here : HoldsFloat x (float x)
  | item {items : List Value} {v : Value} (hmem : v ∈ items) (h : HoldsFloat x v) :
      HoldsFloat x (list items)
  | entry {entries : List (String × Value)} {entry : String × Value}
      (hmem : entry ∈ entries) (h : HoldsFloat x entry.2) : HoldsFloat x (map entries)

theorem holdsFloat_float_iff {x y : Float} : HoldsFloat x (float y) ↔ x = y := by
  constructor
  · intro h
    cases h
    rfl
  · intro h
    exact h ▸ .here

/-- The floats of a list are those of its items. -/
theorem holdsFloat_list_iff {x : Float} {items : List Value} :
    HoldsFloat x (list items) ↔ ∃ v ∈ items, HoldsFloat x v := by
  constructor
  · intro h
    cases h with
    | item hmem h => exact ⟨_, hmem, h⟩
  · rintro ⟨v, hmem, h⟩
    exact .item hmem h

theorem holdsFloat_map_iff {x : Float} {entries : List (String × Value)} :
    HoldsFloat x (map entries) ↔ ∃ entry ∈ entries, HoldsFloat x entry.2 := by
  constructor
  · intro h
    cases h with
    | entry hmem h => exact ⟨_, hmem, h⟩
  · rintro ⟨entry, hmem, h⟩
    exact .entry hmem h

/-- The documents of values, one by one. -/
theorem documents_eq_mapM (items : List Value) : documents items = items.mapM document := by
  induction items with
  | nil => rfl
  | cons v items ih => rw [documents, ih, List.mapM_cons]; rfl

theorem entryDocuments_eq_mapM (entries : List (String × Value)) :
    entryDocuments entries =
      entries.mapM fun entry => (document entry.2).map fun d => (entry.1, d) := by
  induction entries with
  | nil => rfl
  | cons entry entries ih =>
    rw [entryDocuments, ih, List.mapM_cons]
    cases document entry.2 <;> rfl

/-- The values of documents, one by one. -/
theorem ofDocuments_eq_map (ds : List Document) : ofDocuments ds = ds.map ofDocument := by
  induction ds with
  | nil => rfl
  | cons d ds ih => rw [ofDocuments, ih, List.map_cons]

theorem ofFields_eq_map (fields : List (String × Document)) :
    ofFields fields = fields.map fun field => (field.1, ofDocument field.2) := by
  induction fields with
  | nil => rfl
  | cons field fields ih => rw [ofFields, ih, List.map_cons]

/-- A float has a document if it is finite. -/
theorem document_float_eq_ok_iff {x : Float} {d : Document} :
    (float x).document = .ok d ↔ x.isFinite = true ∧ .number (.decimal x) = d := by
  rw [document, scalarDocument, Document.float?]
  by_cases h : x.isFinite = true <;> simp [h]

/-- A list has a document exactly if its items have. -/
theorem document_list_eq_ok_iff {items : List Value} {d : Document} :
    (list items).document = .ok d ↔
      ∃ ds, List.Forall₂ (fun v d => v.document = .ok d) items ds ∧ .list ds = d := by
  rw [document, documents_eq_mapM, map_eq_ok_iff]
  simp only [mapM_eq_ok_iff]

/-- A map has a document exactly if its values have. -/
theorem document_map_eq_ok_iff {entries : List (String × Value)} {d : Document} :
    (map entries).document = .ok d ↔
      ∃ fields, List.Forall₂ (fun entry field =>
          entry.1 = field.1 ∧ entry.2.document = .ok field.2) entries fields ∧
        .object fields = d := by
  rw [document, entryDocuments_eq_mapM, map_eq_ok_iff]
  simp only [mapM_named_eq_ok_iff]

/-- A list has a document if its items have. -/
theorem exists_document_list_iff {items : List Value} :
    (∃ d, (list items).document = .ok d) ↔ ∀ v ∈ items, ∃ d, v.document = .ok d := by
  rw [document, documents_eq_mapM, exists_map_eq_ok_iff, exists_mapM_eq_ok_iff]

/-- A map has a document if the values of its entries have. -/
theorem exists_document_map_iff {entries : List (String × Value)} :
    (∃ d, (map entries).document = .ok d) ↔
      ∀ entry ∈ entries, ∃ d, entry.2.document = .ok d := by
  rw [document, entryDocuments_eq_mapM, exists_map_eq_ok_iff, exists_mapM_eq_ok_iff]
  simp only [exists_map_eq_ok_iff]

/-! ## Trees -/

/-- A tree has a document exactly if its floats are defined and not infinite. -/
theorem IsTree.exists_document_iff {v : Value} (h : v.IsTree) :
    (∃ d, v.document = .ok d) ↔ ∀ x, HoldsFloat x v → x.isNaN = false ∧ x.isInf = false := by
  induction h with
  | float x =>
    simp only [document_float_eq_ok_iff, exists_eq_right', holdsFloat_float_iff, forall_eq,
      isFinite_eq_true_iff]
  | list h ih =>
    rw [exists_document_list_iff]
    simp only [holdsFloat_list_iff]
    constructor
    · rintro hdocuments x ⟨v, hmem, hx⟩
      exact (ih v hmem).1 (hdocuments v hmem) x hx
    · intro hfloats v hmem
      exact (ih v hmem).2 fun x hx => hfloats x ⟨v, hmem, hx⟩
  | map hkeys h ih =>
    rw [exists_document_map_iff]
    simp only [holdsFloat_map_iff]
    constructor
    · rintro hdocuments x ⟨entry, hmem, hx⟩
      exact (ih entry hmem).1 (hdocuments entry hmem) x hx
    · intro hfloats entry hmem
      exact (ih entry hmem).2 fun x hx => hfloats x ⟨entry, hmem, hx⟩
  | null | bool b | int n | text s =>
    constructor
    · intro _ x hx
      cases hx
    · intro _
      exact ⟨_, rfl⟩

/-- The value of the document of a tree is the tree. -/
theorem IsTree.ofDocument_document {v : Value} (h : v.IsTree) {d : Document}
    (hd : v.document = .ok d) : ofDocument d = v := by
  induction h generalizing d with
  | float x =>
    obtain ⟨_, rfl⟩ := document_float_eq_ok_iff.1 hd
    rfl
  | list h ih =>
    obtain ⟨ds, hds, rfl⟩ := document_list_eq_ok_iff.1 hd
    rw [ofDocument, ofDocuments_eq_map, map_eq_of_forall₂ hds fun v hmem d => ih v hmem]
  | map hkeys h ih =>
    obtain ⟨fields, hfields, rfl⟩ := document_map_eq_ok_iff.1 hd
    have hentries := map_eq_of_forall₂ hfields
      (g := fun field => (field.1, ofDocument field.2))
      fun entry hmem field hfield => Prod.ext hfield.1.symm (ih entry hmem hfield.2)
    rw [ofDocument, ofFields_eq_map, hentries, ofEntries, sortEntries_of_ascending hkeys]
  | null | bool b | int n | text s =>
    cases hd
    rfl

end Value

namespace Document

/-! ## Documents as values -/

/-- A document that a text can hold: only words above the signed ones are unsigned, floats
are finite, and the keys of objects ascend. -/
inductive WellFormed : Document → Prop
  | null : WellFormed null
  | bool (b : Bool) : WellFormed (bool b)
  | signed (n : Int64) : WellFormed (number (.signed n))
  | unsigned {n : UInt64} (h : Int64.maxValue.toInt < n.toNat) :
      WellFormed (number (.unsigned n))
  | decimal {x : Float} (h : x.isFinite = true) : WellFormed (number (.decimal x))
  | text (s : String) : WellFormed (text s)
  | list {items : List Document} (h : ∀ d ∈ items, WellFormed d) : WellFormed (list items)
  | object {fields : List (String × Document)} (hkeys : Ascending fields)
      (h : ∀ field ∈ fields, WellFormed field.2) : WellFormed (object fields)

/-- The integer occurs in the document. -/
inductive HoldsInteger : Int → Document → Prop
  | signed (n : Int64) : HoldsInteger n.toInt (number (.signed n))
  | unsigned (n : UInt64) : HoldsInteger n.toNat (number (.unsigned n))
  | item {n : Int} {items : List Document} {d : Document} (hmem : d ∈ items)
      (h : HoldsInteger n d) : HoldsInteger n (list items)
  | field {n : Int} {fields : List (String × Document)} {field : String × Document}
      (hmem : field ∈ fields) (h : HoldsInteger n field.2) : HoldsInteger n (object fields)

/-- The integers of a list are those of its items. -/
theorem holdsInteger_list_iff {n : Int} {items : List Document} :
    HoldsInteger n (list items) ↔ ∃ d ∈ items, HoldsInteger n d := by
  constructor
  · intro h
    cases h with
    | item hmem h => exact ⟨_, hmem, h⟩
  · rintro ⟨d, hmem, h⟩
    exact .item hmem h

theorem holdsInteger_object_iff {n : Int} {fields : List (String × Document)} :
    HoldsInteger n (object fields) ↔ ∃ field ∈ fields, HoldsInteger n field.2 := by
  constructor
  · intro h
    cases h with
    | field hmem h => exact ⟨_, hmem, h⟩
  · rintro ⟨field, hmem, h⟩
    exact .field hmem h

/-- The document is the one of its value. -/
def ComesBack (d : Document) : Prop :=
  (Value.ofDocument d).document = .ok d

/-- A list comes back if its items do. -/
theorem comesBack_list_iff {items : List Document} :
    (list items).ComesBack ↔ ∀ d ∈ items, d.ComesBack := by
  rw [ComesBack, Value.ofDocument, Value.ofDocuments_eq_map, Value.document_list_eq_ok_iff]
  simp only [list.injEq, exists_eq_right, List.forall₂_map_left_iff, List.forall₂_same,
    ComesBack]

/-- An object comes back if the values of its fields do. -/
theorem comesBack_object_iff {fields : List (String × Document)} (h : Ascending fields) :
    (object fields).ComesBack ↔ ∀ field ∈ fields, field.2.ComesBack := by
  have hvalues : Ascending (Value.ofFields fields) := by
    rw [Value.ofFields_eq_map, Ascending, List.map_map]
    exact h
  rw [ComesBack, Value.ofDocument, Value.ofEntries, sortEntries_of_ascending hvalues,
    Value.ofFields_eq_map, Value.document_map_eq_ok_iff]
  simp only [object.injEq, exists_eq_right, List.forall₂_map_left_iff, List.forall₂_same,
    true_and, ComesBack]

/-- A well-formed document comes back exactly if no integer of it is above the greatest
signed word. -/
theorem WellFormed.comesBack_iff {d : Document} (h : d.WellFormed) :
    d.ComesBack ↔ ∀ n, HoldsInteger n d → n ≤ Int64.maxValue.toInt := by
  induction h with
  | signed n =>
    refine iff_of_true rfl ?_
    intro m hm
    cases hm
    exact Int64.toInt_le n
  | unsigned h =>
    refine iff_of_false ?_ ?_
    · -- The value is a float, and a float comes back as one.
      intro hback
      exact nomatch (Value.document_float_eq_ok_iff.1 hback).2
    · intro hbound
      have hle := hbound _ (.unsigned _)
      omega
  | decimal h =>
    refine iff_of_true (Value.document_float_eq_ok_iff.2 ⟨h, rfl⟩) ?_
    intro m hm
    cases hm
  | list h ih =>
    rw [comesBack_list_iff]
    simp only [holdsInteger_list_iff]
    constructor
    · rintro hback n ⟨d, hmem, hn⟩
      exact (ih d hmem).1 (hback d hmem) n hn
    · intro hbound d hmem
      exact (ih d hmem).2 fun n hn => hbound n ⟨d, hmem, hn⟩
  | object hkeys h ih =>
    rw [comesBack_object_iff hkeys]
    simp only [holdsInteger_object_iff]
    constructor
    · rintro hback n ⟨field, hmem, hn⟩
      exact (ih field hmem).1 (hback field hmem) n hn
    · intro hbound field hmem
      exact (ih field hmem).2 fun n hn => hbound n ⟨field, hmem, hn⟩
  | null | bool b | text s =>
    constructor
    · intro _ n hn
      cases hn
    · intro _
      rfl

end Document

/-! ## Columns and frames -/

namespace Cells

/-- Cells read as scalars have the documents of scalars. -/
theorem document_of_mem_ofCells {α : Type} {f : α → Value} {xs : List (Option α)} {v : Value}
    (hf : ∀ a, (f a).document = (f a).scalarDocument) (hmem : v ∈ ofCells f xs) :
    v.document = v.scalarDocument := by
  obtain ⟨x, -, rfl⟩ := List.mem_map.1 hmem
  cases x with
  | none => rfl
  | some a => exact hf a

/-- The cells of a column are scalars. -/
theorem document_of_mem_values {c : Cells} {v : Value} (hmem : v ∈ c.values) :
    v.document = v.scalarDocument := by
  cases c with
  | nulls n =>
    rw [List.eq_of_mem_replicate hmem]
    rfl
  | words xs =>
    refine document_of_mem_ofCells (fun w => ?_) hmem
    rw [wordValue]
    split <;> rfl
  | _ => exact document_of_mem_ofCells (fun _ => rfl) hmem

end Cells

namespace Value

/-- A column has the document of the list of its cells. -/
theorem document_column (c : Column) : (column c).document = (list c.values).document := by
  have hcells : c.values.mapM document = c.values.mapM scalarDocument :=
    mapM_congr fun v hmem => Cells.document_of_mem_values hmem
  rw [document, document, columnDocument, documents_eq_mapM, hcells]

/-- The document of a cell is the one of a scalar. -/
theorem document_cell (c : Column) (row : Nat) :
    (c.cell row).document = (c.cell row).scalarDocument := by
  rw [Column.cell]
  cases h : c.values[row]? with
  | none => rfl
  | some v => exact Cells.document_of_mem_values (List.mem_of_getElem? h)

/-- The fields of a row: every column has a cell with a document there, and its name has
that document. -/
structure IsRow (columns : List Column) (row : Nat) (fields : List (String × Document)) :
    Prop where
  ascending : Ascending fields
  defined : ∀ c ∈ columns, ∃ d, (c.cell row).document = .ok d
  holds : ∀ key d, findEntry key fields = some d ↔
    ∃ c ∈ columns, c.name = key ∧ (c.cell row).document = .ok d

/-- A row has no other fields. -/
theorem IsRow.unique {columns : List Column} {row : Nat} {a b : List (String × Document)}
    (ha : IsRow columns row a) (hb : IsRow columns row b) : a = b := by
  refine ha.ascending.ext hb.ascending fun key => Option.ext fun d => ?_
  rw [ha.holds, hb.holds]

/-- A frame has a document if all cells of its rows have. -/
theorem exists_document_frame_iff {columns : List Column} :
    (∃ d, (frame columns).document = .ok d) ↔
      ∀ row < frameHeight columns, ∀ c ∈ columns, ∃ d, (c.cell row).document = .ok d := by
  have hrow : ∀ row, (∃ d, rowDocument columns row = .ok d) ↔
      ∀ c ∈ columns, ∃ d, (c.cell row).document = .ok d := by
    intro row
    rw [rowDocument, exists_map_eq_ok_iff, exists_mapM_eq_ok_iff]
    simp only [exists_map_eq_ok_iff, document_cell]
  rw [document, frameDocument, exists_map_eq_ok_iff, exists_mapM_eq_ok_iff]
  simp only [List.mem_range, hrow]

section Frames

variable {columns : List Column} (hnames : (columns.map Column.name).Nodup)

include hnames

/-- The cells of a row, sorted by the names of their columns, are its fields. -/
theorem isRow_sortEntries {row : Nat} {cells : List (String × Document)}
    (h : (columns.mapM fun c => (c.cell row).document.map fun d => (c.name, d)) = .ok cells) :
    IsRow columns row (sortEntries cells) where
  ascending := ascending_sortEntries cells
  defined := by
    intro c hmem
    obtain ⟨field, hfield⟩ := exists_mapM_eq_ok_iff.1 ⟨cells, h⟩ c hmem
    obtain ⟨d, hd, -⟩ := map_eq_ok_iff.1 hfield
    exact ⟨d, hd⟩
  holds := by
    intro key d
    have hcells := mapM_named_eq_ok_iff.1 h
    have hkeys : (cells.map Prod.fst).Nodup := by rwa [map_fst_of_named hcells]
    rw [findEntry_sortEntries hkeys, findEntry_eq_some_iff hkeys, mem_iff_of_named hcells]

/-- The document of a row is the object of its fields. -/
theorem rowDocument_eq_ok_iff {row : Nat} {d : Document} :
    rowDocument columns row = .ok d ↔
      ∃ fields, IsRow columns row fields ∧ .object fields = d := by
  simp only [rowDocument, ← document_cell]
  rw [map_eq_ok_iff]
  constructor
  · rintro ⟨cells, hcells, hd⟩
    exact ⟨sortEntries cells, isRow_sortEntries hnames hcells, hd⟩
  · rintro ⟨fields, hfields, hd⟩
    have hdefined : ∀ c ∈ columns, ∃ field,
        ((c.cell row).document.map fun d => (c.name, d)) = .ok field := by
      intro c hmem
      obtain ⟨d, hd⟩ := hfields.defined c hmem
      exact ⟨(c.name, d), map_eq_ok_iff.2 ⟨d, hd, rfl⟩⟩
    obtain ⟨cells, hcells⟩ := exists_mapM_eq_ok_iff.2 hdefined
    refine ⟨cells, hcells, ?_⟩
    rw [(isRow_sortEntries hnames hcells).unique hfields, hd]

/-- A frame has the document of the list of its rows. -/
theorem document_frame_eq_ok_iff {d : Document} :
    (frame columns).document = .ok d ↔
      ∃ rows, List.Forall₂ (IsRow columns) (List.range (frameHeight columns)) rows ∧
        .list (rows.map .object) = d := by
  rw [document, frameDocument, map_eq_ok_iff]
  simp only [mapM_eq_ok_iff, rowDocument_eq_ok_iff hnames, forall₂_exists_eq_map]
  constructor
  · rintro ⟨ds, ⟨rows, hrows, rfl⟩, hd⟩
    exact ⟨rows, hrows, hd⟩
  · rintro ⟨rows, hrows, hd⟩
    exact ⟨_, ⟨rows, hrows, rfl⟩, hd⟩

end Frames

/-! ## Conversion -/

/-- A tree has a document exactly if its floats are defined and not infinite, and the value
of its document is the tree.  A document comes back exactly if no integer of it is above the
greatest signed word.  A column has the document of the list of its cells, and a frame whose
columns have different names the list of its rows. -/
theorem conversion_faithful :
    (∀ v : Value, v.IsTree →
      ((∃ d, v.document = .ok d) ↔
        ∀ x, HoldsFloat x v → x.isNaN = false ∧ x.isInf = false) ∧
      ∀ d, v.document = .ok d → ofDocument d = v) ∧
    (∀ d : Document, d.WellFormed →
      ((ofDocument d).document = .ok d ↔
        ∀ n, d.HoldsInteger n → n ≤ Int64.maxValue.toInt)) ∧
    (∀ c : Column, (column c).document = (list c.values).document) ∧
    (∀ columns : List Column,
      ((∃ d, (frame columns).document = .ok d) ↔
        ∀ row < frameHeight columns, ∀ c ∈ columns, ∃ d, (c.cell row).document = .ok d) ∧
      ((columns.map Column.name).Nodup → ∀ d,
        ((frame columns).document = .ok d ↔
          ∃ rows, List.Forall₂ (IsRow columns) (List.range (frameHeight columns)) rows ∧
            .list (rows.map .object) = d))) := by
  refine ⟨?_, ?_, document_column, ?_⟩
  · intro v hv
    exact ⟨hv.exists_document_iff, fun d hd => hv.ofDocument_document hd⟩
  · intro d hd
    exact hd.comesBack_iff
  · intro columns
    exact ⟨exists_document_frame_iff, fun hnames d => document_frame_eq_ok_iff hnames⟩

/-- A word and a float of the same size in a map. -/
def mixedTree : Value :=
  map [("number", list [int 1, float 1.0, null]), ("text", text "1")]

theorem isTree_mixedTree : mixedTree.IsTree := by
  refine .map (by decide) ?_
  simp only [List.forall_mem_cons, List.not_mem_nil, false_implies, implies_true, and_true]
  refine ⟨.list ?_, .text _⟩
  simp only [List.forall_mem_cons, List.not_mem_nil, false_implies, implies_true, and_true]
  exact ⟨.int _, .float _, .null⟩

/-- The document of `mixedTree`. -/
def mixedDocument : Document :=
  .object [("number", .list [.int 1, .number (.decimal 1.0), .null]), ("text", .text "1")]

/-- A signed word, and the least integer above the signed words. -/
def largeDocument : Document :=
  .list [.int 1, .number (.unsigned 9223372036854775808)]

theorem wellFormed_largeDocument : largeDocument.WellFormed := by
  refine .list ?_
  simp only [List.forall_mem_cons, List.not_mem_nil, false_implies, implies_true, and_true]
  exact ⟨.signed 1, .unsigned (by decide)⟩

/-- A column of words and one of floats, not in the order of their names. -/
def twoColumns : List Column :=
  [⟨"b", .ints [some 1, none]⟩, ⟨"a", .floats [none, some 1.0]⟩]

/-- The rows of `twoColumns`. -/
def twoRows : List (List (String × Document)) :=
  [[("a", .null), ("b", .int 1)], [("a", .number (.decimal 1.0)), ("b", .null)]]

theorem document_mixedTree : mixedTree.document = .ok mixedDocument := by
  have hfinite : (1.0 : Float).isFinite = true := by decide +kernel
  simp [mixedTree, mixedDocument, document, documents, entryDocuments, scalarDocument,
    Document.float?, Document.int, hfinite, bind, Except.bind, Except.map]

theorem document_twoColumns :
    (frame twoColumns).document = .ok (.list (twoRows.map .object)) := by
  have hfinite : (1.0 : Float).isFinite = true := by decide +kernel
  have hkeys : "a" < "b" := by decide
  simp [twoColumns, twoRows, document, frameDocument, rowDocument, frameHeight, Column.length,
    Cells.length, Column.cell, Column.values, Cells.values, Cells.ofCells, scalarDocument,
    Document.float?, Document.int, hfinite, List.range_succ, bind, Except.bind, Except.map,
    pure, Except.pure, sortEntries, putSorted, hkeys]

theorem conversion_faithful_mixed :
    (mixedTree.IsTree ∧ mixedTree.document = .ok mixedDocument ∧
      ofDocument mixedDocument = mixedTree) ∧
    (largeDocument.WellFormed ∧ (ofDocument largeDocument).document ≠ .ok largeDocument) ∧
    ((twoColumns.map Column.name).Nodup ∧ (frame twoColumns).document =
      .ok (.list (twoRows.map .object)) ∧ ∃ rows,
        List.Forall₂ (IsRow twoColumns) (List.range (frameHeight twoColumns)) rows ∧
          Document.list (rows.map .object) = .list (twoRows.map .object)) := by
  obtain ⟨htrees, hdocuments, -, hframes⟩ := conversion_faithful
  have hnames : (twoColumns.map Column.name).Nodup := by simp [twoColumns]
  refine ⟨⟨isTree_mixedTree, document_mixedTree, ?_⟩, ⟨wellFormed_largeDocument, ?_⟩,
    hnames, document_twoColumns, ((hframes _).2 hnames _).1 document_twoColumns⟩
  · exact (htrees _ isTree_mixedTree).2 _ document_mixedTree
  · intro hback
    have hbound := (hdocuments _ wellFormed_largeDocument).1 hback 9223372036854775808
      (.item (by simp) (.unsigned 9223372036854775808))
    exact absurd hbound (by decide)

end Value
end Formulary
