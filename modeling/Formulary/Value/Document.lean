import Formulary.Document.Basic
import Formulary.Value.Elements

/-!
# Values as documents

A value becomes a document and a document a value.  Columns become lists, and
frames lists of rows.  A float that is no finite number has no document; an
unsigned word of a document becomes the float nearest to it.
-/

namespace Formulary
namespace Value

/-- The document of a value without items. -/
def scalarDocument : Value → Except ValueError Document
  | bool b => .ok (.bool b)
  | int n => .ok (.int n)
  | float x =>
      match Document.float? x with
      | some d => .ok d
      | none => .error (.notDocument x)
  | text s => .ok (.text s)
  | _ => .ok .null

/-- The document of a column: the list of its cells. -/
def columnDocument (c : Column) : Except ValueError Document :=
  (c.values.mapM scalarDocument).map Document.list

/-- The document of a row of a frame: its cells under the names of the columns. -/
def rowDocument (columns : List Column) (row : Nat) : Except ValueError Document :=
  (columns.mapM fun c => (scalarDocument (c.cell row)).map fun d => (c.name, d)).map
    fun fields => Document.object (sortEntries fields)

/-- The document of a frame: the list of its rows. -/
def frameDocument (columns : List Column) : Except ValueError Document :=
  ((List.range (frameHeight columns)).mapM (rowDocument columns)).map Document.list

mutual

/-- The document of a value. -/
def document : Value → Except ValueError Document
  | list items => (documents items).map Document.list
  | map entries => (entryDocuments entries).map Document.object
  | column c => columnDocument c
  | frame columns => frameDocument columns
  | null => .ok .null
  | bool b => scalarDocument (bool b)
  | int n => scalarDocument (int n)
  | float x => scalarDocument (float x)
  | text s => scalarDocument (text s)

/-- The documents of some values. -/
def documents : List Value → Except ValueError (List Document)
  | [] => .ok []
  | v :: vs => do
      let d ← document v
      let ds ← documents vs
      .ok (d :: ds)

/-- The documents of some entries. -/
def entryDocuments : List (String × Value) → Except ValueError (List (String × Document))
  | [] => .ok []
  | (k, v) :: entries => do
      let d ← document v
      let fields ← entryDocuments entries
      .ok ((k, d) :: fields)

end

/-- The value of a number of a document. -/
def ofNumber : DocumentNumber → Value
  | .signed n => int n
  | .unsigned n => float n.toFloat
  | .decimal x => float x

mutual

/-- The value of a document. -/
def ofDocument : Document → Value
  | .null => null
  | .bool b => bool b
  | .number n => ofNumber n
  | .text s => text s
  | .list ds => list (ofDocuments ds)
  | .object fields => ofEntries (ofFields fields)

/-- The values of some documents. -/
def ofDocuments : List Document → List Value
  | [] => []
  | d :: ds => ofDocument d :: ofDocuments ds

/-- The entries of some fields. -/
def ofFields : List (String × Document) → List (String × Value)
  | [] => []
  | (k, d) :: fields => (k, ofDocument d) :: ofFields fields

end

end Value
end Formulary
