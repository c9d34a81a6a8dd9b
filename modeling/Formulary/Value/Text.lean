import Formulary.Text.Diagnostic
import Formulary.Value.Elements

/-!
# Values as text

Results are shown with texts between quotes, items between brackets and entries
between braces; a column is shown as the list of its cells.  The diagnostic form
names the type of each scalar and shows only the shape of columns and frames.
-/

namespace Formulary

/-- The diagnostic form of a column: name, element type and length. -/
def Column.diagnostic (c : Column) : String :=
  "Series(" ++ c.name ++ ", " ++ c.type.label ++ ", len " ++ Text.integerText c.length ++ ")"

/-- The diagnostic form of a frame: rows and columns. -/
def frameDiagnostic (columns : List Column) : String :=
  "DataFrame(" ++ Text.integerText (frameHeight columns) ++ "x" ++
    Text.integerText columns.length ++ ")"

namespace Value

/-- The shown form of a value without items. -/
def scalarShown : Value → String
  | bool b => Cells.boolText b
  | int n => Text.integerText n.toInt
  | float x => Decimal.Layout.plain.render x
  | text s => "\"" ++ s ++ "\""
  | _ => "null"

mutual

/-- The shown form of a value. -/
def shown : Value → String
  | null => "null"
  | bool b => scalarShown (bool b)
  | int n => scalarShown (int n)
  | float x => scalarShown (float x)
  | text s => scalarShown (text s)
  | list items => "[" ++ ", ".intercalate (shownItems items) ++ "]"
  | map entries => "\x7b" ++ ", ".intercalate (shownEntries entries) ++ "\x7d"
  | column c => "[" ++ ", ".intercalate (c.values.map scalarShown) ++ "]"
  | frame columns => frameDiagnostic columns

/-- The shown forms of some values. -/
def shownItems : List Value → List String
  | [] => []
  | v :: vs => shown v :: shownItems vs

/-- The shown forms of some entries. -/
def shownEntries : List (String × Value) → List String
  | [] => []
  | (k, v) :: entries => ("\"" ++ k ++ "\": " ++ shown v) :: shownEntries entries

end

mutual

/-- The diagnostic form of a value. -/
def diagnostic : Value → String
  | null => "Null"
  | bool b => "Bool(" ++ Cells.boolText b ++ ")"
  | int n => "Int(" ++ Text.integerText n.toInt ++ ")"
  | float x => "Float(" ++ Decimal.Layout.canonical.render x ++ ")"
  | text s => "String(" ++ Text.diagnostic s ++ ")"
  | list items => "[" ++ ", ".intercalate (diagnosticItems items) ++ "]"
  | map entries => "\x7b" ++ ", ".intercalate (diagnosticEntries entries) ++ "\x7d"
  | column c => c.diagnostic
  | frame columns => frameDiagnostic columns

/-- The diagnostic forms of some values. -/
def diagnosticItems : List Value → List String
  | [] => []
  | v :: vs => diagnostic v :: diagnosticItems vs

/-- The diagnostic forms of some entries. -/
def diagnosticEntries : List (String × Value) → List String
  | [] => []
  | (k, v) :: entries => (Text.diagnostic k ++ ": " ++ diagnostic v) :: diagnosticEntries entries

end

end Value
end Formulary
