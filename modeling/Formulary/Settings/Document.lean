import Formulary.Settings.Basic
import Formulary.Toml.Reader
import Formulary.Toml.Writer

/-!
# Settings as documents

Settings are kept in a TOML document with a section for each part.  Whatever is
missing takes its default, and what is unknown counts for nothing; a value of the
wrong type makes the whole document unusable.

Main definitions:

- `Settings.entries` and `Settings.ofToml?`.
- `Settings.write?`: the text of settings, if they can be written.
-/

namespace Formulary

/-! ## Parts of documents -/

namespace Toml

/-- The text of a value. -/
def text? : Toml → Option String
  | text s => some s
  | _ => none

/-- The truth value of a value. -/
def bool? : Toml → Option Bool
  | bool b => some b
  | _ => none

/-- The natural number of a value, if it is below a bound. -/
def natural? (bound : Nat) : Toml → Option Nat
  | integer n => if 0 ≤ n ∧ n < bound then some n.toNat else none
  | _ => none

/-- The label of a choice: alone, or over nothing. -/
def label? : Toml → Option String
  | text s => some s
  | table [(s, table [])] => some s
  | table [(s, list [])] => some s
  | _ => none

/-- The texts of a list. -/
def texts? : Toml → Option (List String)
  | list items => items.mapM text?
  | _ => none

/-- The fields of a section: a table, or a list of values in the order of `names`. -/
def fields? (names : List String) : Toml → Option (List (String × Toml))
  | table entries => some entries
  | list items => some (names.zip items)
  | _ => none

end Toml

/-- A field of a section; a missing one has its default. -/
def fieldOr {α : Type} (entries : List (String × Toml)) (name : String)
    (read : Toml → Option α) (default : α) : Option α :=
  match findEntry name entries with
  | some v => read v
  | none => some default

/-- A field that must be there. -/
def requiredField {α : Type} (entries : List (String × Toml)) (name : String)
    (read : Toml → Option α) : Option α :=
  (findEntry name entries).bind read

/-! ## Sections -/

/-- The label of a mode. -/
def BindMode.label : BindMode → String
  | .index => "index"
  | .key => "key"

/-- The mode of a value. -/
def BindMode.ofToml? (v : Toml) : Option BindMode :=
  match v.label? with
  | some "index" => some .index
  | some "key" => some .key
  | _ => none

/-- The requirement of a value. -/
def ContextRequirement.ofToml? (v : Toml) : Option ContextRequirement :=
  v.label?.bind ContextRequirement.ofLabel?

namespace VariableSetting

/-- The section of a variable. -/
def toml : VariableSetting → Toml
  | pattern name source contextKey mode =>
      .table [("kind", .text "pattern"), ("name", .text name), ("pattern", .text source),
        ("context", .text contextKey), ("bind", .text mode.label)]
  | attributes name contextKey =>
      .table [("kind", .text "attribute"), ("name", .text name), ("context", .text contextKey)]

/-- The pattern variable of some fields. -/
def ofPatternFields? (entries : List (String × Toml)) : Option VariableSetting := do
  let name ← requiredField entries "name" Toml.text?
  let source ← requiredField entries "pattern" Toml.text?
  let contextKey ← requiredField entries "context" Toml.text?
  let mode ← fieldOr entries "bind" BindMode.ofToml? .index
  some (.pattern name source contextKey mode)

/-- The attribute variable of some fields. -/
def ofAttributeFields? (entries : List (String × Toml)) : Option VariableSetting := do
  let name ← requiredField entries "name" Toml.text?
  let contextKey ← requiredField entries "context" Toml.text?
  some (.attributes name contextKey)

/-- The variable of a section: the field `kind` says which one it is. -/
def ofToml? (v : Toml) : Option VariableSetting := do
  let entries ← v.entries?
  match ← requiredField entries "kind" Toml.text? with
  | "pattern" => ofPatternFields? entries
  | "attribute" => ofAttributeFields? entries
  | _ => none

end VariableSetting

/-- The options of a section. -/
def EngineOptions.ofToml? (v : Toml) : Option EngineOptions := do
  let entries ← v.fields? ["context_requirement", "max_depth"]
  let requirement ← fieldOr entries "context_requirement" ContextRequirement.ofToml? .matched
  let maxDepth ← fieldOr entries "max_depth" (Toml.natural? Settings.naturalBound) defaultMaxDepth
  some ⟨requirement, maxDepth⟩

/-- How tables are read, by a section. -/
def CsvSettings.ofToml? (v : Toml) : Option CsvSettings := do
  let entries ← v.fields? ["separator", "has_header"]
  let separator ← fieldOr entries "separator" Toml.text? ","
  let hasHeader ← fieldOr entries "has_header" Toml.bool? true
  some ⟨separator, hasHeader⟩

namespace Settings

/-- The names of the standard functions of a section. -/
def functionsOfToml? (v : Toml) : Option (List String) := do
  let entries ← v.fields? ["standard"]
  fieldOr entries "standard" Toml.texts? []

/-- The cache size of a section. -/
def cacheSizeOfToml? (v : Toml) : Option Nat := do
  let entries ← v.fields? ["size"]
  fieldOr entries "size" (Toml.natural? naturalBound) defaultCacheSize

/-- The verbosity of a section. -/
def verbosityOfToml? (v : Toml) : Option UInt8 := do
  let entries ← v.fields? ["verbosity"]
  fieldOr entries "verbosity" (fun v => (v.natural? 256).map UInt8.ofNat) 0

/-- The variables of a list. -/
def variablesOfToml? : Toml → Option (List VariableSetting)
  | .list items => items.mapM VariableSetting.ofToml?
  | _ => none

/-- The settings of a document. -/
def ofToml? (v : Toml) : Option Settings := do
  let entries ← v.entries?
  let default : Settings := {}
  let engine ← fieldOr entries "engine" EngineOptions.ofToml? default.engine
  let functions ← fieldOr entries "functions" functionsOfToml? default.functions
  let cacheSize ← fieldOr entries "cache" cacheSizeOfToml? default.cacheSize
  let csv ← fieldOr entries "csv" CsvSettings.ofToml? default.csv
  let verbosity ← fieldOr entries "debug" verbosityOfToml? default.verbosity
  let variableSettings ← fieldOr entries "variables" variablesOfToml? default.variableSettings
  some { engine, functions, cacheSize, csv, verbosity, variableSettings }

/-- The entries of the document of settings. -/
def entries (s : Settings) : List (String × Toml) :=
  [("engine", .table [("context_requirement", .text s.engine.requirement.label),
      ("max_depth", .integer s.engine.maxDepth)]),
    ("functions", .table [("standard", .list (s.functions.map Toml.text))]),
    ("cache", .table [("size", .integer s.cacheSize)]),
    ("csv", .table [("separator", .text s.csv.separator),
      ("has_header", .bool s.csv.hasHeader)]),
    ("debug", .table [("verbosity", .integer s.verbosity.toNat)]),
    ("variables", .list (s.variableSettings.map VariableSetting.toml))]

/-- Integers in documents are below this bound. -/
def integerBound : Nat := UInt64.size / 2

/-- The text of settings; none if a number in them does not fit into a document. -/
def write? (s : Settings) : Option String :=
  if s.engine.maxDepth < integerBound ∧ s.cacheSize < integerBound then
    some (Toml.write s.entries)
  else none

/-- The settings of a text. -/
def read? (source : String) : Option Settings :=
  (Toml.read? source).bind ofToml?

end Settings
end Formulary
