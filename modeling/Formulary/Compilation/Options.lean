import Formulary.Document.Reader

/-!
# Options of engines

Which context keys a compiled formula demands, and how many levels it may have.
Options are read from documents, where whatever is missing takes its default.

Main definitions:

- `EngineOptions`, with `EngineOptions.read?` and `EngineOptions.document`.
-/

namespace Formulary

/-- The context keys that a compiled formula demands: those that it was bound to, or
those of all registered variables. -/
inductive ContextRequirement where
  | matched | registered
  deriving DecidableEq, Inhabited

namespace ContextRequirement

/-- The requirement in settings. -/
def label : ContextRequirement → String
  | matched => "matched"
  | registered => "registered"

/-- The requirement of a label. -/
def ofLabel? : String → Option ContextRequirement
  | "matched" => some matched
  | "registered" => some registered
  | _ => none

/-- The requirement of a document: its label, alone or over nothing. -/
def ofDocument? : Document → Option ContextRequirement
  | .text label => ofLabel? label
  | .object [(label, .null)] => ofLabel? label
  | _ => none

end ContextRequirement

/-- The number of levels that a formula may have by default. -/
def defaultMaxDepth : Nat := 256

/-- How an engine compiles. -/
structure EngineOptions where
  requirement : ContextRequirement := .matched
  maxDepth : Nat := defaultMaxDepth
  deriving DecidableEq, Inhabited

/-- The natural number of a document. -/
def Document.natural? : Document → Option Nat
  | .number (.signed n) => if 0 ≤ n then some n.toNatClampNeg else none
  | .number (.unsigned n) => some n.toNat
  | _ => none

namespace EngineOptions

/-- Takes over one field; fields of unknown names count for nothing. -/
def withField (o : EngineOptions) (key : String) (d : Document) : Option EngineOptions :=
  if key = "context_requirement" then
    (ContextRequirement.ofDocument? d).map fun r => { o with requirement := r }
  else if key = "max_depth" then d.natural?.map fun n => { o with maxDepth := n }
  else some o

/-- Whether a name stands for a field. -/
def isField (key : String) : Bool :=
  key == "context_requirement" || key == "max_depth"

/-- The options of some fields, each of which may come once. -/
def ofFields? (fields : List (String × Document)) : Option EngineOptions :=
  let known := (fields.map Prod.fst).filter isField
  if known.Nodup then fields.foldlM (fun o (key, d) => o.withField key d) {} else none

/-- The options of a list: the requirement, then the depth. -/
def ofItems? : List Document → Option EngineOptions
  | [] => some {}
  | [r] => withField {} "context_requirement" r
  | [r, n] => do (← withField {} "context_requirement" r).withField "max_depth" n
  | _ => none

/-- Reads options from the text of an object or list. -/
def read? (source : String) : Option EngineOptions :=
  match Document.readFields? source with
  | some fields => ofFields? fields
  | none =>
    match Document.read? source with
    | some (.list items) => ofItems? items
    | _ => none

/-- The document of options. -/
def document (o : EngineOptions) : Document :=
  .object
    [("context_requirement", .text o.requirement.label),
      ("max_depth", .number (.unsigned (UInt64.ofNat o.maxDepth)))]

end EngineOptions
end Formulary
