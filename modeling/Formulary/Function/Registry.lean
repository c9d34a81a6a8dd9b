import Formulary.Function.Descriptor

/-!
# Registries of functions

A registry is made by a sequence of registrations.  It always holds the
conditional, which no registration can replace; a name that is registered again
keeps its place and takes the new descriptor.

Main definitions:

- `Registration` and `FunctionRegistry.build`.
-/

namespace Formulary

/-- One step of making a registry. -/
inductive Registration where
  /-- A function of the host. -/
  | function (descriptor : FunctionDescriptor)
  /-- A standard function by name. -/
  | standard (name : String)
  /-- All standard functions. -/
  | library

/-- Why a registry cannot be made. -/
inductive RegistryError where
  | unknownStandard (name : String)
  | reservedName (name : String)
  | notCallable (name : String)
  deriving DecidableEq

/-- The names of the standard functions in one text. -/
def standardNames : String :=
  ", ".intercalate (StandardFunction.all.map StandardFunction.name)

/-- The error in words. -/
def RegistryError.message : RegistryError → String
  | .unknownStandard name =>
      "Unknown standard function '" ++ name ++ "', available functions [" ++ standardNames ++ "]"
  | .reservedName name => "Function '" ++ name ++ "' is built in and cannot be replaced"
  | .notCallable name =>
      "Function '" ++ name ++ "' has neither an implementation nor a rewrite"

/-- The functions of a whitelist by name, in order of registration. -/
structure FunctionRegistry where
  functions : Table FunctionDescriptor
  deriving Inhabited

/-- A registry in the making, with the registrations that could not be followed
and the names that were registered again. -/
structure RegistryDraft where
  functions : Table FunctionDescriptor
  reserved : List String
  unknown : List String
  replaced : List String

namespace RegistryDraft

/-- A draft with nothing but the conditional. -/
def start : RegistryDraft :=
  ⟨Table.empty.put conditionalName conditional, [], [], []⟩

/-- Registers a function of the host. -/
def register (d : RegistryDraft) (f : FunctionDescriptor) : RegistryDraft :=
  if f.name = conditionalName then { d with reserved := d.reserved ++ [f.name] }
  else
    { d with
      functions := d.functions.put f.name f
      replaced := if d.functions.contains f.name then d.replaced ++ [f.name] else d.replaced }

/-- Registers a standard function by name. -/
def registerStandard (d : RegistryDraft) (name : String) : RegistryDraft :=
  match StandardFunction.ofName? name with
  | some f => d.register (.ofStandard f)
  | none => { d with unknown := d.unknown ++ [name] }

/-- Follows one registration. -/
def follow (d : RegistryDraft) : Registration → RegistryDraft
  | .function f => d.register f
  | .standard name => d.registerStandard name
  | .library =>
      StandardFunction.all.foldl (fun d f => d.registerStandard f.name) d

/-- The draft after some registrations. -/
def ofRegistrations (registrations : List Registration) : RegistryDraft :=
  registrations.foldl follow start

/-- The registry of a draft.  A reserved name is reported before an unknown one,
and that before a function that cannot be called. -/
def finish (d : RegistryDraft) : Except RegistryError FunctionRegistry :=
  match d.reserved with
  | name :: _ => .error (.reservedName name)
  | [] =>
    match d.unknown with
    | name :: _ => .error (.unknownStandard name)
    | [] =>
      match d.functions.values.find? fun f => !f.isCallable with
      | some f => .error (.notCallable f.name)
      | none => .ok ⟨d.functions⟩

end RegistryDraft

namespace FunctionRegistry

/-- The registry that some registrations make. -/
def build (registrations : List Registration) : Except RegistryError FunctionRegistry :=
  (RegistryDraft.ofRegistrations registrations).finish

/-- The function of a name. -/
def find? (r : FunctionRegistry) (name : String) : Option FunctionDescriptor :=
  r.functions.get? name

/-- The names in order of registration. -/
def names (r : FunctionRegistry) : List String :=
  r.functions.keys

/-- The implementations by name, in order of registration. -/
def implementations (r : FunctionRegistry) : List (String × HostFunction) :=
  r.functions.entries.filterMap fun (name, f) => f.implementation.map fun call => (name, call)

end FunctionRegistry
end Formulary
