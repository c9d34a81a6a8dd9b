import Formulary.Log
import Formulary.Variable.Resolver

/-!
# Registries of variables

The resolvers of an engine in order of registration.  The first one that accepts a
name resolves it.

Main results:

- Theorem `findSimple?_append`: later resolvers never take over a name.
-/

namespace Formulary

/-- Resolvers in order of registration. -/
structure ResolverRegistry where
  resolvers : List Resolver
  deriving Inhabited

namespace ResolverRegistry

/-- The resolvers of identifiers. -/
def simple (r : ResolverRegistry) : List SimpleResolver :=
  r.resolvers.filterMap Resolver.simple?

/-- The resolvers of attributes. -/
def attributed (r : ResolverRegistry) : List AttributedResolver :=
  r.resolvers.filterMap Resolver.attributed?

/-- The first resolver that accepts an identifier. -/
def findSimple? (r : ResolverRegistry) (ident : String) : Option SimpleResolver :=
  r.simple.find? fun s => s.accepts ident

/-- The first resolver that accepts the base of an attribute. -/
def findAttributed? (r : ResolverRegistry) (base : String) : Option AttributedResolver :=
  r.attributed.find? fun a => a.accepts base

/-- The names that messages show for identifiers. -/
def simpleNames (r : ResolverRegistry) : List String :=
  r.simple.map SimpleResolver.displayName

/-- The names that messages show for attributes. -/
def attributedNames (r : ResolverRegistry) : List String :=
  r.attributed.map AttributedResolver.displayName

/-- The keys of all resolvers, without repetition. -/
def contextKeys (r : ResolverRegistry) : List String :=
  distinctNames (r.resolvers.map Resolver.contextKey)

/-- Number of resolvers. -/
def size (r : ResolverRegistry) : Nat :=
  r.resolvers.length

/-- The names that repeat one before them. -/
def repeatedNames : List String → List String → List String
  | _, [] => []
  | seen, name :: rest =>
      if name ∈ seen then name :: repeatedNames seen rest else repeatedNames (name :: seen) rest

/-- What there is to report about a new registry: attribute names that are never
reached because an earlier resolver has them. -/
def records (r : ResolverRegistry) : List LogRecord :=
  (repeatedNames [] r.attributedNames).map fun name =>
    ⟨.warn, .variables,
      "Attribute variable '" ++ name ++ "' registered twice, the first registration wins"⟩

/-- Resolvers that come later do not take over an identifier. -/
theorem findSimple?_append {r : ResolverRegistry} {ident : String} {s : SimpleResolver}
    (more : List Resolver) (h : r.findSimple? ident = some s) :
    (ResolverRegistry.mk (r.resolvers ++ more)).findSimple? ident = some s := by
  simp only [findSimple?, simple, List.filterMap_append, List.find?_append] at h ⊢
  rw [h]
  rfl

/-- Resolvers that come later do not take over an attribute. -/
theorem findAttributed?_append {r : ResolverRegistry} {base : String} {a : AttributedResolver}
    (more : List Resolver) (h : r.findAttributed? base = some a) :
    (ResolverRegistry.mk (r.resolvers ++ more)).findAttributed? base = some a := by
  simp only [findAttributed?, attributed, List.filterMap_append, List.find?_append] at h ⊢
  rw [h]
  rfl

end ResolverRegistry
end Formulary
