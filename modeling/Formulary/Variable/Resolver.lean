import Formulary.Compilation.Failure

/-!
# Resolvers of variables

A resolver recognises an identifier, or the base of an attribute, and says which
context value it reads.  A pattern variable recognises identifiers by a pattern and
reads the element that its first group names; an attribute variable recognises one
base and reads the attribute as a key.

Main definitions:

- `Resolver`, with its two kinds.
- `PatternVariable` and `AttributeVariable`.
-/

namespace Formulary

/-- Recognises identifiers. -/
structure SimpleResolver where
  /-- The name that messages show. -/
  displayName : String
  /-- The context value that its bindings read. -/
  contextKey : String
  accepts : String → Bool
  /-- What takes the place of an identifier. -/
  bind : String → Except FormulaError Expr

/-- Recognises attributes by their base. -/
structure AttributedResolver where
  displayName : String
  contextKey : String
  accepts : String → Bool := fun base => base == displayName
  /-- What takes the place of an attribute, from its base and its member. -/
  bind : String → String → Expr

/-- A resolver of either kind. -/
inductive Resolver where
  | simple (resolver : SimpleResolver)
  | attributed (resolver : AttributedResolver)

namespace Resolver

/-- The name that messages show. -/
def displayName : Resolver → String
  | simple r => r.displayName
  | attributed r => r.displayName

/-- The context value that its bindings read. -/
def contextKey : Resolver → String
  | simple r => r.contextKey
  | attributed r => r.contextKey

/-- The resolver, if it is for identifiers. -/
def simple? : Resolver → Option SimpleResolver
  | simple r => some r
  | attributed _ => none

/-- The resolver, if it is for attributes. -/
def attributed? : Resolver → Option AttributedResolver
  | simple _ => none
  | attributed r => some r

end Resolver

/-! ## Pattern variables -/

/-- How a match becomes a subscript: the first group as a position, or the first
group, or else the whole match, as a key. -/
inductive BindMode where
  | index | key
  deriving DecidableEq, Inhabited

/-- A variable whose names match a pattern. -/
structure PatternVariable where
  displayName : String
  pattern : Pattern
  contextKey : String
  /-- What takes the place of a name, from the parts that the pattern captured. -/
  binder : Captures → Except FormulaError Expr

namespace PatternVariable

/-- Reads the element at the position that the first group gives. -/
def bindIndex (context : String) (c : Captures) : Except FormulaError Expr :=
  let digits := (c.group? 1).getD ""
  match Text.readInteger digits.toList with
  | .ok i => .ok (.binding ⟨context, .index i⟩)
  | .error e => .error (.binding c.whole (.noIndex digits e))

/-- Reads the element under the key that the first group gives, or the whole match
if it has none. -/
def bindKey (context : String) (c : Captures) : Except FormulaError Expr :=
  .ok (.binding ⟨context, .key ((c.group? 1).getD c.whole)⟩)

/-- A variable with a binder of its own. -/
def withBinder (displayName source contextKey : String)
    (binder : Captures → Except FormulaError Expr) : Except FormulaError PatternVariable :=
  match Pattern.readAnchored source with
  | .ok pattern => .ok ⟨displayName, pattern, contextKey, binder⟩
  | .error e => .error (.pattern source (.malformed e))

/-- A variable that reads an element of its context value. -/
def make (displayName source contextKey : String) (mode : BindMode) :
    Except FormulaError PatternVariable :=
  match mode with
  | .key => withBinder displayName source contextKey (bindKey contextKey)
  | .index =>
    match withBinder displayName source contextKey (bindIndex contextKey) with
    | .error e => .error e
    | .ok v =>
        if v.pattern.captureCount = 0 then .error (.pattern source .noGroup) else .ok v

/-- A pattern variable is made exactly if its pattern can be read. -/
theorem withBinder_eq_ok_iff {displayName source contextKey : String}
    {binder : Captures → Except FormulaError Expr} {v : PatternVariable} :
    withBinder displayName source contextKey binder = .ok v ↔
      ∃ pattern, Pattern.readAnchored source = .ok pattern ∧
        ⟨displayName, pattern, contextKey, binder⟩ = v := by
  unfold withBinder
  cases Pattern.readAnchored source <;> simp

/-- A variable that reads an element reads it by position or by key. -/
theorem exists_withBinder_of_make {displayName source contextKey : String} {mode : BindMode}
    {v : PatternVariable} (h : make displayName source contextKey mode = .ok v) :
    ∃ binder, withBinder displayName source contextKey binder = .ok v ∧
      (binder = bindIndex contextKey ∨ binder = bindKey contextKey) := by
  cases mode with
  | key => exact ⟨_, h, .inr rfl⟩
  | index =>
    simp only [make] at h
    split at h
    · cases h
    · next v' hv =>
      split at h
      · cases h
      · cases h
        exact ⟨_, hv, .inl rfl⟩

/-- Whether the variable has the name. -/
def accepts (v : PatternVariable) (ident : String) : Bool :=
  v.pattern.occursIn ident

/-- What takes the place of a name. -/
def bind (v : PatternVariable) (ident : String) : Except FormulaError Expr :=
  match v.pattern.find? ident with
  | some c => v.binder c
  | none => .error (.binding ident (.noMatch v.pattern.source))

/-- The variable as a resolver. -/
def resolver (v : PatternVariable) : SimpleResolver :=
  { displayName := v.displayName
    contextKey := v.contextKey
    accepts := v.accepts
    bind := v.bind }

end PatternVariable

/-! ## Attribute variables -/

/-- A variable whose attributes are the keys of a context value. -/
structure AttributeVariable where
  name : String
  contextKey : String

/-- The variable as a resolver. -/
def AttributeVariable.resolver (v : AttributeVariable) : AttributedResolver :=
  { displayName := v.name
    contextKey := v.contextKey
    bind := fun _ member => .binding ⟨v.contextKey, .key member⟩ }

end Formulary
