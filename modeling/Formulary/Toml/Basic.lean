import Formulary.Table

/-!
# TOML documents

The values that a TOML document is made of.  Dates and times keep their text.
-/

namespace Formulary

/-- A value of a TOML document. -/
inductive Toml where
  | text (value : String)
  | integer (value : Int)
  | float (value : Float)
  | bool (value : Bool)
  /-- A date, a time or both. -/
  | moment (source : String)
  | list (items : List Toml)
  | table (entries : List (String × Toml))
  deriving Inhabited

namespace Toml

/-- The entries of a table. -/
def entries? : Toml → Option (List (String × Toml))
  | table entries => some entries
  | _ => none

/-- Whether the value is a table. -/
def isTable (v : Toml) : Bool :=
  v.entries?.isSome

/-- Whether a key can be written without quotes. -/
def isBareKeyChar (c : Char) : Bool :=
  c.isAlphanum || c == '_' || c == '-'

end Toml
end Formulary
