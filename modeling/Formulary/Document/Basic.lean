/-!
# Documents

A document in object notation is a tree of lists and objects over constants.
Its numbers are of three kinds: signed words, unsigned words too large to be
signed, and finite floats.
-/

namespace Formulary

/-- A number of a document. -/
inductive DocumentNumber where
  | signed (value : Int64)
  | unsigned (value : UInt64)
  | decimal (value : Float)
  deriving BEq, Inhabited

/-- A document in object notation. -/
inductive Document where
  | null
  | bool (value : Bool)
  | number (value : DocumentNumber)
  | text (value : String)
  | list (items : List Document)
  | object (fields : List (String × Document))
  deriving Inhabited

namespace Document

/-- The number of a signed word. -/
def int (n : Int64) : Document :=
  .number (.signed n)

/-- The number of a float; none for an infinity or the undefined value. -/
def float? (x : Float) : Option Document :=
  if x.isFinite then some (.number (.decimal x)) else none

end Document
end Formulary
