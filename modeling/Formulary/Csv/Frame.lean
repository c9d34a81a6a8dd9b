import Formulary.Column.Basic
import Formulary.Csv.Records
import Formulary.Text.Alphabet
import Formulary.Text.Blank
import Formulary.Text.Folding

/-!
# Frames of separated values

A text of records becomes a frame.  The first record names the columns, unless there
is no header.  The type of a column is read off the fields of its first records:
words, floats, booleans, or texts if they do not agree.  An empty field is null.

Main definitions:

- `CsvFormat.read?`: the columns of a text.
-/

namespace Formulary

/-- How tables are written. -/
structure CsvFormat where
  separator : Char
  /-- Whether the first record names the columns. -/
  hasHeader : Bool

namespace Csv

/-! ## Types of fields -/

/-- What a field looks like. -/
inductive FieldKind where
  | int | float | bool | text
  deriving DecidableEq

/-- Whether digits fill the text.  Digits of all scripts make a field look like a
number, although only those of ASCII can be read then. -/
def isDigits (s : List Char) : Bool :=
  !s.isEmpty && s.all Text.isDecimalDigit

/-- Whether a text looks like an integer. -/
def looksInteger : List Char → Bool
  | '-' :: s => isDigits s
  | s => isDigits s

/-- Whether a text is an exponent with its mark. -/
def looksExponent : List Char → Bool
  | [] => false
  | mark :: s =>
      (mark == 'e' || mark == 'E') &&
        match s with
        | '+' :: s => isDigits s
        | '-' :: s => isDigits s
        | s => isDigits s

/-- Whether a text without a sign looks like a float: it has a point or an exponent. -/
def looksMagnitude (s : List Char) : Bool :=
  let (whole, rest) := s.span Text.isDecimalDigit
  match rest with
  | '.' :: rest =>
      let (decimals, rest) := rest.span Text.isDecimalDigit
      if decimals.isEmpty then !whole.isEmpty && rest.isEmpty
      else rest.isEmpty || looksExponent rest
  | rest =>
      s == "inf".toList || s == "NaN".toList || (!whole.isEmpty && looksExponent rest)

/-- Whether a text looks like a float. -/
def looksFloat : List Char → Bool
  | '-' :: s => looksMagnitude s
  | '+' :: s => looksMagnitude s
  | s => looksMagnitude s

/-- Whether a text is a truth value in any case. -/
def looksBool (s : List Char) : Bool :=
  let word := s.map fun c => Char.ofNat (Text.foldCase c.toNat)
  word == "true".toList || word == "false".toList

/-- What a text looks like. -/
def kindOf (text : String) : FieldKind :=
  let s := text.toList
  if looksBool s then .bool
  else if looksFloat (Text.trimStart s) then .float
  else if looksInteger (Text.trimStart s) then .int
  else .text

/-- The kind that fits all fields of a column. -/
def commonKind (kinds : List FieldKind) : FieldKind :=
  if kinds.isEmpty then .text
  else if kinds.all (· == .int) then .int
  else if kinds.all (· == .bool) then .bool
  else if kinds.all fun k => k == .int || k == .float then .float
  else .text

/-! ## Columns -/

/-- The number of records that types are read off. -/
def sampleSize : Nat := 100

/-- Whether a field is left out. -/
def Field.isMissing (f : Field) : Bool :=
  f.text.isEmpty && !f.quoted

/-- The kind of a column, from its fields. -/
def columnKind (fields : List Field) : FieldKind :=
  commonKind (((fields.take sampleSize).filter fun f => !f.isMissing).map fun f => kindOf f.text)

/-- Reads the fields of a column; an empty one is null, and one that cannot be read
fails. -/
def readCells {α : Type} (read : List Char → Option α) (fields : List Field) :
    Option (List (Option α)) :=
  fields.mapM fun f =>
    if f.text.isEmpty then some none
    else (read (Text.trimStart f.text.toList)).map some

/-- The word of a field. -/
def readWord? (s : List Char) : Option Int64 :=
  (Text.readInteger s).toOption

/-- The truth value of a field. -/
def readBool? (s : List Char) : Option Bool :=
  let word := s.map Char.toLower
  if word == "true".toList then some true
  else if word == "false".toList then some false
  else none

/-- The cells of a column. -/
def cells? (fields : List Field) : Option Cells :=
  match columnKind fields with
  | .int => (readCells readWord? fields).map .ints
  | .float => (readCells Decimal.readFloat? fields).map .floats
  | .bool => (readCells readBool? fields).map .bools
  | .text => some (.texts (fields.map fun f => if f.isMissing then none else some f.text))

/-- The names of columns; one that repeats an earlier one is numbered. -/
def columnNames (seen : List String) : List String → List String
  | [] => []
  | name :: rest =>
      let count := seen.count name
      let numbered :=
        if count = 0 then name else name ++ "_duplicated_" ++ Text.integerText (count - 1)
      numbered :: columnNames (name :: seen) rest

/-- The names of columns without a header. -/
def plainNames (width : Nat) : List String :=
  (List.range width).map fun i : Nat => "column_" ++ Text.integerText (i + 1)

/-- The field of a record in a column; short records have nothing there. -/
def fieldAt (i : Nat) (record : List Field) : Field :=
  record[i]?.getD ⟨"", false⟩

/-- The columns of some records; none if a record has more fields than there are
columns. -/
def columns? (names : List String) (records : List (List Field)) : Option (List Column) :=
  if records.any fun r => decide (names.length < r.length) then none
  else
    (List.range names.length).mapM fun i => do
      let cells ← cells? (records.map (fieldAt i))
      some ⟨names[i]?.getD "", cells⟩

end Csv

/-- The columns of a text; none if the text is empty or cannot be read. -/
def CsvFormat.read? (format : CsvFormat) (content : String) : Option (List Column) :=
  let s := match content.toList with
    | '\ufeff' :: s => s
    | s => s
  if s.isEmpty then none
  else
    let (first, rest) := Csv.readRecord format.separator (s.length + 1) s
    let several := decide (1 < first.length)
    if format.hasHeader then
      let names := Csv.columnNames [] (first.map Csv.Field.text)
      if names.Nodup then
        Csv.columns? names (Csv.records format.separator several (rest.length + 1) rest)
      else none
    else
      Csv.columns? (Csv.plainNames first.length)
        (Csv.records format.separator several (s.length + 1) s)

end Formulary
