/-!
# Records of separated values

A table in text form has a record on each line and a separator between the fields of
a record.  A field between double quotes may hold separators and ends of lines; a
quote inside it is written twice.

Main definitions:

- `Csv.records`: the records of a text.
-/

namespace Formulary
namespace Csv

/-- One field of a record. -/
structure Field where
  text : String
  /-- Whether it stands between quotes. -/
  quoted : Bool
  deriving DecidableEq

/-- The content of a quoted field up to its closing quote, and the rest. -/
def quotedBody : List Char → List Char × List Char
  | [] => ([], [])
  | '"' :: '"' :: rest =>
      let (content, rest) := quotedBody rest
      ('"' :: content, rest)
  | '"' :: rest => ([], rest)
  | c :: rest =>
      let (content, rest) := quotedBody rest
      (c :: content, rest)

/-- Whether a character goes on with a field. -/
def isFieldChar (separator c : Char) : Bool :=
  c != separator && c != '\n'

/-- A field without the carriage return at the end of its line. -/
def dropReturn (s : List Char) : List Char :=
  if s.getLast? = some '\r' then s.dropLast else s

/-- Reads a field up to the separator or the end of the line behind it. -/
def readField (separator : Char) (s : List Char) : Field × List Char :=
  match s with
  | '"' :: rest =>
      let (content, rest) := quotedBody rest
      (⟨String.ofList content, true⟩, rest.dropWhile (isFieldChar separator))
  | s =>
      let content := s.takeWhile (isFieldChar separator)
      let rest := s.drop content.length
      let content := if rest.head? = some separator then content else dropReturn content
      (⟨String.ofList content, false⟩, rest)

/-- Reads a record up to the end of its line, and the rest behind it. -/
def readRecord (separator : Char) : Nat → List Char → List Field × List Char
  | 0, s => ([], s)
  | fuel + 1, s =>
    let (field, rest) := readField separator s
    match rest with
    | [] => ([field], [])
    | c :: rest =>
      if c = separator then
        let (fields, rest) := readRecord separator fuel rest
        (field :: fields, rest)
      else ([field], rest)

/-- Drops the white space before a record; where records have several fields, empty
lines too. -/
def skipBefore (separator : Char) (several : Bool) (s : List Char) : List Char :=
  s.dropWhile fun c =>
    ((c == ' ' || c == '\t') && c != separator) || (several && (c == '\n' || c == '\r'))

/-- Reads records to the end of the text. -/
def records (separator : Char) (several : Bool) : Nat → List Char → List (List Field)
  | 0, _ => []
  | fuel + 1, s =>
    match skipBefore separator several s with
    | [] => []
    | s =>
      let (record, rest) := readRecord separator (s.length + 1) s
      record :: records separator several fuel rest

end Csv
end Formulary
