import Formulary.Decimal.Layout
import Formulary.Document.Basic
import Formulary.Text.Integer

/-!
# Writing documents

A document is written on one line without spaces, or spread over lines with two
spaces of indentation for each level; empty lists and objects stay on one line.
-/

namespace Formulary
namespace Document

/-- One hexadecimal digit in lower case. -/
def hexDigit (n : Nat) : Char :=
  Nat.digitChar (n % 16)

/-- One character as written between the quotes of a document text. -/
def escapeChar (c : Char) : List Char :=
  if c = '"' then ['\\', '"']
  else if c = '\\' then ['\\', '\\']
  else if c = '\n' then ['\\', 'n']
  else if c = '\t' then ['\\', 't']
  else if c = '\r' then ['\\', 'r']
  else if c.toNat = 8 then ['\\', 'b']
  else if c.toNat = 12 then ['\\', 'f']
  else if c.toNat < 32 then ['\\', 'u', '0', '0', hexDigit (c.toNat / 16), hexDigit c.toNat]
  else [c]

/-- A text between quotes. -/
def quote (s : String) : String :=
  String.ofList ('"' :: (s.toList.flatMap escapeChar ++ ['"']))

/-- The text of a number. -/
def numberText : DocumentNumber → String
  | .signed n => Text.integerText n.toInt
  | .unsigned n => Text.integerText n.toNat
  | .decimal x => Decimal.Layout.document.render x

/-- A new line with the indentation of `level`, if lines are wanted. -/
def lineBreak (lines : Bool) (level : Nat) : String :=
  if lines then String.ofList ('\n' :: List.replicate (2 * level) ' ') else ""

mutual

/-- The text of a document at an indentation level. -/
def writeAt (lines : Bool) (level : Nat) : Document → String
  | null => "null"
  | bool b => if b then "true" else "false"
  | number n => numberText n
  | text s => quote s
  | list [] => "[]"
  | list (d :: ds) =>
      "[" ++ lineBreak lines (level + 1) ++ writeAt lines (level + 1) d ++
        writeItems lines (level + 1) ds ++ lineBreak lines level ++ "]"
  | object [] => "\x7b\x7d"
  | object ((k, d) :: fields) =>
      "\x7b" ++ lineBreak lines (level + 1) ++ quote k ++ (if lines then ": " else ":") ++
        writeAt lines (level + 1) d ++ writeFields lines (level + 1) fields ++
        lineBreak lines level ++ "\x7d"

/-- Further items of a list, each after a comma. -/
def writeItems (lines : Bool) (level : Nat) : List Document → String
  | [] => ""
  | d :: ds => "," ++ lineBreak lines level ++ writeAt lines level d ++ writeItems lines level ds

/-- Further fields of an object, each after a comma. -/
def writeFields (lines : Bool) (level : Nat) : List (String × Document) → String
  | [] => ""
  | (k, d) :: fields =>
      "," ++ lineBreak lines level ++ quote k ++ (if lines then ": " else ":") ++
        writeAt lines level d ++ writeFields lines level fields

end

/-- The text of a document on one line. -/
def compact (d : Document) : String :=
  d.writeAt false 0

/-- The text of a document over several lines. -/
def pretty (d : Document) : String :=
  d.writeAt true 0

end Document
end Formulary
