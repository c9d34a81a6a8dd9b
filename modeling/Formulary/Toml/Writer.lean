import Formulary.Decimal.Layout
import Formulary.Text.Integer
import Formulary.Toml.Basic

/-!
# Writing TOML documents

A table is written as its plain entries, then its tables, each under a header with
an empty line before it.  A text is put between double quotes where it needs no
escapes there, between single quotes where that spares them, and over several lines
otherwise.  A list of two or more items has one on each line.

Main definitions:

- `Toml.write`: the text of a document.
-/

namespace Formulary
namespace Toml

/-! ## Texts -/

/-- Whether a character can only be written by an escape. -/
def needsEscape (c : Char) : Bool :=
  (decide (c.toNat < 32) && c != '\t' && c != '\n') || c.toNat == 127

/-- The longest run of a character. -/
def longestRun (c : Char) (s : List Char) : Nat :=
  (s.foldl (fun (best, run) x => if x = c then (max best (run + 1), run + 1) else (best, 0))
    (0, 0)).1

/-- The four forms of a text. -/
inductive TextForm where
  | basic | literal | basicLines | literalLines
  deriving DecidableEq

/-- The form in which a text is written. -/
def formOf (s : List Char) : TextForm :=
  let escapes := s.any needsEscape
  let backslash := s.contains '\\'
  let newline := s.contains '\n'
  let double := longestRun '"' s
  let single := longestRun '\'' s
  if !escapes && !backslash && double == 0 && !newline then .basic
  else if !escapes && single == 0 && !newline then .literal
  else if !escapes && !backslash && decide (double ≤ 2) then .basicLines
  else if !escapes && decide (single ≤ 2) then .literalLines
  else if newline then .basicLines
  else .basic

/-- The escape of a character, if it has a short one. -/
def shortEscape? (lines : Bool) (c : Char) : Option (List Char) :=
  if c = '\t' then some ['\\', 't']
  else if c = '\\' then some ['\\', '\\']
  else if c.toNat = 8 then some ['\\', 'b']
  else if c = '\n' then if lines then none else some ['\\', 'n']
  else if c.toNat = 12 then some ['\\', 'f']
  else if c = '\r' then some ['\\', 'r']
  else none

/-- One hexadecimal digit in upper case. -/
def upperHexDigit (n : Nat) : Char :=
  (Nat.digitChar (n % 16)).toUpper

/-- A character between double quotes. -/
def escapeChar (lines : Bool) (c : Char) : List Char :=
  match shortEscape? lines c with
  | some escape => escape
  | none =>
      if needsEscape c then
        ['\\', 'u', '0', '0', upperHexDigit (c.toNat / 16), upperHexDigit c.toNat]
      else [c]

/-- The characters between double quotes.  Of quotes in a row, those beyond `quotes`
are escaped. -/
def escapeAll (lines : Bool) (quotes : Nat) : Nat → List Char → List Char
  | _, [] => []
  | run, c :: rest =>
      if c = '"' then
        if run < quotes then '"' :: escapeAll lines quotes (run + 1) rest
        else '\\' :: '"' :: escapeAll lines quotes 0 rest
      else escapeChar lines c ++ escapeAll lines quotes 0 rest

/-- A text with its quotes. -/
def writeText (text : String) : String :=
  let s := text.toList
  match formOf s with
  | .basic => String.ofList ('"' :: (escapeAll false 0 0 s ++ ['"']))
  | .literal => "'" ++ text ++ "'"
  | .basicLines => "\"\"\"\n" ++ String.ofList (escapeAll true 2 0 s) ++ "\"\"\""
  | .literalLines => "'''\n" ++ text ++ "'''"

/-- A key, with quotes where it needs them. -/
def writeKey (key : String) : String :=
  if !key.isEmpty && key.toList.all isBareKeyChar then key else writeText key

/-! ## Values and tables -/

/-- The text of a float. -/
def writeFloat (x : Float) : String :=
  if x.isNaN then "nan" else Decimal.Layout.canonical.render x

mutual

/-- A value behind its key. -/
def writeValue : Toml → String
  | text s => writeText s
  | integer n => Text.integerText n
  | float x => writeFloat x
  | bool b => if b then "true" else "false"
  | moment source => source
  | list [] => "[]"
  | list [v] => "[" ++ writeValue v ++ "]"
  | list items => "[\n" ++ writeLines items ++ "]"
  | table [] => "\x7b\x7d"
  | table entries => "\x7b " ++ ", ".intercalate (writeInline entries) ++ " \x7d"

/-- The items of a list, one on each line. -/
def writeLines : List Toml → String
  | [] => ""
  | v :: vs => "    " ++ writeValue v ++ ",\n" ++ writeLines vs

/-- The entries of an inline table. -/
def writeInline : List (String × Toml) → List String
  | [] => []
  | (key, v) :: entries => (writeKey key ++ " = " ++ writeValue v) :: writeInline entries

end

/-- Whether a value is a list of tables that headers can write. -/
def isTableList : Toml → Bool
  | list (v :: vs) => v.isTable && vs.all isTable
  | _ => false

/-- Whether a value stands behind its key rather than under a header. -/
def isPlainEntry (v : Toml) : Bool :=
  !v.isTable && !isTableList v

/-- The plain entries of a table, one on each line. -/
def plainLines (entries : List (String × Toml)) : String :=
  String.join ((entries.filter fun e => isPlainEntry e.2).map fun (key, v) =>
    writeKey key ++ " = " ++ writeValue v ++ "\n")

mutual

/-- The sections of a value under a header. -/
def sections (path : String) : Toml → List String
  | table entries =>
      ("[" ++ path ++ "]\n" ++ plainLines entries) :: entrySections (path ++ ".") entries
  | list items => itemSections path items
  | _ => []

/-- The sections of the tables in a table. -/
def entrySections (start : String) : List (String × Toml) → List String
  | [] => []
  | (key, v) :: entries =>
      (if isPlainEntry v then [] else sections (start ++ writeKey key) v) ++
        entrySections start entries

/-- The sections of a list of tables. -/
def itemSections (path : String) : List Toml → List String
  | [] => []
  | table entries :: items =>
      (("[[" ++ path ++ "]]\n" ++ plainLines entries) :: entrySections (path ++ ".") entries) ++
        itemSections path items
  | _ :: items => itemSections path items

end

/-- The text of a document with these entries. -/
def write (entries : List (String × Toml)) : String :=
  let plain := plainLines entries
  let all := entrySections "" entries
  "\n".intercalate (if plain.isEmpty then all else plain :: all)

end Toml
end Formulary
