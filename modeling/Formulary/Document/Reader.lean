import Formulary.Decimal.Reading
import Formulary.Document.Basic
import Formulary.Table
import Formulary.Text.Blank
import Formulary.Text.Hexadecimal
import Formulary.Text.Integer

/-!
# Reading documents

The reader follows the grammar of object notation: no comments, no trailing
commas, no leading zeros, no raw control characters in texts.  Lists and objects
nest at most `maxNesting` deep.  The fields of an object are kept sorted by key,
and the last one of a key stays.

A number with a point or an exponent is the word of its first digits, scaled
once by a power of ten; digits that no longer fit into the word only count as
powers of ten before the point, and are dropped after it.

Main definitions:

- `Document.read?`: the document of a whole text.
- `Document.readFields?`: the fields of an object as they stand in the text.
-/

namespace Formulary
namespace Document

/-- Deepest nesting of lists and objects. -/
def maxNesting : Nat := 127

/-! ## Numbers -/

/-- Largest unsigned word. -/
def maxWord : Nat := UInt64.size - 1

/-- Digits gathered into a word: the word, the number of digits that went in, and
the number of digits left over once the word is full. -/
structure Gathered where
  word : Nat
  taken : Nat
  spilled : Nat
  deriving DecidableEq

/-- Gathers digits into a word that already holds some; once a digit does not
fit, all later ones are left over. -/
def Gathered.add (g : Gathered) (digits : List Char) : Gathered :=
  digits.foldl
    (fun g c =>
      let next := 10 * g.word + Decimal.digitValue c
      if g.spilled = 0 ∧ next ≤ maxWord then ⟨next, g.taken + 1, 0⟩
      else ⟨g.word, g.taken, g.spilled + 1⟩)
    g

/-- Ten to the power of `n`, rounded to a float. -/
def tenTo (n : Nat) : Float :=
  Float.ofScientific 1 false n

/-- Scales by a power of ten in one multiplication or division.  Exponents below
the range are worked off in steps of 308 first; a result past the range is none. -/
def scale (x : Float) : Nat → Int → Option Float
  | 0, _ => some x
  | fuel + 1, exponent =>
      if exponent.natAbs ≤ 308 then
        if 0 ≤ exponent then
          let y := x * tenTo exponent.toNat
          if y.isInf then none else some y
        else some (x / tenTo exponent.natAbs)
      else if x == 0.0 then some x
      else if 0 ≤ exponent then none
      else scale (x / tenTo 308) fuel (exponent + 308)

/-- The signed float of a scaled word. -/
def scaledWord (negative : Bool) (word : Nat) (exponent : Int) : Option DocumentNumber :=
  (scale (UInt64.ofNat word).toFloat 5 exponent).map fun x =>
    .decimal (if negative then -x else x)

/-- The number of a run of digits without point or exponent. -/
def wholeNumber (negative : Bool) (g : Gathered) : Option DocumentNumber :=
  if g.spilled ≠ 0 then scaledWord negative g.word g.spilled
  else if negative then
    match word? (-(g.word : Int)) with
    | some n =>
        if g.word = 0 then some (.decimal (-0.0)) else some (.signed n)
    | none => some (.decimal (-(UInt64.ofNat g.word).toFloat))
  else
    match word? g.word with
    | some n => some (.signed n)
    | none => some (.unsigned (UInt64.ofNat g.word))

/-- A fraction: its digits, and the rest; no digits if there is no point. -/
def fraction? : List Char → Option (List Char × List Char)
  | '.' :: s =>
      let (digits, rest) := Decimal.takeDigits s
      if digits.isEmpty then none else some (digits, rest)
  | s => some ([], s)

/-- The digits of an exponent, and the rest. -/
def exponentDigits (negative : Bool) (s : List Char) : Option (Int × List Char) :=
  let (digits, rest) := Decimal.takeDigits s
  let n : Int := Decimal.digitsValue digits
  if digits.isEmpty then none else some (if negative then -n else n, rest)

/-- The exponent after its mark. -/
def signedExponent : List Char → Option (Int × List Char)
  | '+' :: s => exponentDigits false s
  | '-' :: s => exponentDigits true s
  | s => exponentDigits false s

/-- An exponent, if one is there, and the rest. -/
def exponent? : List Char → Option (Option Int × List Char)
  | 'e' :: s => (signedExponent s).map fun (n, rest) => (some n, rest)
  | 'E' :: s => (signedExponent s).map fun (n, rest) => (some n, rest)
  | s => some (none, s)

/-- Whether digits start with a zero that is not the only one. -/
def hasLeadingZero : List Char → Bool
  | '0' :: _ :: _ => true
  | _ => false

/-- Reads a number after its sign. -/
def readMagnitude (negative : Bool) (s : List Char) : Option (Document × List Char) := do
  let (whole, rest) := Decimal.takeDigits s
  if whole.isEmpty || hasLeadingZero whole then none
  else
    let (decimals, rest) ← fraction? rest
    let (power, rest) ← exponent? rest
    let g := Gathered.add ⟨0, 0, 0⟩ whole
    let n ←
      if decimals.isEmpty && power.isNone then wholeNumber negative g
      else
        let g' := Gathered.add ⟨g.word, 0, 0⟩ decimals
        scaledWord negative g'.word ((g.spilled : Int) - g'.taken + power.getD 0)
    some (.number n, rest)

/-! ## Texts -/

/-- Four hexadecimal digits, and the rest. -/
def codeUnit? (s : List Char) : Option (Nat × List Char) :=
  Text.hexNumber? 4 0 s

/-- The character of one or two code units after `\u`. -/
def codePoint? (s : List Char) : Option (Char × List Char) := do
  let (n, rest) ← codeUnit? s
  if 0xDC00 ≤ n ∧ n ≤ 0xDFFF then none
  else if 0xD800 ≤ n ∧ n ≤ 0xDBFF then
    match rest with
    | '\\' :: 'u' :: rest =>
        let (m, rest) ← codeUnit? rest
        if 0xDC00 ≤ m ∧ m ≤ 0xDFFF then
          some (Char.ofNat (0x10000 + (n - 0xD800) * 0x400 + (m - 0xDC00)), rest)
        else none
    | _ => none
  else some (Char.ofNat n, rest)

/-- The character after a backslash, and the rest. -/
def escaped? : List Char → Option (Char × List Char)
  | '"' :: s => some ('"', s)
  | '\\' :: s => some ('\\', s)
  | '/' :: s => some ('/', s)
  | 'b' :: s => some (Char.ofNat 8, s)
  | 'f' :: s => some (Char.ofNat 12, s)
  | 'n' :: s => some ('\n', s)
  | 'r' :: s => some ('\r', s)
  | 't' :: s => some ('\t', s)
  | 'u' :: s => codePoint? s
  | _ => none

/-- Reads up to the closing quote. -/
def textBody : Nat → List Char → Option (List Char × List Char)
  | 0, _ => none
  | _ + 1, [] => none
  | _ + 1, '"' :: rest => some ([], rest)
  | fuel + 1, '\\' :: rest => do
      let (c, rest) ← escaped? rest
      let (cs, rest) ← textBody fuel rest
      some (c :: cs, rest)
  | fuel + 1, c :: rest =>
      if c.toNat < 32 then none
      else do
        let (cs, rest) ← textBody fuel rest
        some (c :: cs, rest)

/-- Reads a text after its opening quote. -/
def readText (s : List Char) : Option (String × List Char) :=
  (textBody (s.length + 1) s).map fun (cs, rest) => (String.ofList cs, rest)

/-! ## Lists and objects -/

/-- Reads the items of a list up to its bracket. -/
def readItems (item : List Char → Option (Document × List Char)) :
    Nat → List Char → Option (List Document × List Char)
  | 0, _ => none
  | fuel + 1, s => do
      let (d, rest) ← item (Text.skipSpacing s)
      match Text.skipSpacing rest with
      | ',' :: rest =>
          let (ds, rest) ← readItems item fuel rest
          some (d :: ds, rest)
      | ']' :: rest => some ([d], rest)
      | _ => none

/-- Reads the fields of an object up to its brace. -/
def readFields (item : List Char → Option (Document × List Char)) :
    Nat → List Char → Option (List (String × Document) × List Char)
  | 0, _ => none
  | fuel + 1, s => do
      match Text.skipSpacing s with
      | '"' :: rest =>
          let (key, rest) ← readText rest
          match Text.skipSpacing rest with
          | ':' :: rest =>
              let (d, rest) ← item (Text.skipSpacing rest)
              match Text.skipSpacing rest with
              | ',' :: rest =>
                  let (fields, rest) ← readFields item fuel rest
                  some ((key, d) :: fields, rest)
              | '}' :: rest => some ([(key, d)], rest)
              | _ => none
          | _ => none
      | _ => none

/-- The rest of `s` after `word`. -/
def after? (word : String) (s : List Char) : Option (List Char) :=
  if word.toList.isPrefixOf s then some (s.drop word.toList.length) else none

/-- Reads a document without lists and objects, or none. -/
def readConstant : List Char → Option (Document × List Char)
  | '"' :: s => (readText s).map fun (body, rest) => (.text body, rest)
  | '-' :: s => readMagnitude true s
  | 'n' :: s => (after? "ull" s).map (Document.null, ·)
  | 't' :: s => (after? "rue" s).map (Document.bool true, ·)
  | 'f' :: s => (after? "alse" s).map (Document.bool false, ·)
  | s => readMagnitude false s

/-- Reads a document with at most `depth` levels of lists and objects. -/
def readValue : Nat → List Char → Option (Document × List Char)
  | 0, s => readConstant s
  | depth + 1, s =>
      match s with
      | '[' :: rest =>
          match Text.skipSpacing rest with
          | ']' :: rest => some (.list [], rest)
          | _ =>
              (readItems (readValue depth) rest.length rest).map fun (ds, rest) =>
                (.list ds, rest)
      | '{' :: rest =>
          match Text.skipSpacing rest with
          | '}' :: rest => some (.object [], rest)
          | _ =>
              (readFields (readValue depth) rest.length rest).map fun (fields, rest) =>
                (.object (sortEntries fields), rest)
      | _ => readConstant s

/-- The document of a whole text, white space around it aside. -/
def read? (source : String) : Option Document := do
  let (d, rest) ← readValue maxNesting (Text.skipSpacing source.toList)
  if (Text.skipSpacing rest).isEmpty then some d else none

/-- The fields of an object in the order of its text, repeated keys included. -/
def readFields? (source : String) : Option (List (String × Document)) := do
  match Text.skipSpacing source.toList with
  | '{' :: rest =>
      let (fields, rest) ← match Text.skipSpacing rest with
        | '}' :: rest => some ([], rest)
        | _ => readFields (readValue (maxNesting - 1)) rest.length rest
      if (Text.skipSpacing rest).isEmpty then some fields else none
  | _ => none

end Document
end Formulary
