import Formulary.Decimal.Reading
import Formulary.Text.Hexadecimal
import Formulary.Toml.Outline

/-!
# Reading TOML documents

A document is a sequence of lines: keys with values, headers of tables, and
comments.  A value may be a text in one of four forms, a number, a truth value, a
date or time, a list, or a table between braces.  Lists and such tables may run
over several lines, and their last item may have a comma behind it.

Main definitions:

- `Toml.read?`: the document of a text.
-/

namespace Formulary
namespace Toml

/-- Deepest nesting of lists and inline tables. -/
def maxNesting : Nat := 80

/-! ## Lines -/

/-- Space and tab. -/
def isSpace (c : Char) : Bool :=
  c == ' ' || c == '\t'

/-- Whether the character may stand in comments and texts as it is. -/
def isPlain (c : Char) : Bool :=
  c == '\t' || (decide (32 ≤ c.toNat) && c.toNat != 127)

/-- Drops spaces and tabs at the start. -/
def skipSpace (s : List Char) : List Char :=
  s.dropWhile isSpace

/-- The rest behind the end of a line. -/
def newline? : List Char → Option (List Char)
  | '\n' :: rest => some rest
  | '\r' :: '\n' :: rest => some rest
  | _ => none

/-- Drops a comment, if one is there. -/
def skipComment : List Char → List Char
  | '#' :: rest => rest.dropWhile isPlain
  | s => s

/-- The rest behind white space, a comment, and the end of a line or text. -/
def lineEnd? (s : List Char) : Option (List Char) :=
  match skipComment (skipSpace s) with
  | [] => some []
  | s => newline? s

/-- Drops white space, comments and ends of lines. -/
def skipLines : Nat → List Char → List Char
  | 0, s => s
  | fuel + 1, s =>
      let rest := skipComment (skipSpace s)
      match newline? rest with
      | some rest => skipLines fuel rest
      | none => rest

/-! ## Texts -/

/-- The character of a code point. -/
def scalar? (n : Nat) : Option Char :=
  if n.isValidChar then some (Char.ofNat n) else none

/-- The character behind a backslash, and the rest. -/
def escaped? : List Char → Option (Char × List Char)
  | 'b' :: s => some ('\x08', s)
  | 't' :: s => some ('\t', s)
  | 'n' :: s => some ('\n', s)
  | 'f' :: s => some ('\x0c', s)
  | 'r' :: s => some ('\r', s)
  | 'e' :: s => some ('\x1b', s)
  | '"' :: s => some ('"', s)
  | '\\' :: s => some ('\\', s)
  | 'x' :: s => do
      let (n, rest) ← Text.hexNumber? 2 0 s
      some (← scalar? n, rest)
  | 'u' :: s => do
      let (n, rest) ← Text.hexNumber? 4 0 s
      some (← scalar? n, rest)
  | 'U' :: s => do
      let (n, rest) ← Text.hexNumber? 8 0 s
      some (← scalar? n, rest)
  | _ => none

/-- Reads a text with escapes up to its quote. -/
def basicBody : Nat → List Char → Option (List Char × List Char)
  | 0, _ => none
  | fuel + 1, s =>
    match s with
    | [] => none
    | '"' :: rest => some ([], rest)
    | '\\' :: rest => do
        let (c, rest) ← escaped? rest
        let (cs, rest) ← basicBody fuel rest
        some (c :: cs, rest)
    | c :: rest =>
        if isPlain c then do
          let (cs, rest) ← basicBody fuel rest
          some (c :: cs, rest)
        else none

/-- Reads a text without escapes up to its quote. -/
def literalBody (s : List Char) : Option (List Char × List Char) :=
  let body := s.takeWhile fun c => isPlain c && c != '\''
  match s.drop body.length with
  | '\'' :: rest => some (body, rest)
  | _ => none

/-- The rest behind a backslash at the end of a line: white space and ends of lines
are dropped. -/
def continued? (s : List Char) : Option (List Char) :=
  (newline? (skipSpace s)).map fun rest =>
    rest.dropWhile fun c => isSpace c || c == '\n' || c == '\r'

/-- What a run of quotes means inside a text of several lines: fewer than three stand
for themselves, and three close the text, with up to two more before them. -/
inductive QuoteRun where
  | inside (count : Nat)
  | closing (before : Nat)
  | tooMany

/-- The meaning of a run of quotes. -/
def quoteRun (count : Nat) : QuoteRun :=
  if count < 3 then .inside count
  else if count ≤ 5 then .closing (count - 3)
  else .tooMany

/-- Reads a text of several lines up to its quotes. -/
def multilineBody (quote : Char) (escapes : Bool) : Nat → List Char → Option (List Char × List Char)
  | 0, _ => none
  | fuel + 1, s =>
    match s with
    | [] => none
    | c :: rest =>
      if c = quote then
        let run := s.takeWhile (· == quote)
        let after := s.drop run.length
        match quoteRun run.length with
        | .inside count => do
            let (cs, rest) ← multilineBody quote escapes fuel after
            some (List.replicate count quote ++ cs, rest)
        | .closing before => some (List.replicate before quote, after)
        | .tooMany => none
      else if c = '\\' ∧ escapes then
        match continued? rest with
        | some rest => multilineBody quote escapes fuel rest
        | none => do
            let (c, rest) ← escaped? rest
            let (cs, rest) ← multilineBody quote escapes fuel rest
            some (c :: cs, rest)
      else
        match newline? s with
        | some rest => do
            let (cs, rest) ← multilineBody quote escapes fuel rest
            some ('\n' :: cs, rest)
        | none =>
            if isPlain c then do
              let (cs, rest) ← multilineBody quote escapes fuel rest
              some (c :: cs, rest)
            else none

/-- Reads a text of several lines; the end of the first line does not count. -/
def readMultiline (quote : Char) (escapes : Bool) (s : List Char) :
    Option (String × List Char) :=
  let s := (newline? s).getD s
  (multilineBody quote escapes (s.length + 1) s).map fun (cs, rest) => (String.ofList cs, rest)

/-- Reads a text of one line. -/
def readLineText : List Char → Option (String × List Char)
  | '"' :: s => (basicBody (s.length + 1) s).map fun (cs, rest) => (String.ofList cs, rest)
  | '\'' :: s => (literalBody s).map fun (cs, rest) => (String.ofList cs, rest)
  | _ => none

/-- Reads a text in any of the four forms. -/
def readText : List Char → Option (String × List Char)
  | '"' :: '"' :: '"' :: s => readMultiline '"' true s
  | '\'' :: '\'' :: '\'' :: s => readMultiline '\'' false s
  | s => readLineText s

/-! ## Keys -/

/-- Reads one part of a key. -/
def readKeyPart (s : List Char) : Option (String × List Char) :=
  let bare := s.takeWhile isBareKeyChar
  if bare.isEmpty then readLineText s else some (String.ofList bare, s.drop bare.length)

/-- Reads a key, whose parts have points between them. -/
def readKey : Nat → List Char → Option (List String × List Char)
  | 0, _ => none
  | fuel + 1, s => do
      let (part, rest) ← readKeyPart (skipSpace s)
      match skipSpace rest with
      | '.' :: rest => do
          let (parts, rest) ← readKey fuel rest
          some (part :: parts, rest)
      | rest => some ([part], rest)

/-! ## Numbers, dates and times -/

/-- Digits with underscores between them, without the underscores. -/
def groupedDigits? (isDigit : Char → Bool) : List Char → Option (List Char)
  | [] => none
  | [c] => if isDigit c then some [c] else none
  | c :: '_' :: rest => if isDigit c then (groupedDigits? isDigit rest).map (c :: ·) else none
  | c :: rest => if isDigit c then (groupedDigits? isDigit rest).map (c :: ·) else none

/-- The number of digits in a base. -/
def baseNumber? (base : Nat) (s : List Char) : Option Toml := do
  let isDigit := fun c => (Text.hexValue? c).any fun n => decide (n < base)
  let digits ← groupedDigits? isDigit s
  some (.integer (digits.foldl (fun n c => base * n + (Text.hexValue? c).getD 0) 0 : Nat))

/-- Whole digits without a leading zero. -/
def wholeDigits? (s : List Char) : Option (List Char) := do
  let digits ← groupedDigits? Char.isDigit s
  match digits with
  | '0' :: _ :: _ => none
  | _ => some digits

/-- The sign and the rest. -/
def splitSign : List Char → Bool × List Char
  | '-' :: s => (true, s)
  | '+' :: s => (false, s)
  | s => (false, s)

/-- The exponent of a float: its value. -/
def exponent? : List Char → Option Int
  | [] => some 0
  | _ :: s => do
      let (negative, s) := splitSign s
      let digits ← groupedDigits? Char.isDigit s
      let n : Int := Decimal.digitsValue digits
      some (if negative then -n else n)

/-- Whether a character begins the exponent of a float. -/
def isExponentMark (c : Char) : Bool :=
  c == 'e' || c == 'E'

/-- The magnitude of a float that has a point or an exponent. -/
def floatMagnitude? (s : List Char) : Option Float := do
  let mantissa := s.takeWhile fun c => !isExponentMark c
  let power ← exponent? (s.drop mantissa.length)
  let whole := mantissa.takeWhile (· != '.')
  let wholeDigits ← wholeDigits? whole
  let decimals ← match mantissa.drop whole.length with
    | [] => if mantissa.length = s.length then none else some []
    | _ :: decimals => groupedDigits? Char.isDigit decimals
  some (Decimal.Numeral.ofParts wholeDigits decimals power).toFloat

/-- A number without its sign. -/
def magnitude? (negative : Bool) (s : List Char) : Option Toml :=
  match wholeDigits? s with
  | some digits =>
      let n : Int := Decimal.digitsValue digits
      some (.integer (if negative then -n else n))
  | none =>
    let x := match String.ofList s with
      | "inf" => some (1.0 / 0.0)
      | "nan" => some (0.0 / 0.0)
      | _ => floatMagnitude? s
    x.map fun x => .float (if negative then -x else x)

/-- The number that a word stands for. -/
def number? : List Char → Option Toml
  | '0' :: 'x' :: s => baseNumber? 16 s
  | '0' :: 'o' :: s => baseNumber? 8 s
  | '0' :: 'b' :: s => baseNumber? 2 s
  | s =>
      let (negative, s) := splitSign s
      magnitude? negative s

/-- The number of exactly `count` digits at the start, and the rest. -/
def digits? (count : Nat) (s : List Char) : Option (Nat × List Char) :=
  let digits := s.take count
  if digits.length = count ∧ digits.all Char.isDigit then
    some (Decimal.digitsValue digits, s.drop count)
  else none

/-- Number of days of a month. -/
def monthLength (year month : Nat) : Nat :=
  if month = 2 then
    if year % 4 = 0 ∧ (year % 100 ≠ 0 ∨ year % 400 = 0) then 29 else 28
  else if month = 4 ∨ month = 6 ∨ month = 9 ∨ month = 11 then 30
  else 31

/-- The rest behind a date. -/
def date? (s : List Char) : Option (List Char) := do
  let (year, rest) ← digits? 4 s
  let '-' :: rest := rest | none
  let (month, rest) ← digits? 2 rest
  let '-' :: rest := rest | none
  let (day, rest) ← digits? 2 rest
  if 1 ≤ month ∧ month ≤ 12 ∧ 1 ≤ day ∧ day ≤ monthLength year month then some rest else none

/-- The rest behind the seconds of a time, which may have a fraction. -/
def seconds? (s : List Char) : Option (List Char) := do
  let (second, rest) ← digits? 2 s
  if second ≤ 60 then
    match rest with
    | '.' :: fraction =>
        let (digits, rest) := Decimal.takeDigits fraction
        if digits.isEmpty then none else some rest
    | rest => some rest
  else none

/-- The rest behind a time of the day, which may lack its seconds. -/
def time? (s : List Char) : Option (List Char) := do
  let (hour, rest) ← digits? 2 s
  let ':' :: rest := rest | none
  let (minute, rest) ← digits? 2 rest
  if hour < 24 ∧ minute < 60 then
    match rest with
    | ':' :: rest => seconds? rest
    | rest => some rest
  else none

/-- Whether a text is the offset of a time, or empty. -/
def isOffset : List Char → Bool
  | [] => true
  | ['Z'] => true
  | ['z'] => true
  | c :: rest =>
      (c == '+' || c == '-') &&
        match digits? 2 rest with
        | some (hour, ':' :: rest) =>
            match digits? 2 rest with
            | some (minute, []) => decide (hour < 24) && decide (minute < 60)
            | _ => false
        | _ => false

/-- Whether a text is a date, a time, or both. -/
def isMoment (s : List Char) : Bool :=
  match date? s with
  | some [] => true
  | some (c :: rest) =>
      (c == 'T' || c == 't' || c == ' ') && (time? rest).any isOffset
  | none => time? s == some []

/-- Whether a character may be part of a number, a date or a time. -/
def isWordChar (c : Char) : Bool :=
  isBareKeyChar c || c == '+' || c == '.' || c == ':'

/-- The word at the start: a date may have a space and a time behind it. -/
def takeWord (s : List Char) : List Char :=
  let word := s.takeWhile isWordChar
  match s.drop word.length with
  | ' ' :: rest =>
      let second := rest.takeWhile isWordChar
      if date? word == some [] && isMoment (word ++ ' ' :: second) then word ++ ' ' :: second
      else word
  | _ => word

/-- Reads a number, a truth value, a date or a time. -/
def readWord (s : List Char) : Option (Toml × List Char) :=
  let word := takeWord s
  let rest := s.drop word.length
  match String.ofList word with
  | "true" => some (.bool true, rest)
  | "false" => some (.bool false, rest)
  | source =>
      if isMoment word then some (.moment source, rest)
      else (number? word).map fun n => (n, rest)

/-! ## Values -/

/-- Reads the items of a list up to its bracket. -/
def readItems (item : List Char → Option (Toml × List Char)) :
    Nat → List Char → Option (List Toml × List Char)
  | 0, _ => none
  | fuel + 1, s =>
    match skipLines s.length s with
    | ']' :: rest => some ([], rest)
    | s => do
        let (v, rest) ← item s
        match skipLines rest.length rest with
        | ',' :: rest => do
            let (vs, rest) ← readItems item fuel rest
            some (v :: vs, rest)
        | ']' :: rest => some ([v], rest)
        | _ => none

/-- Reads a key and its value, and adds them to some entries. -/
def readEntry (item : List Char → Option (Toml × List Char)) (entries : Outline.Entries)
    (s : List Char) : Option (Outline.Entries × List Char) := do
  let (path, rest) ← readKey (s.length + 1) s
  let '=' :: rest := rest | none
  let (v, rest) ← item (skipSpace rest)
  let entries ← Outline.insert v path entries
  some (entries, rest)

/-- Reads the entries of an inline table up to its brace. -/
def readInline (item : List Char → Option (Toml × List Char)) :
    Nat → Outline.Entries → List Char → Option (Outline.Entries × List Char)
  | 0, _, _ => none
  | fuel + 1, entries, s =>
    match skipLines s.length s with
    | '\x7d' :: rest => some (entries, rest)
    | s => do
        let (entries, rest) ← readEntry item entries s
        match skipLines rest.length rest with
        | ',' :: rest => readInline item fuel entries rest
        | '\x7d' :: rest => some (entries, rest)
        | _ => none

/-- Reads a value with at most `depth` levels of lists and tables. -/
def readValue : Nat → List Char → Option (Toml × List Char)
  | 0, _ => none
  | depth + 1, s =>
    match s with
    | '"' :: _ => (readText s).map fun (t, rest) => (.text t, rest)
    | '\'' :: _ => (readText s).map fun (t, rest) => (.text t, rest)
    | '[' :: rest =>
        (readItems (readValue depth) (rest.length + 1) rest).map fun (vs, rest) => (.list vs, rest)
    | '\x7b' :: rest =>
        (readInline (readValue depth) (rest.length + 1) [] rest).map fun (entries, rest) =>
          (.table (Outline.tomlEntries entries), rest)
    | s => readWord s

/-! ## Documents -/

/-- A document that is being read: what there is so far, and the path of the last
header. -/
structure Draft where
  entries : Outline.Entries
  header : List String

/-- Reads the path of a header up to its closing brackets. -/
def readHeader (closing : List Char) (s : List Char) : Option (List String × List Char) := do
  let (path, rest) ← readKey (s.length + 1) s
  if closing.isPrefixOf rest then some (path, rest.drop closing.length) else none

/-- Reads a line that is no comment. -/
def readLine (d : Draft) (s : List Char) : Option (Draft × List Char) :=
  match s with
  | '[' :: '[' :: rest => do
      let (path, rest) ← readHeader [']', ']'] rest
      let entries ← Outline.append path d.entries
      some (⟨entries, path⟩, rest)
  | '[' :: rest => do
      let (path, rest) ← readHeader [']'] rest
      let entries ← Outline.declare path d.entries
      some (⟨entries, path⟩, rest)
  | s => do
      let (path, rest) ← readKey (s.length + 1) s
      let '=' :: rest := rest | none
      let (v, rest) ← readValue maxNesting (skipSpace rest)
      let entries ← Outline.change (Outline.insert v path) d.header d.entries
      some (⟨entries, d.header⟩, rest)

/-- Reads the lines of a document. -/
def readLines : Nat → Draft → List Char → Option Draft
  | 0, _, _ => none
  | fuel + 1, d, s =>
    match skipLines s.length s with
    | [] => some d
    | s => do
        let (d, rest) ← readLine d s
        let rest ← lineEnd? rest
        readLines fuel d rest

/-- Drops the mark that a text may begin with. -/
def skipMark : List Char → List Char
  | '\ufeff' :: s => s
  | s => s

/-- The document of a text. -/
def read? (source : String) : Option Toml :=
  let s := skipMark source.toList
  (readLines (s.length + 1) ⟨[], []⟩ s).map fun d => .table (Outline.tomlEntries d.entries)

end Toml
end Formulary
