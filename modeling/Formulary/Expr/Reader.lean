import Formulary.Expr.Basic
import Formulary.Text.Blank

/-!
# Readers

A reader takes characters from the front of a text.  It has three outcomes: a
value with the rest of the text, a miss, after which another reader may try the
same text, and a halt, which ends the whole reading.

Main definitions:

- `Outcome` and `Reader`, with `Reader.orElse` and `Reader.many`.
- `symbol`, `keyword` and `identifier`: the readers of single tokens.
-/

namespace Formulary
namespace Syntax

/-- Why a whole reading ends at once. -/
inductive HaltCause where
  /-- A text has no closing quote. -/
  | unterminated
  /-- The nesting limit is passed. -/
  | tooDeep
  deriving DecidableEq

/-- What a reader makes of a text. -/
inductive Outcome (α : Type) where
  /-- The value read, and the rest of the text. -/
  | done (value : α) (rest : List Char)
  /-- Nothing was read; the text does not fit from here. -/
  | missed (here : List Char)
  /-- The whole reading ends here. -/
  | halted (cause : HaltCause) (here : List Char)

/-- Takes characters from the front of a text. -/
abbrev Reader (α : Type) := List Char → Outcome α

/-- Goes on with `next` after a value. -/
def Outcome.andThen {α β : Type} (o : Outcome α) (next : α → Reader β) : Outcome β :=
  match o with
  | .done a rest => next a rest
  | .missed here => .missed here
  | .halted cause here => .halted cause here

/-- Changes the value read. -/
def Outcome.map {α β : Type} (f : α → β) : Outcome α → Outcome β
  | .done a rest => .done (f a) rest
  | .missed here => .missed here
  | .halted cause here => .halted cause here

/-- Tries `second` on the same text when `first` misses. -/
def Reader.orElse {α : Type} (first second : Reader α) : Reader α := fun s =>
  match first s with
  | .missed _ => second s
  | o => o

/-- Reads `item` as often as it fits, at most `fuel` times. -/
def Reader.upTo {α : Type} (item : Reader α) : Nat → Reader (List α)
  | 0, s => .done [] s
  | fuel + 1, s =>
      match item s with
      | .done a rest => (Reader.upTo item fuel rest).map (a :: ·)
      | .missed _ => .done [] s
      | .halted cause here => .halted cause here

/-- Reads `item` as often as it fits.  An item that takes a character fits at
most as often as the text has characters. -/
def Reader.many {α : Type} (item : Reader α) : Reader (List α) := fun s =>
  Reader.upTo item s.length s

/-- Reads an item, if one fits. -/
def Reader.optional {α : Type} (item : Reader α) : Reader (Option α) := fun s =>
  match item s with
  | .done a rest => .done (some a) rest
  | .missed _ => .done none s
  | .halted cause here => .halted cause here

/-- A letter, a digit or an underscore of the ASCII range. -/
def isIdentChar (c : Char) : Bool :=
  c.isAlphanum || c == '_'

/-- A letter or an underscore of the ASCII range. -/
def isIdentStart (c : Char) : Bool :=
  c.isAlpha || c == '_'

/-- Reads the characters of `word`. -/
def literally (word : List Char) : Reader Unit := fun s =>
  if word.isPrefixOf s then .done () (s.drop word.length) else .missed s

/-- Reads one character. -/
def symbol (c : Char) : Reader Unit :=
  literally [c]

/-- Reads `word` where no longer word stands. -/
def keyword (word : String) : Reader Unit := fun s =>
  (literally word.toList s).andThen fun _ rest =>
    match rest with
    | c :: _ => if isIdentChar c then .missed rest else .done () rest
    | [] => .done () rest

/-- Skips white space on both sides of `item`. -/
def spaced {α : Type} (item : Reader α) : Reader α := fun s =>
  (item (Text.skipSpacing s)).andThen fun a rest => .done a (Text.skipSpacing rest)

/-- Reads an identifier, reserved words included. -/
def identifier : Reader String
  | c :: s =>
      if isIdentStart c then
        .done (String.ofList (c :: s.takeWhile isIdentChar)) (s.dropWhile isIdentChar)
      else .missed (c :: s)
  | [] => .missed []

/-- Words that are never names. -/
def reservedWords : List String :=
  ["and", "or", "not", "true", "false", "null", "True", "False", "None"]

/-- Reads an identifier that is no reserved word. -/
def nameToken : Reader String := fun s =>
  (identifier s).andThen fun ident rest =>
    if reservedWords.contains ident then .missed s else .done ident rest

/-- The word at the start of a text, or else its first character. -/
def firstToken (s : List Char) : String :=
  match s.takeWhile isIdentChar with
  | [] => String.ofList (s.take 1)
  | word => String.ofList word

end Syntax
end Formulary
