import Formulary.Pattern.Basic
import Formulary.Text.Hexadecimal

/-!
# Escapes in patterns

Behind a backslash a letter names a character, a class of characters or an anchor;
a punctuation mark there stands for itself.  A character may also be named by its
code point in hexadecimal.

Classes that are named by a property of Unicode, `\p{..}` and `\P{..}`, are left out:
a pattern with one of them is refused as an unknown escape, where a full engine for
regular expressions takes it.

Main definitions:

- `PatternError`, with `PatternError.message`.
- `Pattern.readEscape`.
-/

namespace Formulary

/-- Why a text is no pattern. -/
inductive PatternError where
  | unclosedGroup | unopenedGroup | unknownGroup | repeatedName
  | nothingToRepeat | malformedRepetition
  | unclosedSet | malformedRange
  | unknownEscape | incompleteEscape
  | tooDeep | tooLarge
  deriving DecidableEq

/-- The cause in words. -/
def PatternError.message : PatternError → String
  | unclosedGroup => "unclosed group"
  | unopenedGroup => "unopened group"
  | unknownGroup => "unknown kind of group"
  | repeatedName => "two groups of one name"
  | nothingToRepeat => "nothing to repeat"
  | malformedRepetition => "malformed repetition"
  | unclosedSet => "unclosed character set"
  | malformedRange => "malformed character range"
  | unknownEscape => "unknown escape sequence"
  | incompleteEscape => "incomplete escape sequence"
  | tooDeep => "parts are nested too deeply"
  | tooLarge => "the pattern is too large"

namespace Pattern

/-- What an escape stands for. -/
inductive Escape where
  | char (c : Char)
  | set (s : CharSet)
  | anchor (a : Anchor)

/-- Whether a backslash may stand before the character to take away its meaning. -/
def isEscapable (c : Char) : Bool :=
  decide (c.toNat < 128) && !c.isAlphanum && c != '<' && c != '>'

/-- The character of a code point. -/
def charOf (n : Nat) : Except PatternError Escape :=
  if n.isValidChar then .ok (.char (Char.ofNat n)) else .error .unknownEscape

/-- Reads a code point: `count` digits, or any number of them between braces. -/
def readCodePoint (count : Nat) (s : List Char) : Except PatternError (Escape × List Char) :=
  match s with
  | '\x7b' :: rest =>
    let digits := rest.takeWhile (· != '\x7d')
    match rest.drop digits.length, Text.hexNumber? digits.length 0 digits with
    | _ :: rest, some (n, _) =>
        if digits.isEmpty then .error .unknownEscape else (charOf n).map fun e => (e, rest)
    | _, _ => .error .unknownEscape
  | s =>
    match Text.hexNumber? count 0 s with
    | some (n, rest) => (charOf n).map fun e => (e, rest)
    | none => .error .unknownEscape

/-- Whether a name between braces may hold the character. -/
def isEdgeLetter (c : Char) : Bool :=
  c.isAlpha || c == '-'

/-- Reads what follows the letter of a word edge: the kind of edge between braces, if
there is one. -/
def readEdge (s : List Char) : Except PatternError (Escape × List Char) :=
  match s with
  | '\x7b' :: rest =>
    let name := rest.takeWhile isEdgeLetter
    if rest.isEmpty then .error .incompleteEscape
    else if name.isEmpty then .ok (.anchor .wordEdge, s)
    else
      match rest.drop name.length, String.ofList name with
      | '\x7d' :: rest, "start" => .ok (.anchor .wordStart, rest)
      | '\x7d' :: rest, "end" => .ok (.anchor .wordEnd, rest)
      | '\x7d' :: rest, "start-half" => .ok (.anchor .noWordBefore, rest)
      | '\x7d' :: rest, "end-half" => .ok (.anchor .noWordAfter, rest)
      | _, _ => .error .unknownEscape
  | s => .ok (.anchor .wordEdge, s)

/-- Reads what follows a backslash. -/
def readEscape : List Char → Except PatternError (Escape × List Char)
  | [] => .error .incompleteEscape
  | c :: rest =>
    match c with
    | 'd' => .ok (.set .digit, rest)
    | 'D' => .ok (.set (.complement .digit), rest)
    | 'w' => .ok (.set .word, rest)
    | 'W' => .ok (.set (.complement .word), rest)
    | 's' => .ok (.set .blank, rest)
    | 'S' => .ok (.set (.complement .blank), rest)
    | 'n' => .ok (.char '\n', rest)
    | 't' => .ok (.char '\t', rest)
    | 'r' => .ok (.char '\r', rest)
    | 'f' => .ok (.char '\x0c', rest)
    | 'v' => .ok (.char '\x0b', rest)
    | 'a' => .ok (.char '\x07', rest)
    | 'x' => readCodePoint 2 rest
    | 'u' => readCodePoint 4 rest
    | 'U' => readCodePoint 8 rest
    | 'A' => .ok (.anchor .textStart, rest)
    | 'z' => .ok (.anchor .textEnd, rest)
    | 'b' => readEdge rest
    | 'B' => .ok (.anchor .noWordEdge, rest)
    | '<' => .ok (.anchor .wordStart, rest)
    | '>' => .ok (.anchor .wordEnd, rest)
    | c => if isEscapable c then .ok (.char c, rest) else .error .unknownEscape

end Pattern
end Formulary
