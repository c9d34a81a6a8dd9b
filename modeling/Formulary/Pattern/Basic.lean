import Formulary.Text.Alphabet
import Formulary.Text.Blank
import Formulary.Text.Folding

/-!
# Patterns

A pattern describes texts by single characters, sequence, choice, repetition and
anchors.  A capture remembers the part of the text that its body matched.

Main definitions:

- `CharSet`, with `CharSet.contains`.
- `Shape`: what a pattern describes.
-/

namespace Formulary

/-- A set of characters. -/
inductive CharSet where
  | none
  | range (first last : Char)
  | digit
  | word
  | blank
  | union (left right : CharSet)
  | complement (set : CharSet)
  /-- Characters that differ at most in case from one of the set. -/
  | caseless (set : CharSet)
  deriving Inhabited

namespace CharSet

/-- The set of one character. -/
def single (c : Char) : CharSet :=
  range c c

/-- All characters. -/
def every : CharSet :=
  complement none

/-- All characters but the line feed. -/
def inLine : CharSet :=
  complement (single '\n')

/-- The characters of both sets. -/
def both (left right : CharSet) : CharSet :=
  complement (union (complement left) (complement right))

/-- The characters of the left set that the right one lacks. -/
def without (left right : CharSet) : CharSet :=
  complement (union (complement left) right)

/-- The characters of one of the sets but not of the other. -/
def exactlyOne (left right : CharSet) : CharSet :=
  union (without left right) (without right left)

/-- The union of ranges. -/
def ofRanges (ranges : List (Char × Char)) : CharSet :=
  ranges.foldr (fun (first, last) s => union (range first last) s) none

/-- Whether the set has the character. -/
def contains : CharSet → Char → Bool
  | none, _ => false
  | range first last, c => decide (first ≤ c) && decide (c ≤ last)
  | digit, c => Text.isDecimalDigit c
  | word, c => Text.isWordChar c
  | blank, c => Text.isBlank c
  | union l r, c => l.contains c || r.contains c
  | complement s, c => !s.contains c
  | caseless s, c =>
      s.contains c || (Text.caseVariants c.toNat).any fun n => s.contains (Char.ofNat n)

end CharSet

/-- A condition on a place in the text. -/
inductive Anchor where
  | textStart | textEnd | lineStart | lineEnd | wordEdge | noWordEdge
  /-- A word begins here. -/
  | wordStart
  /-- A word ends here. -/
  | wordEnd
  /-- No character of a word comes before. -/
  | noWordBefore
  /-- No character of a word comes behind. -/
  | noWordAfter
  deriving DecidableEq, Inhabited

/-- Whether a character is there and belongs to a word. -/
def Anchor.inWord (c : Option Char) : Bool :=
  c.any Text.isWordChar

/-- Whether the condition holds between two characters; none stands for an end of
the text. -/
def Anchor.holds : Anchor → Option Char → Option Char → Bool
  | textStart, before, _ => before.isNone
  | textEnd, _, after => after.isNone
  | lineStart, before, _ => before.all (· == '\n')
  | lineEnd, _, after => after.all (· == '\n')
  | wordEdge, before, after => inWord before != inWord after
  | noWordEdge, before, after => inWord before == inWord after
  | wordStart, before, after => !inWord before && inWord after
  | wordEnd, before, after => inWord before && !inWord after
  | noWordBefore, before, _ => !inWord before
  | noWordAfter, _, after => !inWord after

/-- What a pattern describes. -/
inductive Shape where
  | empty
  | one (set : CharSet)
  | anchor (condition : Anchor)
  | both (first second : Shape)
  /-- The first alternative is preferred. -/
  | either (first second : Shape)
  | capture (index : Nat) (body : Shape)
  /-- As many turns as possible if greedy, and as few as possible otherwise. -/
  | turns (body : Shape) (least : Nat) (greatest : Option Nat) (greedy : Bool)
  deriving Inhabited

namespace Shape

/-- The shapes one after the other. -/
def inSequence : List Shape → Shape
  | [] => empty
  | [s] => s
  | s :: rest => both s (inSequence rest)

/-- A choice among shapes, the earlier ones preferred. -/
def choice : List Shape → Shape
  | [] => empty
  | [s] => s
  | s :: rest => either s (choice rest)

/-- Whether the shape may match without consuming a character. -/
def mayBeEmpty : Shape → Bool
  | empty => true
  | one _ => false
  | anchor _ => true
  | both a b => a.mayBeEmpty && b.mayBeEmpty
  | either a b => a.mayBeEmpty || b.mayBeEmpty
  | capture _ s => s.mayBeEmpty
  | turns s least _ _ => least == 0 || s.mayBeEmpty

/-- The greatest index of a capture that can take part in a match. -/
def captureCount : Shape → Nat
  | both a b => max a.captureCount b.captureCount
  | either a b => max a.captureCount b.captureCount
  | capture i s => max i s.captureCount
  | turns s _ greatest _ => if greatest = some 0 then 0 else s.captureCount
  | _ => 0

end Shape
end Formulary
