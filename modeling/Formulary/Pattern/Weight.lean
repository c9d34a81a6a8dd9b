import Formulary.Pattern.Basic

/-!
# Weight of patterns

A short pattern may stand for a very long one: repetition within repetition
multiplies.  The weight of a pattern estimates the bytes of an automaton that reads
UTF-8 text backwards by it, and a bound on the weight keeps patterns within reason.
It is an estimate only: the automaton itself is not built here, so that a pattern
close to the bound may be taken on one side and refused on the other.

Main definitions:

- `Shape.weight` and `Shape.weightBound`.
-/

namespace Formulary
namespace CharSet

/-- The weight of a set.  The classes of all scripts have hundreds of ranges, each of
which is some states of the automaton. -/
def weight : CharSet → Nat
  | none => 32
  | range first last =>
      if first = last then 32 * last.utf8Size else if last.toNat < 128 then 64 else 200
  | digit => 5116
  | word => 49836
  | blank => 680
  | complement digit => 12720
  | complement word => 46420
  | union l r => l.weight + r.weight
  | complement s => s.weight + 1000
  | caseless s => 2 * s.weight

end CharSet

namespace Shape

/-- The weight of a shape. -/
def weight : Shape → Nat
  | empty => 32
  | one set => set.weight
  | anchor _ => 32
  | both a b => a.weight + b.weight
  | either a b => a.weight + b.weight + 40
  | capture _ s => s.weight + 64
  | turns s least none _ => max least 1 * s.weight + 40
  | turns s least (some greatest) _ =>
      least * s.weight + (greatest - least) * (s.weight + 40)

/-- The greatest weight of a pattern. -/
def weightBound : Nat := 10 * 1024 * 1024

end Shape
end Formulary
