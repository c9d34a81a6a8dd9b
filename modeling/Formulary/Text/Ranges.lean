/-!
# Runs of code points

Properties of characters come as runs of code points, and so do the ways in which one
character goes over into another.

Main definitions:

- `inRanges`: whether a code point lies in a run.
- `ShiftRun`, with `shifted`: code points that are moved by one distance.
-/

namespace Formulary
namespace Text

/-- Whether `n` lies in one of the ranges, ends included. -/
def inRanges (ranges : List (Nat × Nat)) (n : Nat) : Bool :=
  ranges.any fun (first, last) => decide (first ≤ n) && decide (n ≤ last)

/-- A run of code points that are moved by the same distance: the first one, the
last one, the step from one to the next, and the distance. -/
structure ShiftRun where
  first : Nat
  last : Nat
  step : Nat
  shift : Int

namespace ShiftRun

/-- Whether the run holds the code point. -/
def holds (r : ShiftRun) (n : Nat) : Bool :=
  decide (r.first ≤ n) && decide (n ≤ r.last) && (n - r.first) % r.step == 0

/-- The code point of the run that is moved to `n`. -/
def source? (r : ShiftRun) (n : Nat) : Option Nat :=
  let m := ((n : Int) - r.shift).toNat
  if r.holds m && (m : Int) + r.shift == n then some m else none

end ShiftRun

/-- Where the runs move a code point; one that they do not hold stays. -/
def shifted (runs : List ShiftRun) (n : Nat) : Nat :=
  match runs.find? fun r => r.holds n with
  | some r => ((n : Int) + r.shift).toNat
  | none => n

end Text
end Formulary
