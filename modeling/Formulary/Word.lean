/-!
# Signed words

Integers of formulas are signed words of sixty-four bits.  An operation on
scalars computes the exact result and gives up when it is no word; an operation
on columns wraps around.  Where a word meets a float it counts as the float
nearest to it.

Main results:

- Theorem `word?_eq_some_iff`: the exact result is given or nothing is.
- Theorem `word?_toInt`: every word is given back.
-/

namespace Formulary

/-- The word whose value is `n`, if there is one. -/
def word? (n : Int) : Option Int64 :=
  if Int64.minValue.toInt ≤ n ∧ n ≤ Int64.maxValue.toInt then some (Int64.ofInt n) else none

/-- The exact result is given or nothing is. -/
theorem word?_eq_some_iff {n : Int} {w : Int64} : word? n = some w ↔ w.toInt = n := by
  unfold word?
  constructor
  · intro h
    split at h
    · next hr =>
      injection h with h
      subst h
      obtain ⟨hmin, hmax⟩ := hr
      rw [Int64.toInt_minValue] at hmin
      rw [Int64.toInt_maxValue] at hmax
      exact Int64.toInt_ofInt_of_le hmin (by omega)
    · cases h
  · rintro rfl
    rw [if_pos ⟨Int64.minValue_le_toInt w, Int64.toInt_le w⟩, Int64.ofInt_toInt]

/-- Every word is given back. -/
@[simp]
theorem word?_toInt (w : Int64) : word? w.toInt = some w :=
  word?_eq_some_iff.2 rfl

/-- The float nearest to a word; of two equally near ones the even one. -/
def nearestFloat (w : Int64) : Float :=
  .ofModel (.ofInt64 w)

end Formulary
