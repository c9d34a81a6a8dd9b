import Formulary.Function.Standard
import Formulary.Proofs.Result

/-!
# Values given to a function

Sums and extreme values are taken of any number of values.  These are given as the items of
one list, as the cells of one column, or as two or more arguments, and the function finds the
same values whichever way it is.

Main definitions:

- `Standard.Gives`: the ways to give values to a function.

Main results:

- Theorem `Standard.Gives.candidates_eq`: the function finds the values.
- Theorem `Standard.Gives.call_eq`: the number of arguments is accepted.
-/

namespace Formulary

/-- A call has the value of its operation. -/
theorem ofValueResult_eq_ok_iff {α : Type} {r : Except ValueError α} {a : α} :
    ofValueResult r = .ok a ↔ r = .ok a :=
  mapError_eq_ok_iff

theorem exists_ofValueResult_eq_error_iff {α : Type} {r : Except ValueError α} :
    (∃ failure, ofValueResult r = .error failure) ↔ ∃ e, r = .error e := by
  cases r <;> simp [ofValueResult, Except.mapError]

namespace Standard

/-- The ways to give values to a function: the items of one list, the cells of one column, or
two or more arguments. -/
inductive Gives : List Value → List Value → Prop where
  | list (values : List Value) : Gives [.list values] values
  | column (c : Column) : Gives [.column c] c.values
  | arguments {values : List Value} (h : 2 ≤ values.length) : Gives values values

variable {args values : List Value}

/-- The function finds the values that are given. -/
theorem Gives.candidates_eq (h : Gives args values) : candidates args = values := by
  cases h with
  | list => rfl
  | column c => rfl
  | arguments h =>
    -- Only a single argument is taken apart.
    unfold candidates
    split
    · exact absurd h (Nat.not_succ_le_self 1)
    · exact absurd h (Nat.not_succ_le_self 1)
    · rfl

theorem Gives.length_pos (h : Gives args values) : 1 ≤ args.length := by
  cases h with
  | list => exact Nat.le_refl 1
  | column c => exact Nat.le_refl 1
  | arguments h => exact Nat.le_of_succ_le h

/-- A function of one or more arguments takes values in all the ways. -/
theorem Gives.call_eq (h : Gives args values) {f : StandardFunction}
    (hf : f.arity = .atLeast 1) : f.call args = f.apply args := by
  have haccepts : f.arity.accepts args.length = true := by
    rw [hf]
    exact decide_eq_true h.length_pos
  rw [StandardFunction.call, expectArity, if_pos haccepts]

end Standard
end Formulary
