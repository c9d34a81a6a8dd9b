import Formulary.Proofs.Function.Candidates
import Mathlib.Algebra.Ring.Int.Defs

/-!
# Sums of words

Words are added from left to right and nulls are left out.  The sum is exact, and it fails as
soon as what has been added up is no word any more.  So it may fail although the sum of all
words is a word, and it is the same sum whichever way the values are given.

Main definitions:

- `IsWord`: the integers that are words.
- `Standard.total`: the exact sum of the words among some values.
- `Standard.Fits`: all sums on the way are words.

Main results:

- Theorems `Standard.sumFrom_exact` and `Standard.sumFrom_overflow`: values added to a word.
- Theorem `Standard.sum_exact_or_overflow`: the sum of some values.
-/

namespace Formulary

/-- The integers that are words. -/
def IsWord (n : Int) : Prop :=
  -2 ^ 63 ≤ n ∧ n < 2 ^ 63

instance (n : Int) : Decidable (IsWord n) :=
  inferInstanceAs (Decidable (_ ∧ _))

theorem isWord_toInt (w : Int64) : IsWord w.toInt :=
  ⟨Int64.le_toInt w, Int64.toInt_lt w⟩

/-- There is no word for an integer that is none. -/
theorem not_isWord_of_word? {n : Int} (h : word? n = none) : ¬ IsWord n := by
  rintro ⟨hlow, hhigh⟩
  have hrange : Int64.minValue.toInt ≤ n ∧ n ≤ Int64.maxValue.toInt := by
    rw [Int64.toInt_minValue, Int64.toInt_maxValue]
    omega
  rw [word?, if_pos hrange] at h
  cases h

namespace Standard

/-- The exact sum of the words among some values. -/
def total (values : List Value) : Int :=
  ((values.filterMap Value.int?).map Int64.toInt).sum

@[simp]
theorem total_nil : total [] = 0 :=
  rfl

@[simp]
theorem total_null (values : List Value) : total (.null :: values) = total values :=
  rfl

@[simp]
theorem total_int (n : Int64) (values : List Value) :
    total (.int n :: values) = n.toInt + total values :=
  rfl

/-- The sum of the values that are not null, added to a word. -/
def sumFrom (w : Int64) (values : List Value) : Except ValueError Value :=
  (values.filter fun v => !v.isNull).foldlM Value.add (.int w)

theorem sumFrom_null (w : Int64) (values : List Value) :
    sumFrom w (.null :: values) = sumFrom w values :=
  rfl

/-- The next word is added if the sum is a word. -/
theorem sumFrom_of_word? {w n w' : Int64} (h : word? (w.toInt + n.toInt) = some w')
    (values : List Value) : sumFrom w (.int n :: values) = sumFrom w' values := by
  have hadd : Value.add (.int w) (.int n) = .ok (.int w') := by
    show Value.exact _ _ = _
    rw [Value.exact, h]
  show (Value.add (.int w) (.int n) >>= fun v => List.foldlM Value.add v _) = _
  rw [hadd]
  rfl

/-- The sum fails if adding the next word gives none. -/
theorem sumFrom_of_word?_none {w n : Int64} (h : word? (w.toInt + n.toInt) = none)
    (values : List Value) : sumFrom w (.int n :: values) = .error (.overflow .add) := by
  have hadd : Value.add (.int w) (.int n) = .error (.overflow .add) := by
    show Value.exact _ _ = _
    rw [Value.exact, h]
  show (Value.add (.int w) (.int n) >>= fun v => List.foldlM Value.add v _) = _
  rw [hadd]
  rfl

/-! ## Sums on the way -/

/-- All sums from the left, added to a word, are words. -/
def Fits (w : Int64) (values : List Value) : Prop :=
  ∀ front, front <+: values → IsWord (w.toInt + total front)

theorem fits_nil (w : Int64) : Fits w [] := by
  intro front hfront
  rw [List.prefix_nil.1 hfront, total_nil, Int.add_zero]
  exact isWord_toInt w

/-- Every sum from the left is the empty one or goes on from the first value. -/
theorem fits_cons_iff {w : Int64} {v : Value} {values : List Value} :
    Fits w (v :: values) ↔
      ∀ front, front <+: values → IsWord (w.toInt + total (v :: front)) := by
  constructor
  · intro h front hfront
    exact h _ ((List.prefix_cons_inj v).2 hfront)
  · intro h front hfront
    obtain rfl | ⟨rest, rfl, hrest⟩ := List.prefix_cons_iff.1 hfront
    · exact fits_nil w [] List.nil_prefix
    · exact h rest hrest

/-- Null does not count for the partial sums. -/
theorem fits_null_iff {w : Int64} {values : List Value} :
    Fits w (.null :: values) ↔ Fits w values :=
  fits_cons_iff

/-- The sums from the left are words if the first one is and the others go on from it. -/
theorem fits_int_iff {w n : Int64} {values : List Value} :
    Fits w (.int n :: values) ↔
      ∃ w', word? (w.toInt + n.toInt) = some w' ∧ Fits w' values := by
  have hstep : ∀ w' : Int64, word? (w.toInt + n.toInt) = some w' →
      (Fits w (.int n :: values) ↔ Fits w' values) := by
    intro w' hw'
    rw [fits_cons_iff]
    simp only [total_int, ← Int.add_assoc, ← word?_eq_some_iff.1 hw']
    rfl
  constructor
  · intro h
    cases hnext : word? (w.toInt + n.toInt) with
    | none =>
      have hfirst := fits_cons_iff.1 h [] List.nil_prefix
      rw [total_int, total_nil, Int.add_zero] at hfirst
      exact absurd hfirst (not_isWord_of_word? hnext)
    | some w' => exact ⟨w', rfl, (hstep w' hnext).1 h⟩
  · rintro ⟨w', hw', h⟩
    exact (hstep w' hw').2 h

section Words

variable {values : List Value} (hwords : ∀ v ∈ values, v = .null ∨ ∃ n, v = .int n)

include hwords

/-- If all sums from the left are words, the sum is exact. -/
theorem sumFrom_exact {w : Int64} (h : Fits w values) :
    ∃ r : Int64, r.toInt = w.toInt + total values ∧ sumFrom w values = .ok (.int r) := by
  induction values generalizing w with
  | nil => exact ⟨w, (Int.add_zero _).symm, rfl⟩
  | cons v values ih =>
    obtain ⟨rfl | ⟨n, rfl⟩, hrest⟩ := List.forall_mem_cons.1 hwords
    · rw [sumFrom_null, total_null]
      exact ih hrest (fits_null_iff.1 h)
    · obtain ⟨w', hw', hfits⟩ := fits_int_iff.1 h
      obtain ⟨r, hr, hsum⟩ := ih hrest hfits
      refine ⟨r, ?_, ?_⟩
      · rw [hr, word?_eq_some_iff.1 hw', total_int, Int.add_assoc]
      · rw [sumFrom_of_word? hw', hsum]

/-- If some sum from the left is no word, the sum fails. -/
theorem sumFrom_overflow {w : Int64} (h : ¬ Fits w values) :
    sumFrom w values = .error (.overflow .add) := by
  induction values generalizing w with
  | nil => exact absurd (fits_nil w) h
  | cons v values ih =>
    obtain ⟨rfl | ⟨n, rfl⟩, hrest⟩ := List.forall_mem_cons.1 hwords
    · rw [sumFrom_null]
      exact ih hrest (mt fits_null_iff.2 h)
    · cases hnext : word? (w.toInt + n.toInt) with
      | none => exact sumFrom_of_word?_none hnext values
      | some w' =>
        rw [sumFrom_of_word? hnext]
        apply ih hrest
        intro hfits
        exact h (fits_int_iff.2 ⟨w', hnext, hfits⟩)

end Words

/-! ## The function -/

/-- A call finds the sum whichever way its values are given. -/
theorem Gives.call_sum {args values : List Value} (h : Gives args values) :
    StandardFunction.sum.call args = ofValueResult (sumFrom 0 values) := by
  rw [h.call_eq rfl]
  show ofValueResult (sum (candidates args)) = _
  rw [h.candidates_eq]
  rfl

/-- Words and nulls have their exact sum if all sums from the left are words.  Otherwise the
sum overflows.  It is the same whichever way the values are given. -/
theorem sum_exact_or_overflow {args values : List Value} (hgives : Gives args values)
    (hwords : ∀ v ∈ values, v = .null ∨ ∃ n, v = .int n) :
    ((∀ front, front <+: values → IsWord (total front)) →
      ∃ r : Int64, r.toInt = total values ∧ StandardFunction.sum.call args = .ok (.int r)) ∧
    ((∃ front, front <+: values ∧ ¬ IsWord (total front)) →
      StandardFunction.sum.call args = .error (.value (.overflow .add))) ∧
    ∀ args', Gives args' values →
      StandardFunction.sum.call args' = StandardFunction.sum.call args := by
  have hfits : Fits 0 values ↔ ∀ front, front <+: values → IsWord (total front) := by
    simp only [Fits, Int64.toInt_zero, Int.zero_add]
  refine ⟨fun hprefixes => ?_, ?_, fun args' hgives' => ?_⟩
  · obtain ⟨r, hr, hsum⟩ := sumFrom_exact hwords (hfits.2 hprefixes)
    rw [Int64.toInt_zero, Int.zero_add] at hr
    refine ⟨r, hr, ?_⟩
    rw [hgives.call_sum, hsum]
    rfl
  · rintro ⟨front, hfront, hoverflow⟩
    have hsum := sumFrom_overflow hwords fun h => hoverflow (hfits.1 h front hfront)
    rw [hgives.call_sum, hsum]
    rfl
  · rw [hgives'.call_sum, hgives.call_sum]

/-- One more and one less than the greatest word in all: the sum overflows on the way, although
all words together make a word. -/
theorem sum_exact_or_overflow_greatestWord :
    IsWord (total [.int Int64.maxValue, .null, .int 1, .int (-1)]) ∧
      StandardFunction.sum.call [.int Int64.maxValue, .null, .int 1, .int (-1)] =
        .error (.value (.overflow .add)) ∧
      StandardFunction.sum.call
          [.column ⟨"c", .ints [some Int64.maxValue, none, some 1, some (-1)]⟩] =
        StandardFunction.sum.call [.int Int64.maxValue, .null, .int 1, .int (-1)] := by
  have hgives : Gives [.int Int64.maxValue, .null, .int 1, .int (-1)]
      [.int Int64.maxValue, .null, .int 1, .int (-1)] := .arguments (by decide)
  have hwords : ∀ v ∈ [Value.int Int64.maxValue, .null, .int 1, .int (-1)],
      v = .null ∨ ∃ n, v = .int n := by simp
  have htotal : total [.int Int64.maxValue, .null, .int 1, .int (-1)] = 2 ^ 63 - 1 := rfl
  have hpart : total [.int Int64.maxValue, .null, .int 1] = 2 ^ 63 := rfl
  obtain ⟨-, hoverflow, hagree⟩ := sum_exact_or_overflow hgives hwords
  refine ⟨?_, hoverflow ⟨[.int Int64.maxValue, .null, .int 1], ?_, ?_⟩, hagree _ ?_⟩
  · rw [htotal]
    decide
  · exact ⟨[.int (-1)], rfl⟩
  · rw [hpart]
    decide
  · exact .column ⟨"c", .ints [some Int64.maxValue, none, some 1, some (-1)]⟩

end Standard
end Formulary
