import Formulary.Proofs.Value.Order

/-!
# Six comparisons, one order

Four of the comparisons read the order of two values, and `==` and `!=` read their equality.
They agree: `a < b` and `b > a` are one, `a <= b` is whatever `a > b` is not, and two values
that are ordered are equal exactly if each of them is no more than the other.  Only the four
can fail.

Main definitions:

- `Value.SameKind`: two booleans, two numbers or two texts.

Main results:

- Theorem `Value.exists_compares_iff`: which values are ordered.
- Theorem `Value.relate_coherent`: the comparisons agree, and when they fail.
-/

namespace Formulary

/-- Whether a comparison reads the order of two values and not their equality. -/
def Comparison.readsOrder : Comparison → Bool
  | .eq | .ne => false
  | .lt | .le | .gt | .ge => true

/-- The comparison of the exchanged values. -/
def Comparison.flip : Comparison → Comparison
  | .eq => .eq
  | .ne => .ne
  | .lt => .gt
  | .le => .ge
  | .gt => .lt
  | .ge => .le

/-- The comparison that holds where this one does not. -/
def Comparison.negate : Comparison → Comparison
  | .eq => .ne
  | .ne => .eq
  | .lt => .ge
  | .le => .gt
  | .gt => .le
  | .ge => .lt

/-- A comparison holds the other way round for the operands in reverse. -/
theorem Comparison.holds_flip_swap (op : Comparison) (o : Ordering) :
    op.flip.holds o.swap = op.holds o := by
  cases op <;> cases o <;> rfl

theorem Comparison.holds_negate (op : Comparison) (o : Ordering) :
    op.negate.holds o = !op.holds o := by
  cases op <;> cases o <;> rfl

namespace Value

/-! ## Kinds -/

/-- Whether a value is a word or a float. -/
def isNumber : Value → Bool
  | int _ | float _ => true
  | _ => false

/-- Two booleans, two numbers or two texts. -/
def SameKind (a b : Value) : Prop :=
  (a.type = .bool ∧ b.type = .bool) ∨ (a.isNumber = true ∧ b.isNumber = true) ∨
    (a.type = .text ∧ b.type = .text)

/-- Of two values of one kind that are not both defined, both are numbers. -/
theorem SameKind.numbers_of_undefined {a b : Value} (h : SameKind a b)
    (hundefined : a.isUndefined = true ∨ b.isUndefined = true) :
    a.isNumber = true ∧ b.isNumber = true := by
  obtain ⟨ha, hb⟩ | hnumbers | ⟨ha, hb⟩ := h
  · cases a <;> cases ha
    cases b <;> cases hb
    simp [isUndefined] at hundefined
  · exact hnumbers
  · cases a <;> cases ha
    cases b <;> cases hb
    simp [isUndefined] at hundefined

/-- What a number converts to is undefined only if the number is. -/
theorem exists_number? {v : Value} (h : v.isNumber = true) :
    ∃ x, v.number? = some x ∧ x.isNaN = v.isUndefined := by
  cases v with
  | int n => exact ⟨_, rfl, isNaN_nearestFloat n⟩
  | float x => exact ⟨x, rfl, rfl⟩
  | _ => cases h

/-- A value that is read as a float is a number, undefined if the float is. -/
theorem isNumber_of_number? {v : Value} {x : Float} (h : v.number? = some x) :
    v.isNumber = true ∧ v.isUndefined = x.isNaN := by
  obtain ⟨n, rfl, rfl⟩ | rfl := number?_eq_some_iff.1 h
  · exact ⟨rfl, (isNaN_nearestFloat n).symm⟩
  · exact ⟨rfl, rfl⟩

/-- Numbers that are defined are ordered. -/
theorem exists_compares_numbers {a b : Value} (ha : a.isNumber = true) (hb : b.isNumber = true)
    (haund : a.isUndefined = false) (hbund : b.isUndefined = false) : ∃ o, Compares a b o := by
  by_cases hfloat : a.type = .float ∨ b.type = .float
  · obtain ⟨x, hx, hxdef⟩ := exists_number? ha
    obtain ⟨y, hy, hydef⟩ := exists_number? hb
    exact ⟨_, .numbers hx hy hfloat (hxdef.trans haund) (hydef.trans hbund)⟩
  · cases a <;> cases ha
    · cases b <;> cases hb
      · exact ⟨_, .ints _ _⟩
      · exact absurd (.inr rfl) hfloat
    · exact absurd (.inl rfl) hfloat

/-- Null is ordered among all values; others are ordered if they are of one kind and defined. -/
theorem exists_compares_iff {a b : Value} :
    (∃ o, Compares a b o) ↔ a = null ∨ b = null ∨
      (SameKind a b ∧ a.isUndefined = false ∧ b.isUndefined = false) := by
  constructor
  · rintro ⟨o, h⟩
    cases h with
    | nulls => exact .inl rfl
    | first _ => exact .inl rfl
    | last _ => exact .inr (.inl rfl)
    | bools _ _ => exact .inr (.inr ⟨.inl ⟨rfl, rfl⟩, rfl, rfl⟩)
    | ints _ _ => exact .inr (.inr ⟨.inr (.inl ⟨rfl, rfl⟩), rfl, rfl⟩)
    | texts _ _ => exact .inr (.inr ⟨.inr (.inr ⟨rfl, rfl⟩), rfl, rfl⟩)
    | numbers ha hb _ hx hy =>
      obtain ⟨hanum, haund⟩ := isNumber_of_number? ha
      obtain ⟨hbnum, hbund⟩ := isNumber_of_number? hb
      exact .inr (.inr ⟨.inr (.inl ⟨hanum, hbnum⟩), haund.trans hx, hbund.trans hy⟩)
  · rintro (rfl | rfl | ⟨hkind, haund, hbund⟩)
    · cases hb : b.isNull with
      | true =>
        cases b <;> cases hb
        exact ⟨_, .nulls⟩
      | false => exact ⟨_, .first hb⟩
    · cases ha : a.isNull with
      | true =>
        cases a <;> cases ha
        exact ⟨_, .nulls⟩
      | false => exact ⟨_, .last ha⟩
    · obtain ⟨ha, hb⟩ | ⟨ha, hb⟩ | ⟨ha, hb⟩ := hkind
      · cases a <;> cases ha
        cases b <;> cases hb
        exact ⟨_, .bools _ _⟩
      · exact exists_compares_numbers ha hb haund hbund
      · cases a <;> cases ha
        cases b <;> cases hb
        exact ⟨_, .texts _ _⟩

/-! ## The comparisons -/

section Scalars

variable {a b : Value} (ha : a.isColumn = false) (hb : b.isColumn = false)

include ha hb

theorem relate_eq_relateScalars (op : Comparison) : relate op a b = relateScalars op a b := by
  rw [relate, columnOperands?_eq_none ha hb]

/-- A comparison by order reads the order of the operands. -/
theorem relate_eq_map {op : Comparison} (hop : op.readsOrder = true) :
    relate op a b = (compare a b).map fun o => bool (op.holds o) := by
  rw [relate_eq_relateScalars ha hb]
  cases op <;> first | rfl | cases hop

/-- The comparisons that read the order say true or false where there is one. -/
theorem relate_eq_ok_iff {op : Comparison} (hop : op.readsOrder = true) {x : Bool} :
    relate op a b = .ok (bool x) ↔ ∃ o, Compares a b o ∧ op.holds o = x := by
  rw [relate_eq_map ha hb hop]
  simp only [← compares_iff]
  cases compare a b <;> simp [Except.map]

/-- The comparisons that read the order fail where there is none. -/
theorem relate_eq_error_iff {op : Comparison} (hop : op.readsOrder = true) :
    (∃ e, relate op a b = .error e) ↔ ¬ ∃ o, Compares a b o := by
  rw [relate_eq_map ha hb hop]
  simp only [← compares_iff]
  cases compare a b <;> simp [Except.map]

/-- Exchanging the values exchanges below and above. -/
theorem relate_flip_iff {op : Comparison} (hop : op.readsOrder = true) {x : Bool} :
    relate op a b = .ok (bool x) ↔ relate op.flip b a = .ok (bool x) := by
  have hflip : op.flip.readsOrder = true := by cases op <;> first | rfl | cases hop
  rw [relate_eq_ok_iff ha hb hop, relate_eq_ok_iff hb ha hflip]
  constructor
  · rintro ⟨o, h, rfl⟩
    exact ⟨o.swap, h.swap, op.holds_flip_swap o⟩
  · rintro ⟨o, h, rfl⟩
    exact ⟨o.swap, h.swap, by rw [← op.holds_flip_swap, Ordering.swap_swap]⟩

/-- A comparison says the opposite of its negation. -/
theorem relate_negate_iff {op : Comparison} (hop : op.readsOrder = true) {x : Bool} :
    relate op a b = .ok (bool x) ↔ relate op.negate a b = .ok (bool !x) := by
  have hnegate : op.negate.readsOrder = true := by cases op <;> first | rfl | cases hop
  rw [relate_eq_ok_iff ha hb hop, relate_eq_ok_iff ha hb hnegate]
  simp only [Comparison.holds_negate, Bool.not_inj_iff]

/-- Equality says true or false. -/
theorem relate_eq_and_ne : relate .eq a b = .ok (bool (a.equals b)) ∧
    relate .ne a b = .ok (bool !a.equals b) :=
  ⟨relate_eq_relateScalars ha hb .eq, relate_eq_relateScalars ha hb .ne⟩

/-- Every comparison says true or false or fails. -/
theorem relate_total (op : Comparison) :
    (∃ x, relate op a b = .ok (bool x)) ∨ ∃ e, relate op a b = .error e := by
  cases hop : op.readsOrder with
  | true =>
    rw [relate_eq_map ha hb hop]
    cases compare a b with
    | ok o => exact .inl ⟨_, rfl⟩
    | error e => exact .inr ⟨e, rfl⟩
  | false =>
    obtain ⟨heq, hne⟩ := relate_eq_and_ne ha hb
    cases op <;> first | exact .inl ⟨_, heq⟩ | exact .inl ⟨_, hne⟩ | cases hop

/-- Ordered values are equal if each of them is no more than the other. -/
theorem relate_eq_iff_le_and_ge {o : Ordering} (ho : compare a b = .ok o) :
    relate .eq a b = .ok (bool true) ↔
      relate .le a b = .ok (bool true) ∧ relate .ge a b = .ok (bool true) := by
  have hequals := (compares_iff.1 ho).equals_iff
  rw [(relate_eq_and_ne ha hb).1, relate_eq_map ha hb rfl, relate_eq_map ha hb rfl, ho]
  simp only [Except.map, Except.ok.injEq, bool.injEq, hequals]
  cases o <;> decide

/-- The order is missing between values of different kinds and at the undefined float. -/
theorem relate_fails_iff {op : Comparison} (hop : op.readsOrder = true) :
    (∃ e, relate op a b = .error e) ↔ a ≠ null ∧ b ≠ null ∧
      ((a.isNumber = true ∧ b.isNumber = true ∧ (a.isUndefined = true ∨ b.isUndefined = true)) ∨
        ¬ SameKind a b) := by
  rw [relate_eq_error_iff ha hb hop, exists_compares_iff, not_or, not_or]
  refine and_congr_right' (and_congr_right' ?_)
  constructor
  · intro hnot
    by_cases hkind : SameKind a b
    · have hundefined : a.isUndefined = true ∨ b.isUndefined = true := by
        by_contra hdefined
        rw [not_or, Bool.not_eq_true, Bool.not_eq_true] at hdefined
        exact hnot ⟨hkind, hdefined⟩
      obtain ⟨hanum, hbnum⟩ := hkind.numbers_of_undefined hundefined
      exact .inl ⟨hanum, hbnum, hundefined⟩
    · exact .inr hkind
  · rintro (⟨-, -, hundefined⟩ | hkind) ⟨hkind', haund, hbund⟩
    · simp [haund, hbund] at hundefined
    · exact hkind hkind'

end Scalars

/-- How the six comparisons of two values hang together. -/
structure Coherent (a b : Value) : Prop where
  /-- Every comparison says true or false or fails. -/
  total : ∀ op, (∃ x, relate op a b = .ok (bool x)) ∨ ∃ e, relate op a b = .error e
  lt_iff_gt : ∀ x, relate .lt a b = .ok (bool x) ↔ relate .gt b a = .ok (bool x)
  le_iff_ge : ∀ x, relate .le a b = .ok (bool x) ↔ relate .ge b a = .ok (bool x)
  le_iff_not_gt : ∀ x, relate .le a b = .ok (bool x) ↔ relate .gt a b = .ok (bool !x)
  eq_and_ne : ∃ x, relate .eq a b = .ok (bool x) ∧ relate .ne a b = .ok (bool !x)
  eq_iff_le_and_ge : ∀ o, compare a b = .ok o → (relate .eq a b = .ok (bool true) ↔
    relate .le a b = .ok (bool true) ∧ relate .ge a b = .ok (bool true))
  /-- The order is missing between values of different kinds and at the undefined float. -/
  fails_iff : ∀ op, op.readsOrder = true → ((∃ e, relate op a b = .error e) ↔
    a ≠ null ∧ b ≠ null ∧
      ((a.isNumber = true ∧ b.isNumber = true ∧ (a.isUndefined = true ∨ b.isUndefined = true)) ∨
        ¬ SameKind a b))

/-- The comparisons of two values that are no columns hang together. -/
theorem relate_coherent {a b : Value} (ha : a.isColumn = false) (hb : b.isColumn = false) :
    Coherent a b where
  total := relate_total ha hb
  lt_iff_gt _ := relate_flip_iff ha hb rfl
  le_iff_ge _ := relate_flip_iff ha hb rfl
  le_iff_not_gt _ := relate_negate_iff ha hb rfl
  eq_and_ne := ⟨_, relate_eq_and_ne ha hb⟩
  eq_iff_le_and_ge _ := relate_eq_iff_le_and_ge ha hb
  fails_iff _ := relate_fails_iff ha hb

/-- The undefined float is neither more nor less than a word, and different from it. -/
theorem relate_coherent_undefined :
    (∃ e, relate .le (float (0 / 0)) (int 1) = .error e) ∧
      ∃ x, relate .eq (float (0 / 0)) (int 1) = .ok (bool x) ∧
        relate .ne (float (0 / 0)) (int 1) = .ok (bool !x) := by
  have hcoherent : Coherent (float (0 / 0)) (int 1) := relate_coherent rfl rfl
  have hundefined : (float (0 / 0)).isUndefined = true := by decide +kernel
  refine ⟨(hcoherent.fails_iff .le rfl).2 ⟨?_, ?_, .inl ⟨rfl, rfl, .inl hundefined⟩⟩,
    hcoherent.eq_and_ne⟩
  all_goals exact Value.noConfusion

end Value
end Formulary
