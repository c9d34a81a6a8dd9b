import Formulary.Proofs.Compilation.Meaning

/-!
# Chains of scalars

A chain of operands that are no columns has the value that its first decisive operand gives
it: the error of an operand that fails, or the truth of an operand that decides.  What comes
after is not looked at.  If no operand is decisive, the chain has the value of an empty one.

Main definitions:

- `Connective.verdict?`: what an operand makes of the chain.
- `Connective.NoColumns`: no operand is a column, as far as the chain is evaluated.

Main results:

- Theorem `chain_eq_findSome?`: the first verdict is the value of a chain.
- Theorem `evaluate_logic_scalars`: so it is for the chains of formulas, whatever follows.
-/

namespace Formulary

namespace Connective

/-- What an operand makes of the chain: its error, or the truth that decides. -/
def verdict? (op : Connective) : Meaning → Option Meaning
  | .error e => some (.error e)
  | .ok v => if v.isTruthy = op.unit then none else some (.ok (.bool !op.unit))

/-- A value with the truth of the unit decides nothing. -/
theorem verdict?_open {op : Connective} {v : Value} (h : v.isTruthy = op.unit) :
    op.verdict? (.ok v) = none :=
  if_pos h

theorem verdict?_decided {op : Connective} {v : Value} (h : v.isTruthy ≠ op.unit) :
    op.verdict? (.ok v) = some (.ok (.bool !op.unit)) :=
  if_neg h

/-- No operand up to the first verdict is a column. -/
def NoColumns (op : Connective) : List Meaning → Prop
  | [] => True
  | m :: ms => (∀ v, m = .ok v → v.isColumn = false) ∧ (op.verdict? m = none → op.NoColumns ms)

/-- The operands after the first verdict do not matter. -/
theorem NoColumns.replace {op : Connective} {before after : List Meaning} {m : Meaning}
    (h : op.NoColumns (before ++ m :: after)) (hm : op.verdict? m ≠ none)
    (after' : List Meaning) : op.NoColumns (before ++ m :: after') := by
  induction before with
  | nil => exact ⟨h.1, fun hnone => absurd hnone hm⟩
  | cons d before ih => exact ⟨h.1, fun hnone => ih (h.2 hnone)⟩

/-- The unit of a connective changes no truth. -/
theorem apply_unit (op : Connective) (x : Bool) : op.apply op.unit x = x := by
  cases op <;> cases x <;> rfl

/-- A scalar decides a chain by its truth alone. -/
theorem decides_eq {op : Connective} {v : Value} (h : v.isColumn = false) :
    op.decides v = (v.isTruthy != op.unit) := by
  rw [decides, h, Bool.not_false, Bool.true_and]

end Connective

open Connective

/-! ## Chains -/

variable {op : Connective} {v : Value}

/-- Once a scalar has decided, the rest does not count. -/
theorem chain_decided (hcolumn : v.isColumn = false) (htruth : v.isTruthy ≠ op.unit)
    (ms : List Meaning) : chain op (some v) ms = .ok (.bool !op.unit) := by
  cases ms with
  | nil =>
    rw [chain, conclude, hcolumn, if_neg Bool.false_ne_true, Bool.eq_not.2 htruth]
  | cons m ms =>
    rw [chain, decides_eq hcolumn, if_pos (bne_iff_ne.2 htruth)]

/-- An open chain goes on with the truth of the next scalar. -/
theorem chain_step (hcolumn : v.isColumn = false) (htruth : v.isTruthy = op.unit) {w : Value}
    (hw : w.isColumn = false) (ms : List Meaning) :
    chain op (some v) (.ok w :: ms) = chain op (some (.bool w.isTruthy)) ms := by
  have hopen : ¬ op.decides v = true := by simp [decides_eq hcolumn, htruth]
  have hconnect : Value.connect op v w = .ok (.bool w.isTruthy) := by
    rw [Value.connect, Value.columnOperands?_eq_none hcolumn hw, htruth, apply_unit]
  rw [chain, if_neg hopen]
  show (evaluated (Value.connect op v w) >>= fun combined => chain op (some combined) ms) = _
  rw [hconnect]
  rfl

/-- An open chain fails with the error of its next operand. -/
theorem chain_error (htruth : op.decides v = false) (e : FormulaError) (ms : List Meaning) :
    chain op (some v) (.error e :: ms) = .error e := by
  rw [chain, if_neg (by rw [htruth]; exact Bool.false_ne_true)]
  rfl

/-- After a scalar the chain has the value of the first verdict on it and on the rest. -/
theorem chain_some (hcolumn : v.isColumn = false) {ms : List Meaning}
    (h : op.verdict? (.ok v) = none → op.NoColumns ms) :
    chain op (some v) ms = ((.ok v :: ms).findSome? op.verdict?).getD (.ok (.bool op.unit)) := by
  induction ms generalizing v with
  | nil =>
    by_cases htruth : v.isTruthy = op.unit
    · rw [chain, conclude, hcolumn, if_neg Bool.false_ne_true, List.findSome?_cons,
        verdict?_open htruth, htruth]
      rfl
    · rw [chain_decided hcolumn htruth, List.findSome?_cons, verdict?_decided htruth]
      rfl
  | cons m ms ih =>
    by_cases htruth : v.isTruthy = op.unit
    · obtain ⟨hm, hrest⟩ := h (verdict?_open htruth)
      rw [List.findSome?_cons, verdict?_open htruth]
      cases m with
      | error e => exact chain_error (by simp [decides_eq hcolumn, htruth]) e ms
      | ok w =>
        -- The truth of a value has the verdict of the value.
        rw [chain_step hcolumn htruth (hm w rfl)]
        exact ih (v := .bool w.isTruthy) rfl hrest
    · rw [chain_decided hcolumn htruth, List.findSome?_cons, verdict?_decided htruth]
      rfl

/-- A chain without columns has the value of the first verdict. -/
theorem chain_eq_findSome? {ms : List Meaning} (h : op.NoColumns ms) :
    chain op none ms = (ms.findSome? op.verdict?).getD (.ok (.bool op.unit)) := by
  cases ms with
  | nil => rfl
  | cons m ms =>
    cases m with
    | error e => rfl
    | ok w => exact chain_some (h.1 w rfl) h.2

/-! ## Formulas -/

/-- Let no operand that a chain evaluates be a column.  Its first operand that fails or
decides gives it its error or its truth, whatever operands follow; a chain without such an
operand is true for `and` and false for `or`. -/
theorem evaluate_logic_scalars (s : Scope) (op : Connective) {operands : List Expr}
    (h : op.NoColumns (operands.map s.evaluate)) :
    (∀ before e after m, operands = before ++ e :: after →
      (∀ d ∈ before, op.verdict? (s.evaluate d) = none) → op.verdict? (s.evaluate e) = some m →
      ∀ after', s.evaluate (.logic op (before ++ e :: after')) = m) ∧
    ((∀ d ∈ operands, op.verdict? (s.evaluate d) = none) →
      s.evaluate (.logic op operands) = .ok (.bool op.unit)) := by
  have hevaluate : ∀ es : List Expr,
      s.evaluate (.logic op es) = chain op none (es.map s.evaluate) :=
    fun es => by rw [Scope.evaluate, evaluateChain_eq]
  have hnone : ∀ es : List Expr, (∀ d ∈ es, op.verdict? (s.evaluate d) = none) →
      (es.map s.evaluate).findSome? op.verdict? = none := by
    intro es hes
    rw [List.findSome?_map, List.findSome?_eq_none_iff]
    exact hes
  constructor
  · rintro before e after m rfl hbefore he after'
    rw [List.map_append, List.map_cons] at h
    have hne : op.verdict? (s.evaluate e) ≠ none := by simp [he]
    rw [hevaluate, List.map_append, List.map_cons,
      chain_eq_findSome? (h.replace hne (after'.map s.evaluate)), List.findSome?_append,
      hnone before hbefore, List.findSome?_cons, he]
    rfl
  · intro hall
    rw [hevaluate, chain_eq_findSome? h, hnone operands hall]
    rfl

/-- A null decides a conjunction, whether an unknown name or a failing negation follows. -/
theorem evaluate_logic_scalars_null :
    Scope.evaluate ⟨.empty, .empty⟩ (.logic .and
        [.literal (.text "x"), .literal .null, .negate (.literal (.text "x"))]) =
      .ok (.bool false) := by
  have hcolumns : NoColumns .and ([.literal (.text "x"), .literal .null, .name "y"].map
      (Scope.evaluate ⟨.empty, .empty⟩)) := by
    simp only [List.map_cons, Scope.evaluate, NoColumns]
    refine ⟨?_, fun _ => ⟨?_, fun hnone => ?_⟩⟩
    · rintro _ ⟨⟩
      rfl
    · rintro _ ⟨⟩
      rfl
    · cases hnone
  refine (evaluate_logic_scalars ⟨.empty, .empty⟩ .and hcolumns).1
    [.literal (.text "x")] (.literal .null) [.name "y"] _ rfl ?_ ?_ _
  · rintro _ (_ | ⟨_, ⟨⟩⟩)
    rw [Scope.evaluate]
    rfl
  · rw [Scope.evaluate]
    rfl

end Formulary
