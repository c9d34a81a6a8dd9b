import Formulary.Proofs.Function.Noticed

/-!
# Ranges of integers

Arithmetic, negation and subscripts of values that are no columns leave no machine type
unnoticed: what is not checked fits.  The same holds of the standard functions, but for three
calls.  `round` negates a negative number of places, and the least one has no negative; `mean`
counts the numbers of a list in a short integer, and a list may have more of them; `sum` takes
a list whose elements are columns, and adds those cell by cell without a check.

Main definitions:

- `Noted.leadingNumbers`: the numbers that the mean of a list counts.
- `StandardFunction.Wraps`: the calls that leave a type unnoticed.
- `Operation`: the operations and functions that compute with integers.

Main results:

- Theorem `Noted.noticed_sum_iff`: the elements that are added without a loss.
- Theorem `Noted.noticed_tally_iff`: the numbers that the count of a mean holds.
- Theorem `Noted.noticed_places_round_iff`: the numbers of places that have a negative.
- Theorem `StandardFunction.noticed_noted_iff`: the calls of standard functions.
- Theorem `Operation.integers_noticed_iff`: all operations and functions together.
-/

namespace Formulary
namespace Noted

/-! ## Standard functions -/

/-- The absolute value of a scalar is checked. -/
theorem noticed_abs {v : Value} (hv : v.isColumn = false) : (abs v).Noticed := by
  unfold abs
  split
  · exact noticed_map_iff.2 (noticed_checkedWord _ _)
  · cases hv
  · exact noticed_lift _

theorem noticed_len {v : Value} (hv : v.InMemory) : (len v).Noticed := by
  unfold len
  cases hcount : v.elementCount? with
  | none => exact noticed_lift _
  | some n =>
    have hword : IsWord n := hv.count hcount
    have hsize : (n : Int) < 2 ^ 64 := Int.lt_trans hword.2 (by decide)
    refine Noticed.bind (noticed_plain_iff.2 ⟨Int.natCast_nonneg n, hsize⟩) fun m hm => ?_
    cases hm
    exact noticed_map_iff.2 (noticed_plain_iff.2 hword)

/-- A sum leaves a type unnoticed exactly if an element wraps around when it is added to the
total of those before it. -/
theorem noticed_sum_iff {values : List Value} :
    (sum values).Noticed ↔ ¬∃ front v back total,
      (values.filter fun v => !v.isNull) = front ++ v :: back ∧
      Standard.sum front = .ok total ∧ Value.CellsWrap .add total v := by
  have htotal (front : List Value) {v : Value} {back : List Value}
      (hfront : (values.filter fun v => !v.isNull) = front ++ v :: back) :
      front.foldlM (fun t v => (arith .add t v).result) (.int 0) = Standard.sum front := by
    have hkept : (front.filter fun v => !v.isNull) = front := by
      refine List.filter_eq_self.2 fun v hv => ?_
      have hmem : v ∈ values.filter fun v => !v.isNull := by
        rw [hfront]
        exact List.mem_append_left _ hv
      exact (List.mem_filter.1 hmem).2
    simp only [result_arith]
    rw [Standard.sum, hkept]
    rfl
  rw [sum, noticed_foldlM_iff (guarded_arith .add)]
  constructor
  · rintro h ⟨front, v, back, total, hfront, hsum, hwraps⟩
    have hnoticed := h front v back total hfront ((htotal front hfront).trans hsum)
    exact noticed_arith_iff.1 hnoticed hwraps
  · intro h front v back total hfront hsum
    refine noticed_arith_iff.2 fun hwraps => h ?_
    exact ⟨front, v, back, total, hfront, (htotal front hfront).symm.trans hsum, hwraps⟩

/-- How many numbers a list has before the first element that is neither a number nor null. -/
def leadingNumbers (items : List Value) : Nat :=
  (items.takeWhile fun v => v.isNull || v.number?.isSome).countP fun v => v.number?.isSome

theorem leadingNumbers_null (items : List Value) :
    leadingNumbers (.null :: items) = leadingNumbers items :=
  rfl

theorem leadingNumbers_number {v : Value} {x : Float} (h : v.number? = some x)
    (items : List Value) : leadingNumbers (v :: items) = leadingNumbers items + 1 := by
  simp [leadingNumbers, h]

theorem leadingNumbers_replicate {v : Value} {x : Float} (h : v.number? = some x) (n : Nat) :
    leadingNumbers (List.replicate n v) = n := by
  induction n with
  | zero => rfl
  | succ n ih => rw [List.replicate_succ, leadingNumbers_number h, ih]

/-- Nothing counts from the first value that is no number. -/
theorem leadingNumbers_other {v : Value} (hnull : v ≠ .null) (h : v.number? = none)
    (items : List Value) : leadingNumbers (v :: items) = 0 := by
  have hother : v.isNull = false := by
    cases v with
    | null => exact absurd rfl hnull
    | _ => rfl
  simp [leadingNumbers, h, hother]

/-- A number raises the count of a mean without a check. -/
theorem tally_number {v : Value} {x : Float} (h : v.number? = some x) (t : Standard.Tally) :
    tally t v = (fun n => ⟨t.total + x, n⟩) <$> plainShort (t.count.toInt + 1) := by
  cases v with
  | int n => cases h; rfl
  | float y => cases h; rfl
  | _ => cases h

/-- A value that is no number ends a mean. -/
theorem tally_other {v : Value} (hnull : v ≠ .null) (h : v.number? = none)
    (t : Standard.Tally) :
    tally t v = lift (.error (.notNumericElement "mean" v.type)) := by
  cases v with
  | null => exact absurd rfl hnull
  | int => cases h
  | float => cases h
  | _ => rfl

/-- The count of a running mean holds the numbers up to the first element that is none. -/
theorem noticed_tally_iff {t : Standard.Tally} (ht : 0 ≤ t.count.toInt) (items : List Value) :
    (items.foldlM tally t).Noticed ↔ t.count.toInt + leadingNumbers items < 2 ^ 31 := by
  -- As long as the count fits it is the exact one, and the rest of the list goes on from it.
  induction items generalizing t with
  | nil =>
    have hlt := Int32.toInt_lt t.count
    exact iff_of_true (noticed_pure t) (Int.lt_of_le_of_lt (Int.le_of_eq (Int.add_zero _)) hlt)
  | cons v items ih =>
    rw [List.foldlM_cons]
    by_cases hnull : v = .null
    · subst hnull
      rw [leadingNumbers_null, ← ih ht]
      exact (noticed_pure t).bind_iff rfl
    cases hv : v.number? with
    | none =>
      have hlt := Int32.toInt_lt t.count
      rw [tally_other hnull hv, leadingNumbers_other hnull hv]
      exact iff_of_true (fun c hc => by cases hc) (by omega)
    | some x =>
      have hnext (h : Width.short.Holds (t.count.toInt + 1)) :
          (Int32.ofInt (t.count.toInt + 1)).toInt = t.count.toInt + 1 :=
        Int32.toInt_ofInt_of_le h.1 h.2
      rw [tally_number hv, leadingNumbers_number hv, noticed_plainShort_bind_iff]
      push_cast
      constructor
      · rintro ⟨hholds, h⟩
        have hrest := (ih (by rw [hnext hholds]; omega)).1 h
        rw [hnext hholds] at hrest
        omega
      · intro h
        have hholds : Width.short.Holds (t.count.toInt + 1) := ⟨by omega, by omega⟩
        refine ⟨hholds, (ih (by rw [hnext hholds]; omega)).2 ?_⟩
        rw [hnext hholds]
        omega

/-- A mean is noticed exactly if fewer numbers are counted than a count can hold. -/
theorem noticed_mean_iff {v : Value} :
    (mean v).Noticed ↔ ∀ items, v = .list items → (leadingNumbers items : Int) < 2 ^ 31 := by
  unfold mean
  split
  · next items =>
    have hzero : ((0 : Int32).toInt : Int) = 0 := rfl
    rw [noticed_map_iff, noticed_tally_iff (Int.le_of_eq hzero.symm), hzero, Int.zero_add]
    simp
  · next hlist => exact iff_of_true (noticed_lift _) fun items hv => absurd hv (hlist items)

/-- A float that is rounded to a word is checked. -/
theorem noticed_roundToWord (x : Float) : (roundToWord x).Noticed := by
  unfold roundToWord
  dsimp only
  split
  · next h =>
    rw [Bool.and_eq_true, decide_eq_true_eq] at h
    exact noticed_map_iff.2 (noticed_plain_iff.2 (isWord_wholePart h.1 h.2))
  · exact noticed_lift _

/-- The least number of places is the only one without a negative. -/
theorem noticed_roundToPlaces_iff {x : Float} {digits : Int32} :
    (roundToPlaces x digits).Noticed ↔ digits.toInt ≠ -2 ^ 31 := by
  have hlow := Int32.le_toInt digits
  unfold roundToPlaces
  split
  · next h =>
    rw [Int32.le_iff_toInt_le, Int32.toInt_zero] at h
    exact iff_of_true (noticed_pure _) (by omega)
  · next h =>
    rw [Int32.le_iff_toInt_le, Int32.toInt_zero] at h
    rw [noticed_map_iff, plainShort, noticed_plain_iff]
    show -2 ^ 31 ≤ -digits.toInt ∧ -digits.toInt < 2 ^ 31 ↔ _
    omega

/-- Rounding a scalar is noticed unless a number is rounded to the least number of places. -/
theorem noticed_roundScalar_iff {digits : Option Int32} {v : Value} :
    (roundScalar digits v).Noticed ↔
      ∀ d, digits = some d → v.number?.isSome = true → d.toInt ≠ -2 ^ 31 := by
  unfold roundScalar
  split
  · next n d =>
    split
    · next hd =>
      rw [Int32.le_iff_toInt_le, Int32.toInt_zero] at hd
      refine iff_of_true (noticed_pure _) fun d' hd' _ => ?_
      cases hd'
      omega
    · simp [noticed_roundToPlaces_iff, Value.number?]
  · exact iff_of_true (noticed_roundToWord _) nofun
  · simp [noticed_roundToPlaces_iff, Value.number?]
  · next hint hnone hsome =>
    refine iff_of_true (noticed_lift _) fun d hd hv => ?_
    cases v with
    | int n => exact absurd hd (hint n d rfl)
    | float x => exact absurd hd (hsome x d rfl)
    | _ => cases hv

theorem noticed_round_iff {v : Value} (hv : v.isColumn = false) {digits : Option Int32} :
    (round v digits).Noticed ↔
      ∀ d, digits = some d → v.number?.isSome = true → d.toInt ≠ -2 ^ 31 := by
  cases v with
  | column => cases hv
  | _ => exact noticed_roundScalar_iff

/-- The number of places is checked to be short, but not to have a negative. -/
theorem noticed_places_round_iff {v : Value} (hv : v.isColumn = false) {d : Int64} :
    (places (some (.int d)) >>= round v).Noticed ↔
      ¬(v.number?.isSome = true ∧ d.toInt = -2 ^ 31) := by
  by_cases hd : Width.short.Holds d.toInt
  · have hresult : (places (some (.int d))).result = .ok (some (Int32.ofInt d.toInt)) := by
      show Except.map _ (if _ then _ else _) = _
      rw [if_pos (holds_short_iff.1 hd)]
      rfl
    have hvalue : (Int32.ofInt d.toInt).toInt = d.toInt := Int32.toInt_ofInt_of_le hd.1 hd.2
    have hnoticed : (places (some (.int d))).Noticed :=
      noticed_map_iff.2 (noticed_checkedShort _ _)
    rw [hnoticed.bind_iff hresult, noticed_round_iff hv]
    constructor
    · exact fun h hleast => h _ rfl hleast.1 (hvalue.trans hleast.2)
    · rintro h digits hdigits hnumber hleast
      cases hdigits
      exact h ⟨hnumber, hvalue.symm.trans hleast⟩
  · have hresult : (places (some (.int d))).result = .error .digitsOutOfRange := by
      show Except.map _ (if _ then _ else _) = _
      rw [if_neg (mt holds_short_iff.2 hd)]
      rfl
    refine iff_of_true (Noticed.bind ?_ fun digits hdigits => ?_) fun h => hd ?_
    · exact noticed_map_iff.2 (noticed_checkedShort _ _)
    · rw [hresult] at hdigits
      cases hdigits
    · rw [h.2]
      exact ⟨by decide, by decide⟩

end Noted

namespace StandardFunction

variable {f : StandardFunction} {args : List Value}

/-- The calls that leave a machine type unnoticed: rounding to the least number of places, the
mean of more numbers than a short integer counts, and a sum in which an element that is not
null is added cell by cell to the total of those before it, and a cell wraps around. -/
def Wraps : StandardFunction → List Value → Prop
  | .round, [v, .int d] => v.number?.isSome = true ∧ d.toInt = -2 ^ 31
  | .mean, [.list items] => 2 ^ 31 ≤ Noted.leadingNumbers items
  | .sum, args => ∃ front v back total,
      ((Standard.candidates args).filter fun v => !v.isNull) = front ++ v :: back ∧
      Standard.sum front = .ok total ∧ Value.CellsWrap .add total v
  | _, _ => False

/-- A call with a wrong number of arguments computes nothing. -/
theorem noticed_noted_of_not_accepts (h : f.arity.accepts args.length = false) :
    (f.noted args).Noticed ↔ ¬f.Wraps args := by
  have hnoted : f.noted args = .lift (.error (.arity f.name f.arity args.length)) := by
    unfold noted Standard.expectArity
    rw [h]
    rfl
  rw [hnoted]
  refine iff_of_true (Noted.noticed_lift _) fun hwraps => ?_
  unfold Wraps at hwraps
  split at hwraps
  · cases h
  · cases h
  · have hnone : args = [] := List.length_eq_zero_iff.1 (by simpa [arity, Arity.accepts] using h)
    obtain ⟨front, v, back, total, hvalues, -⟩ := hwraps
    simp [hnone, Standard.candidates] at hvalues
  · exact hwraps

/-- A mean of one argument wraps exactly if it is not noticed. -/
theorem noticed_mean_call_iff {v : Value} : (Noted.mean v).Noticed ↔ ¬Wraps .mean [v] := by
  rw [Noted.noticed_mean_iff]
  cases v with
  | list items =>
    show _ ↔ ¬2 ^ 31 ≤ Noted.leadingNumbers items
    constructor
    · intro h hwraps
      have := h items rfl
      omega
    · intro h items' heq
      cases heq
      omega
  | _ => exact iff_of_true (fun _ heq => by cases heq) id

/-- A rounding of arguments that are no columns wraps exactly if it is not noticed. -/
theorem noticed_round_call_iff (hcolumns : ∀ v ∈ args, v.isColumn = false)
    (h : round.arity.accepts args.length = true) :
    (notedApply .round args).Noticed ↔ ¬Wraps .round args := by
  match args, h with
  | [v], _ =>
    have hv := hcolumns v (List.mem_singleton_self v)
    refine iff_of_true ?_ id
    show (Noted.places none >>= Noted.round v).Noticed
    exact ((Noted.noticed_lift _).bind_iff rfl).2 ((Noted.noticed_round_iff hv).2 nofun)
  | [v, d], _ =>
    have hv := hcolumns v (List.mem_cons_self ..)
    show (Noted.places (some d) >>= Noted.round v).Noticed ↔ _
    cases d with
    | int d => exact Noted.noticed_places_round_iff hv
    | _ => exact iff_of_true (Noted.Noticed.bind (Noted.noticed_lift _) nofun) id

/-- The calls that leave no machine type unnoticed. -/
theorem noticed_noted_iff (hcolumns : ∀ v ∈ args, v.isColumn = false)
    (hmemory : ∀ v ∈ args, v.InMemory) : (f.noted args).Noticed ↔ ¬f.Wraps args := by
  cases haccepts : f.arity.accepts args.length with
  | false => exact noticed_noted_of_not_accepts haccepts
  | true =>
    have hnoted : f.noted args = f.notedApply args := by
      unfold noted Standard.expectArity
      rw [haccepts]
      rfl
    rw [hnoted]
    cases f with
    | abs =>
      obtain ⟨v, rfl⟩ := List.length_eq_one_iff.1 (beq_iff_eq.1 haccepts)
      exact iff_of_true (Noted.noticed_abs (hcolumns v (List.mem_singleton_self v))) id
    | len =>
      obtain ⟨v, rfl⟩ := List.length_eq_one_iff.1 (beq_iff_eq.1 haccepts)
      exact iff_of_true (Noted.noticed_len (hmemory v (List.mem_singleton_self v))) id
    | mean =>
      obtain ⟨v, rfl⟩ := List.length_eq_one_iff.1 (beq_iff_eq.1 haccepts)
      exact noticed_mean_call_iff
    | round => exact noticed_round_call_iff hcolumns haccepts
    | sum => exact Noted.noticed_ofValue_iff.trans Noted.noticed_sum_iff
    | coalesce | max | min => exact iff_of_true (Noted.noticed_lift _) id

end StandardFunction

/-! ## Operations -/

/-- The operations of values that compute with integers, and the standard functions. -/
inductive Operation where
  | arith (op : ArithOp) (left right : Value)
  | neg (operand : Value)
  | index (i : Int64) (container : Value)
  | call (f : StandardFunction) (args : List Value)

namespace Operation

/-- The values that an operation takes. -/
def operands : Operation → List Value
  | arith _ a b => [a, b]
  | neg v => [v]
  | index _ v => [v]
  | call _ args => args

/-- The result of an operation. -/
def run : Operation → Except CallFailure Value
  | arith op a b => ofValueResult (Value.arith op a b)
  | neg v => ofValueResult v.neg
  | index i v => ofValueResult (v.index i)
  | call f args => f.call args

/-- The result of an operation, with its computations. -/
def noted : Operation → Noted CallFailure Value
  | arith op a b => .ofValue (.arith op a b)
  | neg v => .ofValue (.neg v)
  | index i v => .ofValue (.index i v)
  | call f args => f.noted args

/-- The operations that leave a machine type unnoticed are calls. -/
def Wraps : Operation → Prop
  | call f args => f.Wraps args
  | _ => False

/-- An operation without its record. -/
theorem result_noted (o : Operation) : o.noted.result = o.run := by
  cases o with
  | arith op a b => exact congrArg ofValueResult (Noted.result_arith op a b)
  | neg v => exact congrArg ofValueResult (Noted.result_neg v)
  | index i v => exact congrArg ofValueResult (Noted.result_index i v)
  | call f args => exact f.result_noted args

/-- Which integers leave their machine type unnoticed.  In arithmetic, negation and subscripts
of values that are no columns there are none: every computation fits, or is checked and fails
with an error.  The same holds of the calls of standard functions with such values, but for
those that `StandardFunction.Wraps` names.  Lists of any length and with any elements are among
the values, so that a sum may come upon a column. -/
theorem integers_noticed_iff (o : Operation) (hcolumns : ∀ v ∈ o.operands, v.isColumn = false)
    (hmemory : ∀ v ∈ o.operands, v.InMemory) :
    o.noted.result = o.run ∧ (o.noted.Noticed ↔ ¬o.Wraps) := by
  refine ⟨o.result_noted, ?_⟩
  cases o with
  | arith op a b =>
    have ha := hcolumns a (List.mem_cons_self ..)
    have hb := hcolumns b (List.mem_cons_of_mem _ (List.mem_singleton_self b))
    exact iff_of_true (Noted.noticed_ofValue_iff.2 (Noted.noticed_arith ha hb op)) id
  | neg v =>
    have hv := hcolumns v (List.mem_singleton_self v)
    exact iff_of_true (Noted.noticed_ofValue_iff.2 (Noted.noticed_neg hv)) id
  | index i v =>
    have hv := hmemory v (List.mem_singleton_self v)
    exact iff_of_true (Noted.noticed_ofValue_iff.2 (Noted.noticed_index i hv)) id
  | call f args => exact StandardFunction.noticed_noted_iff hcolumns hmemory

/-- The least word has no negative, which is an error.  Without an error, the least number of
places has no negative either, the count of two to the power of 31 numbers is lost, and so is
the sum of one and the greatest word in a column of a list. -/
theorem integers_noticed_iff_least :
    (neg (.int Int64.minValue)).noted.Noticed ∧
    (call .round [.float 1.5, .int (-2147483647)]).noted.Noticed ∧
    ¬(call .round [.float 1.5, .int (-2147483648)]).noted.Noticed ∧
    ¬(call .mean [.list (List.replicate (2 ^ 31) (.int 1))]).noted.Noticed ∧
    ¬(call .sum [.list [.column ⟨"c", .ints [some Int64.maxValue]⟩, .int 1]]).noted.Noticed := by
  have hmean : ∀ n : Nat, 2 ^ 31 ≤ n → IsWord n →
      ¬(call .mean [.list (List.replicate n (.int 1))]).noted.Noticed := by
    intro n hn hword hnoticed
    refine (integers_noticed_iff _ ?_ ?_).2.1 hnoticed ?_
    · exact List.forall_mem_singleton.2 rfl
    · refine List.forall_mem_singleton.2 ?_
      rw [Value.InMemory, List.length_replicate]
      exact hword
    · show 2 ^ 31 ≤ Noted.leadingNumbers (List.replicate n (.int 1))
      rwa [Noted.leadingNumbers_replicate rfl]
  refine ⟨?_, ?_, ?_, hmean _ (Nat.le_refl _) ⟨by decide, by decide⟩, ?_⟩
  · refine (integers_noticed_iff _ ?_ ?_).2.2 id
    · exact List.forall_mem_singleton.2 rfl
    · exact List.forall_mem_singleton.2 trivial
  · refine (integers_noticed_iff _ ?_ ?_).2.2 fun hwraps => absurd hwraps.2 (by decide)
    · simp [operands, Value.isColumn]
    · simp [operands, Value.InMemory]
  · intro hnoticed
    refine (integers_noticed_iff _ ?_ ?_).2.1 hnoticed ⟨rfl, by decide⟩
    · simp [operands, Value.isColumn]
    · simp [operands, Value.InMemory]
  · intro hnoticed
    refine (integers_noticed_iff _ ?_ ?_).2.1 hnoticed ?_
    · exact List.forall_mem_singleton.2 rfl
    · exact List.forall_mem_singleton.2 ⟨by decide, by decide⟩
    · refine ⟨[.column ⟨"c", .ints [some Int64.maxValue]⟩], .int 1, [],
        .column ⟨"c", .ints [some Int64.maxValue]⟩, rfl, rfl, ?_⟩
      exact ⟨_, _, _, _, _, rfl, rfl, rfl, 0, _, _, _, rfl, rfl, rfl, by decide⟩

end Operation
end Formulary
