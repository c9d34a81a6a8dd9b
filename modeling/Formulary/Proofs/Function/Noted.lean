import Formulary.Proofs.Column.Integers
import Formulary.Proofs.Number.Truncation
import Mathlib.Data.List.ReduceOption

/-!
# Integer computations

Values and standard functions with a record of what they compute with machine integers.  Every
such step notes the exact result, the type that has to hold it, and whether the step fails when
it does not; the step itself goes on with what the type can hold.  An operation on columns is
a step in every cell that is not null.  Without the record, these are the operations and
functions themselves.

Main definitions:

- `Noted`: a result with the computations on the way.
- `Noted.combine`: a sum, difference or product of two columns with the steps in its cells.
- `Noted.arith`, `Noted.neg` and `Noted.index`: the operations with their computations.
- `StandardFunction.noted`: the standard functions with their computations.

Main results:

- Theorem `Noted.result_combine`: operations on columns without their record.
- Theorem `Noted.result_arith`: arithmetic without its record.
- Theorem `StandardFunction.result_noted`: standard functions without their record.
-/

namespace Formulary

/-! ## Records -/

/-- A computation with machine integers. -/
structure Computation where
  width : Width
  exact : Int
  /-- Whether the computation fails with an error when the type does not hold the result. -/
  checked : Bool

/-- The type holds the exact result. -/
def Computation.Fits (c : Computation) : Prop :=
  c.width.Holds c.exact

/-- A result, and the computations on the way to it. -/
structure Noted (ε α : Type) where
  result : Except ε α
  computations : List Computation

namespace Noted

variable {ε α β : Type}

/-- A result without computations. -/
def lift (r : Except ε α) : Noted ε α :=
  ⟨r, []⟩

/-- After an error nothing is computed any more. -/
instance : Monad (Noted ε) where
  pure a := ⟨.ok a, []⟩
  bind x f :=
    match x.result with
    | .error e => ⟨.error e, x.computations⟩
    | .ok a => ⟨(f a).result, x.computations ++ (f a).computations⟩
  map f x := ⟨x.result.map f, x.computations⟩

/-- The computations of a value operation inside of a function. -/
def ofValue (x : Noted ValueError α) : Noted CallFailure α :=
  ⟨ofValueResult x.result, x.computations⟩

@[simp]
theorem result_lift (r : Except ε α) : (lift r).result = r :=
  rfl

@[simp]
theorem result_map (f : α → β) (x : Noted ε α) : (f <$> x).result = x.result.map f :=
  rfl

/-- Steps one after the other have their results one after the other. -/
@[simp]
theorem result_bind (x : Noted ε α) (f : α → Noted ε β) :
    (x >>= f).result = x.result >>= fun a => (f a).result := by
  show (match x.result with
    | .error e => ⟨.error e, x.computations⟩
    | .ok a => ⟨(f a).result, x.computations ++ (f a).computations⟩ : Noted ε β).result = _
  cases x.result <;> rfl

/-- A loop without its record. -/
theorem result_foldlM (f : β → α → Noted ε β) (b : β) (xs : List α) :
    (xs.foldlM f b).result = xs.foldlM (fun b a => (f b a).result) b := by
  induction xs generalizing b with
  | nil => rfl
  | cons x xs ih =>
    rw [List.foldlM_cons, List.foldlM_cons, result_bind]
    exact congrArg _ (funext ih)

/-- A step for every element without its record. -/
theorem result_mapM (f : α → Noted ε β) (xs : List α) :
    (xs.mapM f).result = xs.mapM fun a => (f a).result := by
  have hloop (ys : List β) : (List.mapM.loop f xs ys).result =
      List.mapM.loop (fun a => (f a).result) xs ys := by
    induction xs generalizing ys with
    | nil => rfl
    | cons x xs ih =>
      rw [List.mapM.loop, List.mapM.loop, result_bind]
      exact congrArg _ (funext fun y => ih (y :: ys))
  exact hloop []

/-! ## Steps -/

/-- A step on words that fails when the result is none. -/
def checkedWord (error : ε) (n : Int) : Noted ε Int64 :=
  ⟨(word? n).elim (.error error) .ok, [⟨.word, n, true⟩]⟩

/-- A step on words that wraps around. -/
def plainWord (n : Int) : Noted ε Int64 :=
  ⟨.ok (Int64.ofInt n), [⟨.word, n, false⟩]⟩

/-- The conversion of a count into a word, if there is one.  That there is none is no error. -/
def tryWord (n : Nat) : Noted ε (Option Int64) :=
  ⟨.ok (word? n), [⟨.word, n, false⟩]⟩

/-- The conversion of a float into a word, which takes the closest word for a larger number. -/
def castWord (x : Float) : Noted ε Int64 :=
  ⟨.ok x.toModel.toInt64, [⟨.word, wholePart x, false⟩]⟩

/-- A conversion into a short integer that fails when there is none. -/
def checkedShort (error : ε) (n : Int) : Noted ε Int32 :=
  ⟨if Int32.minValue.toInt ≤ n ∧ n ≤ Int32.maxValue.toInt then .ok (Int32.ofInt n)
    else .error error, [⟨.short, n, true⟩]⟩

/-- A step on short integers that wraps around. -/
def plainShort (n : Int) : Noted ε Int32 :=
  ⟨.ok (Int32.ofInt n), [⟨.short, n, false⟩]⟩

/-- A count of elements. -/
def count (n : Int) : Noted ε Nat :=
  ⟨.ok n.toNat, [⟨.size, n, false⟩]⟩

/-! ## Columns -/

section Columns

variable {α : Type} [Add α] [Sub α] [Mul α] [Div α] (T : IntegerType α)

/-- A step in every cell of two columns that wraps around. -/
def cellwise (op : ArithOp) (a b : Cells) : Noted ε (Option Cells) :=
  match T.cells? a, T.cells? b with
  | some xs, some ys =>
      ⟨.ok (some (T.operate op xs ys)),
        (T.exactCells op xs ys).reduceOption.map fun n => ⟨T.width, n, false⟩⟩
  | _, _ => pure none

/-- The operation on cells of one type has the cells that wrap. -/
theorem result_cellwise {op : ArithOp} (hop : op ≠ .div) (a b : Cells) :
    (cellwise T op a b : Noted ε (Option Cells)).result =
      .ok (do some (T.ofCells
        (Cells.lift (Cells.operation op) (← T.cells? a) (← T.cells? b)))) := by
  unfold cellwise
  cases T.cells? a with
  | none => rfl
  | some xs =>
    cases T.cells? b with
    | none => rfl
    | some ys => exact congrArg (Except.ok ∘ some) (T.operate_eq hop xs ys)

end Columns

/-- Sum, difference or product of two columns of one length. -/
def combine (op : ArithOp) (a b : Cells) : Noted ε (Option Cells) :=
  if a.type = .text ∨ b.type = .text then pure (Cells.combine? op a b)
  else
    match ElementType.common? a.type b.type with
    | some .int => cellwise .words op a b
    | some .bool => if op = .add then cellwise .counts op a b else pure none
    | some .count => cellwise .counts op a b
    | some .int32 => cellwise .shorts op a b
    | some .word => cellwise .sizes op a b
    | _ => pure (Cells.combine? op a b)

/-- Sum, difference or product of two columns. -/
def combineColumns (op : ArithOp) (a b : Column) : Noted ε (Option Column) :=
  match a.cells.aligned? b.cells with
  | some (x, y) => Option.map (⟨Column.resultName op a b, ·⟩) <$> combine op x y
  | none => pure none

/-- One of the four operations on two columns; quotients are floats. -/
def arithColumns (op : ArithOp) (a b : Column) : Noted ε (Option Column) :=
  match op with
  | .div => pure (Column.arith? .div a b)
  | _ => combineColumns op a b

/-- An operation on columns without its record. -/
theorem result_combine {op : ArithOp} (hop : op ≠ .div) (a b : Cells) :
    (combine op a b : Noted ε (Option Cells)).result = .ok (Cells.combine? op a b) := by
  unfold combine Cells.combine?
  split
  · rfl
  · cases ElementType.common? a.type b.type with
    | none => rfl
    | some t =>
      cases t with
      | int =>
        have hwrapping : Cells.wrapping op = Cells.operation op := by cases op <;> rfl
        rw [hwrapping]
        exact result_cellwise .words hop a b
      | bool =>
        cases op with
        | add => exact result_cellwise .counts hop a b
        | sub | mul => rfl
        | div => exact absurd rfl hop
      | count => exact result_cellwise .counts hop a b
      | int32 => exact result_cellwise .shorts hop a b
      | word => exact result_cellwise .sizes hop a b
      | float | text | null | float32 | list => rfl

/-- Columns are combined as without a record. -/
theorem result_combineColumns {op : ArithOp} (hop : op ≠ .div) (a b : Column) :
    (combineColumns op a b : Noted ε (Option Column)).result = .ok (Column.arith? op a b) := by
  rw [Column.arith?_eq hop, combineColumns]
  cases a.cells.aligned? b.cells with
  | none => rfl
  | some aligned => rw [result_map, result_combine hop]; rfl

theorem result_arithColumns (op : ArithOp) (a b : Column) :
    (arithColumns op a b : Noted ε (Option Column)).result = .ok (Column.arith? op a b) := by
  cases op with
  | div => rfl
  | add | sub | mul => exact result_combineColumns (by decide) a b

/-! ## Values -/

/-- Arithmetic of values that are no columns. -/
def arithScalars : ArithOp → Value → Value → Noted ValueError Value
  | .add, .int x, .int y => .int <$> checkedWord (.overflow .add) (x.toInt + y.toInt)
  | .sub, .int x, .int y => .int <$> checkedWord (.overflow .sub) (x.toInt - y.toInt)
  | .mul, .int x, .int y => .int <$> checkedWord (.overflow .mul) (x.toInt * y.toInt)
  | op, a, b => lift (Value.arithScalars op a b)

/-- Arithmetic of values. -/
def arith (op : ArithOp) (a b : Value) : Noted ValueError Value :=
  match Value.columnOperands? a b with
  | some operands => do
      let (left, right) ← lift operands
      let result ← arithColumns op left right
      lift (Value.ofColumn? result)
  | none => arithScalars op a b

/-- A checked word is the exact result or an error. -/
theorem result_checkedWord (error : ValueError) (n : Int) :
    (Value.int <$> checkedWord error n).result = Value.exact error n := by
  unfold Value.exact checkedWord
  cases word? n <;> rfl

/-- The record does not change the result of an operation on scalars. -/
theorem result_arithScalars (op : ArithOp) (a b : Value) :
    (arithScalars op a b).result = Value.arithScalars op a b := by
  unfold arithScalars
  split
  · exact result_checkedWord _ _
  · exact result_checkedWord _ _
  · exact result_checkedWord _ _
  · rfl

/-- Arithmetic without its record. -/
theorem result_arith (op : ArithOp) (a b : Value) :
    (arith op a b).result = Value.arith op a b := by
  unfold arith Value.arith
  cases Value.columnOperands? a b with
  | none => exact result_arithScalars op a b
  | some operands =>
    cases operands with
    | error e => rfl
    | ok columns =>
      show (arithColumns op columns.1 columns.2 >>= _).result = _
      rw [result_bind, result_arithColumns]
      rfl

/-- Negation of values. -/
def neg : Value → Noted ValueError Value
  | .int n => .int <$> checkedWord .negationOverflow (-n.toInt)
  | .column c => arith .sub (.int 0) (.column c)
  | v => lift v.neg

theorem result_neg (v : Value) : (neg v).result = v.neg := by
  unfold neg
  split
  · exact result_checkedWord _ _
  · exact result_arith _ _ _
  · rfl

/-- A position counted from the start, given the number of elements. -/
def resolve (n i : Int64) : Noted ε Int64 :=
  if i < 0 then plainWord (n.toInt + i.toInt) else pure i

/-- A position from the start as a place, if it lies among the elements. -/
def locate (n resolved : Int64) : Noted ε (Option Nat) :=
  if 0 ≤ resolved ∧ resolved < n then some <$> count resolved.toInt else pure none

/-- The place of a signed position among some elements. -/
def position (i : Int64) (length : Nat) : Noted ε (Option Nat) := do
  match ← tryWord length with
  | none => pure none
  | some n => resolve n i >>= locate n

theorem result_resolve (n i : Int64) :
    (resolve n i : Noted ε Int64).result = .ok (if i < 0 then n + i else i) := by
  have hsum : Int64.ofInt (n.toInt + i.toInt) = n + i := by
    rw [Int64.ofInt_add, Int64.ofInt_toInt, Int64.ofInt_toInt]
  rw [← hsum, resolve]
  split <;> rfl

theorem result_locate (n resolved : Int64) :
    (locate n resolved : Noted ε (Option Nat)).result =
      .ok (if 0 ≤ resolved ∧ resolved < n then some resolved.toInt.toNat else none) := by
  unfold locate
  split <;> rfl

theorem result_position (i : Int64) (length : Nat) :
    (position i length : Noted ε (Option Nat)).result = .ok (position? i length) := by
  unfold position position? tryWord
  rw [result_bind]
  cases word? length with
  | none => rfl
  | some n =>
    show (resolve n i >>= locate n).result = _
    rw [result_bind, result_resolve]
    exact result_locate n _

/-- Subscript by position. -/
def index (i : Int64) : Value → Noted ValueError Value
  | .list items => (fun place => (place.bind (items[·]?)).getD .null) <$> position i items.length
  | .frame columns =>
      (fun place => ((place.bind (columns[·]?)).map Value.column).getD .null) <$>
        position i columns.length
  | v => lift (v.index i)

theorem result_index (i : Int64) (v : Value) : (index i v).result = v.index i := by
  unfold index
  split
  · rw [result_map, result_position]
    rfl
  · rw [result_map, result_position]
    rfl
  · rfl

/-! ## Standard functions -/

/-- The absolute values of a column. -/
def absColumn (c : Column) : Noted ValueError Value := do
  let negative ← lift (Value.relate .lt (.column c) (.int 0))
  let negated ← neg (.column c)
  lift (Value.select negative negated (.column c))

/-- The absolute value of a number or column. -/
def abs : Value → Noted CallFailure Value
  | .int n => .int <$> checkedWord .absoluteOverflow n.toInt.natAbs
  | .column c => ofValue (absColumn c)
  | v => lift (Standard.abs v)

/-- The record does not change the absolute value of a column. -/
theorem result_absColumn (c : Column) : (absColumn c).result = Standard.absColumn c := by
  unfold absColumn Standard.absColumn
  rw [result_bind, result_lift]
  cases Value.relate .lt (.column c) (.int 0) with
  | error e => rfl
  | ok negative =>
    show (neg (.column c) >>= _).result = _
    rw [result_bind, result_neg]
    cases Value.neg (.column c) <;> rfl

theorem result_abs (v : Value) : (abs v).result = Standard.abs v := by
  cases v with
  | int n =>
    rw [Standard.abs, abs, result_map, checkedWord]
    cases word? n.toInt.natAbs <;> rfl
  | column c => exact congrArg ofValueResult (result_absColumn c)
  | _ => rfl

/-- Number of elements. -/
def len (v : Value) : Noted CallFailure Value :=
  match v.elementCount? with
  | some n => do
    let n ← count n
    .int <$> plainWord n
  | none => lift (.error (.noLength v.type))

theorem result_len (v : Value) : (len v).result = Standard.len v := by
  unfold len Standard.len
  cases v.elementCount? with
  | none => rfl
  | some n =>
    show Except.ok (Value.int (Int64.ofInt n)) = Except.ok (Value.int (Int64.ofNat n))
    rw [Int64.ofInt_eq_ofNat]

/-- The sum of the values that are not null. -/
def sum (values : List Value) : Noted ValueError Value :=
  (values.filter fun v => !v.isNull).foldlM (arith .add) (.int 0)

theorem result_sum (values : List Value) : (sum values).result = Standard.sum values := by
  rw [sum, result_foldlM]
  simp only [result_arith]
  rfl

/-- Adds an element to a running mean. -/
def tally (t : Standard.Tally) (v : Value) : Noted CallFailure Standard.Tally :=
  match v with
  | .null => pure t
  | v =>
    match v.number? with
    | some x => (fun n => ⟨t.total + x, n⟩) <$> plainShort (t.count.toInt + 1)
    | none => lift (.error (.notNumericElement "mean" v.type))

/-- The mean of a list. -/
def mean : Value → Noted CallFailure Value
  | .list items => Standard.Tally.mean <$> items.foldlM tally ⟨0.0, 0⟩
  | v => lift (Standard.mean v)

theorem result_tally (t : Standard.Tally) (v : Value) :
    (tally t v).result = Standard.Tally.add t v := by
  have hcount : Int32.ofInt (t.count.toInt + 1) = t.count + 1 := by
    rw [Int32.ofInt_add, Int32.ofInt_toInt]
    rfl
  have hnumber : ∀ x, ((fun n => ⟨t.total + x, n⟩) <$> plainShort (t.count.toInt + 1) :
      Noted CallFailure Standard.Tally).result = .ok ⟨t.total + x, t.count + 1⟩ := by
    intro x
    rw [← hcount]
    rfl
  cases v with
  | int n => exact hnumber _
  | float x => exact hnumber x
  | _ => rfl

theorem result_mean (v : Value) : (mean v).result = Standard.mean v := by
  unfold mean
  split
  · rw [result_map, result_foldlM]
    simp only [result_tally]
    rfl
  · rfl

/-- Rounds a float to a word. -/
def roundToWord (x : Float) : Noted CallFailure Value :=
  let rounded := Decimal.roundEven x
  if rounded.isFinite && rounded.abs < Standard.roundLimit then .int <$> castWord rounded
  else lift (.error (.notRoundable x))

/-- Rounds a float to a number of decimal places, or of places before the point. -/
def roundToPlaces (x : Float) (digits : Int32) : Noted CallFailure Value :=
  if 0 ≤ digits then pure (.float (Standard.roundToPlaces x digits))
  else
    (fun places =>
      let scale := Decimal.power 10.0 places
      .float (Decimal.roundEven (x / scale) * scale)) <$> plainShort (-digits.toInt)

theorem result_roundToWord (x : Float) :
    (roundToWord x).result = Standard.roundToWord x := by
  unfold roundToWord Standard.roundToWord
  dsimp only
  split <;> rfl

theorem result_roundToPlaces (x : Float) (digits : Int32) :
    (roundToPlaces x digits).result = .ok (.float (Standard.roundToPlaces x digits)) := by
  have hnegated : Int32.ofInt (-digits.toInt) = -digits := by
    rw [Int32.ofInt_neg, Int32.ofInt_toInt]
  unfold roundToPlaces
  split
  · rfl
  · next hneg =>
    rw [Standard.roundToPlaces, if_neg hneg, ← hnegated]
    rfl

/-- Rounds a scalar. -/
def roundScalar (digits : Option Int32) (v : Value) : Noted CallFailure Value :=
  match v, digits with
  | .int n, some d => if 0 ≤ d then pure (.int n) else roundToPlaces (nearestFloat n) d
  | .float x, none => roundToWord x
  | .float x, some d => roundToPlaces x d
  | v, digits => lift (Standard.roundScalar digits v)

/-- The number of places, if an argument gives one. -/
def places : Option Value → Noted CallFailure (Option Int32)
  | some (.int d) => some <$> checkedShort .digitsOutOfRange d.toInt
  | v => lift (Standard.places v)

/-- Rounds a number or column. -/
def round (v : Value) (digits : Option Int32) : Noted CallFailure Value :=
  match v with
  | .column c => do
      let rounded ← c.values.mapM (roundScalar digits)
      let column ← lift (ofValueResult (Column.ofValues c.name rounded))
      pure (.column column)
  | v => roundScalar digits v

theorem result_roundScalar (digits : Option Int32) (v : Value) :
    (roundScalar digits v).result = Standard.roundScalar digits v := by
  unfold roundScalar
  split
  · next n d =>
    rw [Standard.roundScalar]
    split
    · rfl
    · exact result_roundToPlaces _ d
  · exact result_roundToWord _
  · exact result_roundToPlaces _ _
  · rfl

theorem result_places (v : Option Value) : (places v).result = Standard.places v := by
  unfold places
  split
  · rw [result_map, checkedShort, Standard.places]
    split <;> rfl
  · rfl

/-- Numbers and columns are rounded as without a record. -/
theorem result_round (v : Value) (digits : Option Int32) :
    (round v digits).result = Standard.round v digits := by
  cases v with
  | column c =>
    show (c.values.mapM (roundScalar digits) >>= _).result = _
    rw [result_bind, result_mapM]
    simp only [result_roundScalar, result_bind]
    rfl
  | _ => exact result_roundScalar _ _

end Noted

/-- The result for arguments that the arity takes. -/
def StandardFunction.notedApply (f : StandardFunction) (args : List Value) :
    Noted CallFailure Value :=
  let first := args.headD .null
  match f with
  | .abs => .abs first
  | .len => .len first
  | .mean => .mean first
  | .round => do
      let digits ← .places args[1]?
      .round first digits
  | .sum => .ofValue (.sum (Standard.candidates args))
  | .coalesce | .max | .min => .lift (f.apply args)

/-- The result of a call. -/
def StandardFunction.noted (f : StandardFunction) (args : List Value) :
    Noted CallFailure Value :=
  match Standard.expectArity f.name f.arity args with
  | .error e => .lift (.error e)
  | .ok () => f.notedApply args

/-- A call without its record. -/
theorem StandardFunction.result_noted (f : StandardFunction) (args : List Value) :
    (f.noted args).result = f.call args := by
  have happly : (f.notedApply args).result = f.apply args := by
    cases f with
    | abs => exact Noted.result_abs _
    | len => exact Noted.result_len _
    | mean => exact Noted.result_mean _
    | round =>
      rw [notedApply, Noted.result_bind, Noted.result_places]
      simp only [Noted.result_round]
      rfl
    | sum => exact congrArg ofValueResult (Noted.result_sum _)
    | coalesce | max | min => rfl
  unfold noted call
  cases Standard.expectArity f.name f.arity args with
  | error e => rfl
  | ok u => exact happly

end Formulary
