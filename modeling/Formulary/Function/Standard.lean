import Formulary.Decimal.Rounding
import Formulary.Function.Failure
import Formulary.Value.Logic

/-!
# Standard functions

The functions that a whitelist may take over by name: `abs`, `coalesce`, `len`,
`max`, `mean`, `min`, `round` and `sum`.

Main definitions:

- `StandardFunction`, with `StandardFunction.all` in order of name.
- `StandardFunction.call`: the result of a call.
-/

namespace Formulary

/-- The standard functions in order of name. -/
inductive StandardFunction where
  | abs | coalesce | len | max | mean | min | round | sum
  deriving DecidableEq

namespace Standard

/-- Fails unless the arity takes the arguments. -/
def expectArity (function : String) (arity : Arity) (args : List Value) :
    Except CallFailure Unit :=
  if arity.accepts args.length then .ok ()
  else .error (.arity function arity args.length)

/-! ## Absolute value -/

/-- The absolute value of a column: cells below zero are subtracted from zero. -/
def absColumn (c : Column) : Except ValueError Value :=
  match Value.relate .lt (.column c) (.int 0) with
  | .error e => .error e
  | .ok negative =>
    match Value.neg (.column c) with
    | .error e => .error e
    | .ok negated => Value.select negative negated (.column c)

/-- The absolute value of a number or column. -/
def abs : Value → Except CallFailure Value
  | .null => .ok .null
  | .int n =>
      match word? n.toInt.natAbs with
      | some w => .ok (.int w)
      | none => .error .absoluteOverflow
  | .float x => .ok (.float x.abs)
  | .column c => ofValueResult (absColumn c)
  | v => .error (.notNumeric "abs" v.type)

/-! ## Sequences -/

/-- The first value that is not null. -/
def coalesce (args : List Value) : Value :=
  (args.find? fun v => !v.isNull).getD .null

/-- Number of elements. -/
def len (v : Value) : Except CallFailure Value :=
  match v.elementCount? with
  | some n => .ok (.int (Int64.ofNat n))
  | none => .error (.noLength v.type)

/-- The elements of a single list or column, or else the arguments themselves. -/
def candidates : List Value → List Value
  | [.list items] => items
  | [.column c] => c.values
  | args => args

/-- Keeps the better one of the best value so far and the next one. -/
def better (keep : Ordering) (best : Option Value) (candidate : Value) :
    Except ValueError (Option Value) :=
  match best with
  | none => .ok (some candidate)
  | some current =>
      (candidate.compare current).map fun o => some (if o == keep then candidate else current)

/-- The first extreme value among those that are not null. -/
def extreme (keep : Ordering) (values : List Value) : Except ValueError Value :=
  ((values.filter fun v => !v.isNull).foldlM (better keep) none).map (·.getD .null)

/-- The sum of the values that are not null. -/
def sum (values : List Value) : Except ValueError Value :=
  (values.filter fun v => !v.isNull).foldlM Value.add (.int 0)

/-- The running sum and count of a mean. -/
structure Tally where
  total : Float
  count : Int32

/-- Adds an element to a running mean; null does not count. -/
def Tally.add (t : Tally) (v : Value) : Except CallFailure Tally :=
  match v with
  | .null => .ok t
  | v =>
      match v.number? with
      | some x => .ok ⟨t.total + x, t.count + 1⟩
      | none => .error (.notNumericElement "mean" v.type)

/-- The mean of a tally; null without elements. -/
def Tally.mean (t : Tally) : Value :=
  if t.count = 0 then .null else .float (t.total / t.count.toFloat)

/-- The sum of the cells that are not null, and their number. -/
def columnMean (cells : List (Option Float)) : Value :=
  let present := cells.filterMap id
  if present.isEmpty then .null
  else .float (present.foldl (· + ·) 0.0 / present.length.toFloat)

/-- The mean of a list or column. -/
def mean : Value → Except CallFailure Value
  | .column c =>
      if c.type.isNumeric then .ok (columnMean (c.cells.floats?.getD []))
      else .error (.notNumericColumn "mean" c.type)
  | .list items => (items.foldlM Tally.add ⟨0.0, 0⟩).map Tally.mean
  | v => .error (.notSequence "mean" v.type)

/-! ## Rounding -/

/-- Whole numbers below this limit are words. -/
def roundLimit : Float := 9.2e18

/-- Rounds a float to a word. -/
def roundToWord (x : Float) : Except CallFailure Value :=
  let rounded := Decimal.roundEven x
  if rounded.isFinite && rounded.abs < roundLimit then .ok (.int rounded.toModel.toInt64)
  else .error (.notRoundable x)

/-- Rounds a float to a number of decimal places; a negative number counts places
before the point. -/
def roundToPlaces (x : Float) (digits : Int32) : Float :=
  if 0 ≤ digits then
    let scale := Decimal.power 10.0 digits
    Decimal.roundEven (x * scale) / scale
  else
    let scale := Decimal.power 10.0 (-digits)
    Decimal.roundEven (x / scale) * scale

/-- Rounds a scalar; without places the result is a word. -/
def roundScalar (digits : Option Int32) (v : Value) : Except CallFailure Value :=
  match v, digits with
  | .null, _ => .ok .null
  | .int n, none => .ok (.int n)
  | .int n, some d => .ok (if 0 ≤ d then .int n else .float (roundToPlaces (nearestFloat n) d))
  | .float x, none => roundToWord x
  | .float x, some d => .ok (.float (roundToPlaces x d))
  | v, _ => .error (.notNumeric "round" v.type)

/-- The number of places, if an argument gives one. -/
def places : Option Value → Except CallFailure (Option Int32)
  | none => .ok none
  | some (.int d) =>
      if Int32.minValue.toInt ≤ d.toInt ∧ d.toInt ≤ Int32.maxValue.toInt then
        .ok (some (Int32.ofInt d.toInt))
      else .error .digitsOutOfRange
  | some v => .error (.digitsNotInteger v.type)

/-- Rounds a number, or the cells of a column. -/
def round (v : Value) (digits : Option Int32) : Except CallFailure Value :=
  match v with
  | .column c => do
      let rounded ← c.values.mapM (roundScalar digits)
      let column ← ofValueResult (Column.ofValues c.name rounded)
      .ok (.column column)
  | v => roundScalar digits v

end Standard

namespace StandardFunction

/-- The standard functions in order of name. -/
def all : List StandardFunction :=
  [.abs, .coalesce, .len, .max, .mean, .min, .round, .sum]

/-- The name in formulas. -/
def name : StandardFunction → String
  | .abs => "abs"
  | .coalesce => "coalesce"
  | .len => "len"
  | .max => "max"
  | .mean => "mean"
  | .min => "min"
  | .round => "round"
  | .sum => "sum"

/-- The standard function of a name. -/
def ofName? (name : String) : Option StandardFunction :=
  all.find? fun f => f.name == name

/-- The numbers of arguments taken. -/
def arity : StandardFunction → Arity
  | .abs => .exactly 1
  | .coalesce => .any
  | .len => .exactly 1
  | .max => .atLeast 1
  | .mean => .exactly 1
  | .min => .atLeast 1
  | .round => .between 1 2
  | .sum => .atLeast 1

/-- The result for arguments that the arity takes. -/
def apply (f : StandardFunction) (args : List Value) : Except CallFailure Value :=
  let first := args.headD .null
  match f with
  | .abs => Standard.abs first
  | .coalesce => .ok (Standard.coalesce args)
  | .len => Standard.len first
  | .max => ofValueResult (Standard.extreme .gt (Standard.candidates args))
  | .mean => Standard.mean first
  | .min => ofValueResult (Standard.extreme .lt (Standard.candidates args))
  | .round => do
      let digits ← Standard.places args[1]?
      Standard.round first digits
  | .sum => ofValueResult (Standard.sum (Standard.candidates args))

/-- The result of a call. -/
def call (f : StandardFunction) : HostFunction := fun args =>
  match Standard.expectArity f.name f.arity args with
  | .error e => .error e
  | .ok () => f.apply args

end StandardFunction
end Formulary
