import Formulary.Compilation.Failure
import Formulary.Value.Logic

/-!
# Evaluation of formulas

A formula has its value in a scope: a context of named values, which bindings read,
and a table of functions, which calls use.  A boolean chain of scalars stops at the
first operand that decides it; from the first column on, all operands are combined
cell by cell.

Main definitions:

- `Scope.evaluate`: the value of a formula.
-/

namespace Formulary

/-- Named values that a formula may read. -/
abbrev Context := Table Value

/-- Whether two contexts have equal values under the same keys, in whatever order. -/
def equalContexts (a b : Context) : Bool :=
  a.size == b.size && a.entries.all fun (key, v) => (b.get? key).any fun w => v.equals w

/-- What bindings and calls refer to. -/
structure Scope where
  context : Context
  functions : Table HostFunction

/-- The value of a constant. -/
def Literal.value : Literal → Value
  | .int n => .int n
  | .float x => .float x
  | .text s => .text s
  | .bool b => .bool b
  | .null => .null

/-- The value of a chain without operands. -/
def Connective.unit : Connective → Bool
  | .and => true
  | .or => false

/-- Whether an operand decides a chain: it is no column, and its truth is not the one
that leaves the chain open. -/
def Connective.decides (op : Connective) (v : Value) : Bool :=
  !v.isColumn && v.isTruthy != op.unit

/-- The value of a whole chain from what its operands came to. -/
def Connective.conclude (op : Connective) : Option Value → Value
  | some v => if v.isColumn then v else .bool v.isTruthy
  | none => .bool op.unit

/-- The value of an operation, as a step of an evaluation. -/
def evaluated {α : Type} (r : Except ValueError α) : Except FormulaError α :=
  r.mapError FormulaError.evaluation

namespace Scope

/-- The value that a binding reads. -/
def read (s : Scope) (b : Binding) : Except FormulaError Value :=
  match s.context.get? b.context with
  | none => .error (.missingContext [b.context])
  | some source =>
    match b.subscript with
    | .index i => evaluated (source.index i)
    | .key k => evaluated (source.field k)

/-- The function of a call. -/
def callee (s : Scope) (function : String) : Except FormulaError HostFunction :=
  match s.functions.get? function with
  | some f => .ok f
  | none => .error (.unboundFunction function)

mutual

/-- The value of a formula. -/
def evaluate (s : Scope) : Expr → Except FormulaError Value
  | .literal l => .ok l.value
  | .binding b => s.read b
  | .name ident => .error (.unknownVariable ident [])
  | .attr base member => .error (.unknownVariable (base ++ "." ++ member) [])
  | .call f args => do
      let call ← s.callee f
      let values ← evaluateAll s args
      (call values).mapError FormulaError.host
  | .negate e => do evaluated (← evaluate s e).neg
  | .not e => do evaluated (← evaluate s e).not
  | .arith op l r => do
      let left ← evaluate s l
      let right ← evaluate s r
      evaluated (Value.arith op left right)
  | .compare op l r => do
      let left ← evaluate s l
      let right ← evaluate s r
      evaluated (Value.relate op left right)
  | .logic op operands => evaluateChain s op none operands
  | .conditional c t e => do
      let condition ← evaluate s c
      if condition.isColumn then
        let thenValue ← evaluate s t
        let elseValue ← evaluate s e
        evaluated (Value.select condition thenValue elseValue)
      else if condition.isTruthy then evaluate s t
      else evaluate s e

/-- The values of arguments, from left to right. -/
def evaluateAll (s : Scope) : List Expr → Except FormulaError (List Value)
  | [] => .ok []
  | e :: es => do
      let v ← evaluate s e
      let vs ← evaluateAll s es
      return v :: vs

/-- The value of the rest of a chain, from what the operands before came to. -/
def evaluateChain (s : Scope) (op : Connective) (soFar : Option Value) :
    List Expr → Except FormulaError Value
  | [] => .ok (op.conclude soFar)
  | e :: es =>
    match soFar with
    | none => do
        let v ← evaluate s e
        evaluateChain s op (some v) es
    | some current =>
      if op.decides current then .ok (.bool !op.unit)
      else do
        let v ← evaluate s e
        let combined ← evaluated (Value.connect op current v)
        evaluateChain s op (some combined) es

end

end Scope
end Formulary
