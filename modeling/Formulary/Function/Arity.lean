import Formulary.Text.Integer

/-!
# Arities

How many arguments a function takes.
-/

namespace Formulary

/-- The numbers of arguments that a function takes. -/
inductive Arity where
  | any
  | exactly (count : Nat)
  | atLeast (least : Nat)
  | between (least greatest : Nat)
  deriving DecidableEq, Inhabited

namespace Arity

/-- Whether `count` arguments are taken. -/
def accepts : Arity → Nat → Bool
  | any, _ => true
  | exactly n, count => count == n
  | atLeast n, count => decide (n ≤ count)
  | between least greatest, count => decide (least ≤ count) && decide (count ≤ greatest)

/-- `n` arguments in words. -/
def countText (n : Nat) : String :=
  Text.integerText n ++ (if n = 1 then " argument" else " arguments")

/-- The arity in words. -/
def describe : Arity → String
  | any => "any number of arguments"
  | exactly n => "exactly " ++ countText n
  | atLeast n => "at least " ++ countText n
  | between least greatest =>
      "between " ++ Text.integerText least ++ " and " ++ Text.integerText greatest ++ " arguments"

end Arity
end Formulary
