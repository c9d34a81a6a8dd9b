/-!
# Rounding floats

Rounding to a whole number takes the nearest one, and the even one of two that
are equally near.  Powers are formed by repeated squaring, so that a power of
ten is the rounded product of the squares that its exponent names.
-/

namespace Formulary
namespace Decimal

/-- Two to the power of 52: from here on every float is whole. -/
def wholeLimit : Float := 4503599627370496.0

/-- Whether the sign bit is set. -/
def signBit (x : Float) : Bool :=
  x.toBits >>> 63 == 1

/-- The nearest whole number; a tie goes to the even one, and the sign stays.
Below the limit, adding it rounds to a whole number, and subtracting it is exact. -/
def roundEven (x : Float) : Float :=
  let y := x.abs
  if y < wholeLimit then
    let rounded := (y + wholeLimit) - wholeLimit
    if signBit x then -rounded else rounded
  else x

/-- The product of the squares of `x` that the bits of `n` name. -/
def squarings : Nat → Float → Nat → Float → Float
  | 0, _, _, product => product
  | fuel + 1, x, n, product =>
      let product := if n % 2 = 1 then product * x else product
      if n / 2 = 0 then product else squarings fuel (x * x) (n / 2) product

/-- Power with a whole exponent; a negative one inverts the result. -/
def power (x : Float) (n : Int32) : Float :=
  let product := squarings 64 x n.toInt.natAbs 1.0
  if n < 0 then 1.0 / product else product

end Decimal
end Formulary
