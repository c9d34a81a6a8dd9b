/-!
# Reading decimals

A decimal text is a whole part, an optional fraction and an optional exponent.
`Numeral` keeps its significand and its exponent of ten, and `Numeral.toFloat`
rounds it to the nearest floating-point number.  Exponents far outside the
floating-point range are cut off before any power of ten is formed.
-/

namespace Formulary
namespace Decimal

/-- The value of one decimal digit. -/
def digitValue (c : Char) : Nat :=
  c.toNat - 48

/-- The value of a run of decimal digits. -/
def digitsValue (s : List Char) : Nat :=
  s.foldl (fun n c => 10 * n + digitValue c) 0

/-- The digits at the start, and the rest. -/
def takeDigits (s : List Char) : List Char × List Char :=
  (s.takeWhile Char.isDigit, s.dropWhile Char.isDigit)

/-- A non-negative decimal: `significand * 10 ^ exponent`. -/
structure Numeral where
  significand : Nat
  exponent : Int
  deriving DecidableEq

/-- The numeral of a whole part, a fraction and an exponent of ten. -/
def Numeral.ofParts (whole fraction : List Char) (exponent : Int) : Numeral :=
  ⟨digitsValue (whole ++ fraction), exponent - fraction.length⟩

/-- The nearest floating-point number; infinity beyond the range. -/
def Numeral.toFloat (n : Numeral) : Float :=
  if n.significand = 0 then 0.0
  else
    let leading := n.exponent + (Nat.toDigits 10 n.significand).length
    if leading > 310 then 1.0 / 0.0
    else if leading < -330 then 0.0
    else Float.ofScientific n.significand (decide (n.exponent < 0)) n.exponent.natAbs

/-! ## Free-standing numbers

A text that holds nothing but a number may have a sign, may lack the digits on
one side of the point, and may spell infinity or the undefined value.
-/

/-- The fraction after a whole part; an absent one is empty. -/
def looseFraction : List Char → List Char × List Char
  | '.' :: s => takeDigits s
  | s => ([], s)

/-- The signed value of exponent digits, if they end the text. -/
def finalExponent (negative : Bool) (s : List Char) : Option Int :=
  if s.isEmpty || s.any (fun c => !c.isDigit) then none
  else some (if negative then -(digitsValue s : Int) else digitsValue s)

/-- The exponent at the end of a text; an absent one is zero. -/
def looseExponent : List Char → Option Int
  | [] => some 0
  | c :: s =>
      if c = 'e' ∨ c = 'E' then
        match s with
        | '+' :: s => finalExponent false s
        | '-' :: s => finalExponent true s
        | s => finalExponent false s
      else none

/-- Reads an unsigned number that fills the text. -/
def readUnsigned (s : List Char) : Option Float :=
  let (whole, rest) := takeDigits s
  let (fraction, rest) := looseFraction rest
  if whole.isEmpty && fraction.isEmpty then
    let word := String.ofList (s.map Char.toLower)
    if word = "inf" ∨ word = "infinity" then some (1.0 / 0.0)
    else if word = "nan" then some (0.0 / 0.0)
    else none
  else
    (looseExponent rest).map fun exponent =>
      (Numeral.ofParts whole fraction exponent).toFloat

/-- Reads a number that fills the text. -/
def readFloat? : List Char → Option Float
  | '-' :: s => (readUnsigned s).map fun x => -x
  | '+' :: s => readUnsigned s
  | s => readUnsigned s

end Decimal
end Formulary
