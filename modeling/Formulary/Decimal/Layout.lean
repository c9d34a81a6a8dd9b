import Formulary.Decimal.Shortest

/-!
# Layouts of floating-point text

Several texts show floating-point numbers, and each has its own habits: where
positional notation ends, whether a whole number keeps `.0`, and how an exponent
is written.  A `Layout` records one set of habits; `Layout.render` follows it.

Main definitions:

- `Layout.plain`: the text of results and messages.
- `Layout.canonical`: the text of canonical formulas and of diagnostics.
- `Layout.document`: the text of documents in object notation.
- `Layout.cell`: the text of a number put into a text column.
-/

namespace Formulary
namespace Decimal

/-- The habits of one text form.  Exponents are those of the leading digit. -/
structure Layout where
  /-- Least exponent written positionally; none if all small numbers are. -/
  leastPositional : Option Int
  /-- Greatest exponent written positionally; none if all large numbers are. -/
  greatestPositional : Option Int
  /-- Whether a whole number in positional notation ends in `.0`. -/
  keepsPoint : Bool
  /-- Whether a positive exponent has a sign. -/
  plusSign : Bool
  /-- How a halfway case between two shortest decimals is settled. -/
  tie : Tie

/-- Results and messages never use an exponent, and write whole numbers bare. -/
def Layout.plain : Layout := ⟨none, none, false, false, .up⟩

/-- Canonical formulas mark every float by a point or an exponent. -/
def Layout.canonical : Layout := ⟨some (-4), some 15, true, false, .up⟩

/-- Documents write positionally from `0.00001` up to sixteen digits. -/
def Layout.document : Layout := ⟨some (-5), some 15, true, true, .even⟩

/-- Text columns write positionally as canonical formulas do. -/
def Layout.cell : Layout := ⟨some (-5), some 15, true, false, .even⟩

/-- `digits` with the decimal point after `whole` of them, padded by zeros. -/
def positional (keepsPoint : Bool) (digits : List Char) (whole : Int) : List Char :=
  if whole ≤ 0 then '0' :: '.' :: (List.replicate (-whole).toNat '0' ++ digits)
  else
    let n := whole.toNat
    if digits.length ≤ n then
      digits ++ List.replicate (n - digits.length) '0' ++ (if keepsPoint then ['.', '0'] else [])
    else digits.take n ++ '.' :: digits.drop n

/-- `digits` with the point after the first of them, and an exponent. -/
def scientific (plusSign : Bool) (digits : List Char) (exponent : Int) : List Char :=
  let fraction := match digits.drop 1 with
    | [] => []
    | rest => '.' :: rest
  let sign := if exponent < 0 then ['-'] else if plusSign then ['+'] else []
  digits.take 1 ++ fraction ++ 'e' :: (sign ++ Nat.toDigits 10 exponent.natAbs)

/-- Whether a leading digit of the given exponent is written positionally. -/
def Layout.isPositional (l : Layout) (exponent : Int) : Bool :=
  l.leastPositional.all (fun least => decide (least ≤ exponent)) &&
    l.greatestPositional.all (fun greatest => decide (exponent ≤ greatest))

/-- The digits of a finite number without its sign. -/
def Layout.renderFinite (l : Layout) (m : Nat) (q : Int) : List Char :=
  if m = 0 then if l.keepsPoint then ['0', '.', '0'] else ['0']
  else
    let (d, e) := shortest l.tie m q
    let digits := Nat.toDigits 10 d
    let leading := e + digits.length - 1
    if l.isPositional leading then positional l.keepsPoint digits (leading + 1)
    else scientific l.plusSign digits leading

/-- The text of a floating-point number. -/
def Layout.render (l : Layout) (x : Float) : String :=
  match Binary.ofFloat x with
  | .undefined => "NaN"
  | .infinite negative => if negative then "-inf" else "inf"
  | .finite negative m q =>
    String.ofList ((if negative then ['-'] else []) ++ l.renderFinite m q)

end Decimal
end Formulary
