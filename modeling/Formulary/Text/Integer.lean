import Formulary.Decimal.Reading
import Formulary.Word

/-!
# Signed integers in text

An integer is written in decimal with a minus sign when it is negative.  A
reader accepts a plus sign as well, and says why it refuses: no digits at all, a
character that is no digit, or a value outside the sixty-four bits.

Main definitions:

- `integerText`: the written form.
- `readInteger`: the reader, with its causes `IntegerError`.
-/

namespace Formulary
namespace Text

/-- The decimal text of an integer. -/
def integerChars (n : Int) : List Char :=
  (if n < 0 then ['-'] else []) ++ Nat.toDigits 10 n.natAbs

/-- The decimal text of an integer. -/
def integerText (n : Int) : String :=
  String.ofList (integerChars n)

/-- The decimal text of an integer is the one of the standard library. -/
theorem integerText_eq_toString (n : Int) : integerText n = toString n := by
  cases n with
  | ofNat n =>
    have h : ¬((n : Int) < 0) := Int.not_lt.2 (Int.natCast_nonneg n)
    simp only [integerText, integerChars, Int.ofNat_eq_natCast, h, if_false, List.nil_append,
      Int.natAbs_natCast]
    rfl
  | negSucc n =>
    have h : Int.negSucc n < 0 := Int.negSucc_lt_zero n
    simp only [integerText, integerChars, h, if_true, Int.natAbs_negSucc, String.ofList_append]
    rfl

/-- Numbers with one text are the same. -/
theorem integerText_injective {m n : Nat} (h : integerText m = integerText n) :
    m = n := by
  have hchars : integerChars m = integerChars n := String.ofList_injective h
  have hdigits : Nat.toDigits 10 m = Nat.toDigits 10 n := by
    have hm : ¬(m : Int) < 0 := Int.not_lt.2 (Int.natCast_nonneg m)
    have hn : ¬(n : Int) < 0 := Int.not_lt.2 (Int.natCast_nonneg n)
    simpa only [integerChars, hm, hn, if_false, List.nil_append, Int.natAbs_natCast]
      using hchars
  calc
    m = Nat.ofDigitChars 10 (Nat.toDigits 10 m) 0 := Nat.ofDigitChars_ten_toDigits.symm
    _ = Nat.ofDigitChars 10 (Nat.toDigits 10 n) 0 := by rw [hdigits]
    _ = n := Nat.ofDigitChars_ten_toDigits

/-- Why a text is no sixty-four bit integer. -/
inductive IntegerError where
  | empty | invalidDigit | tooLarge | tooSmall
  deriving DecidableEq

/-- The cause in words. -/
def IntegerError.message : IntegerError → String
  | .empty => "cannot parse integer from empty string"
  | .invalidDigit => "invalid digit found in string"
  | .tooLarge => "number too large to fit in target type"
  | .tooSmall => "number too small to fit in target type"

/-- Reads the digits after a sign.  The value is found to be too large before a
later character is found to be no digit. -/
def readMagnitude (negative : Bool) (s : List Char) : Except IntegerError Int64 :=
  let (digits, rest) := Decimal.takeDigits s
  let value : Int := Decimal.digitsValue digits
  match word? (if negative then -value else value) with
  | none => .error (if negative then .tooSmall else .tooLarge)
  | some n => if rest.isEmpty then .ok n else .error .invalidDigit

/-- Reads a sixty-four bit integer with an optional sign. -/
def readInteger : List Char → Except IntegerError Int64
  | [] => .error .empty
  | ['+'] => .error .invalidDigit
  | ['-'] => .error .invalidDigit
  | '+' :: s => readMagnitude false s
  | '-' :: s => readMagnitude true s
  | s => readMagnitude false s

/-- Reads a natural number below `bound` with an optional plus sign. -/
def readNatural (bound : Nat) (s : List Char) : Option Nat :=
  let digits := match s with
    | '+' :: rest => rest
    | _ => s
  if digits.isEmpty || digits.any (fun c => !c.isDigit) then none
  else
    let n := Decimal.digitsValue digits
    if n < bound then some n else none

end Text
end Formulary
