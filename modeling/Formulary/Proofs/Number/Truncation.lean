import Formulary.Function.Standard
import Formulary.Proofs.Function.Sum
import Formulary.Proofs.Number.Closest

/-!
# Floats as words

A float becomes a word by dropping what stands behind its point.  A float of more than
fifty-three bits before the point has its full significand, so its ordinal tells its exponent,
and below the limit of rounding it is small enough for a word.

Main definitions:

- `wholePart`: a finite float without what stands behind its point.

Main results:

- Theorem `isWord_wholePart`: below the limit of rounding the whole part is a word.
- Theorem `toInt_toInt64`: this word is what the float becomes.
-/

namespace Formulary
namespace Decimal

open Float.Model Float.Model.UnpackedFloat

/-- A shift to the right divides the significand. -/
theorem mantissa_shiftRight (n t : Nat) :
    (ExtendedMantissa.ofMantissaAndAccuracy n .exact >>> t).mantissa = n / 2 ^ t := by
  induction t with
  | zero => exact (Nat.div_one n).symm
  | succ t ih =>
    rw [shiftRight_succ, Nat.pow_succ, ← Nat.div_div_eq_div_mul, ← ih]
    rfl

/-- The bits behind the point are dropped. -/
theorem toInt_finite (low high : Int) (s : Sign) (m : Nat) (e : Int) (hm : 0 < m) :
    toInt low high (.finite s m e hm) = s.apply ↑(m * 2 ^ e.toNat / 2 ^ (-e).toNat) := by
  have hshift : (0 - (e - ((e - 0).toNat : Int))).toNat = (-e).toNat := by omega
  show s.apply ↑(ExtendedMantissa.ofMantissaAndAccuracy (m <<< (e - 0).toNat) .exact >>>
    (0 - (e - ((e - 0).toNat : Int))).toNat).mantissa = _
  rw [mantissa_shiftRight, hshift, Int.sub_zero, Nat.shiftLeft_eq]

/-- The whole part of a number of least units. -/
theorem units_div (m : Nat) {e : Int} (he : -1074 ≤ e) :
    m * 2 ^ (e + 1074).toNat / unitsOfOne = m * 2 ^ e.toNat / 2 ^ (-e).toNat := by
  have hone : unitsOfOne = 2 ^ (-e).toNat * 2 ^ (1074 - (-e).toNat) := by
    have hsum : (-e).toNat + (1074 - (-e).toNat) = 1074 := by omega
    rw [← Nat.pow_add, hsum, unitsOfOne]
  have hunits : m * 2 ^ (e + 1074).toNat = m * 2 ^ e.toNat * 2 ^ (1074 - (-e).toNat) := by
    have hsum : (e + 1074).toNat = e.toNat + (1074 - (-e).toNat) := by omega
    rw [hsum, Nat.pow_add, Nat.mul_assoc]
  rw [hone, hunits, Nat.mul_div_mul_right _ _ (Nat.two_pow_pos _)]

/-- A finite float becomes the integer that its units make, rounded towards zero. -/
theorem toInt_eq_tdiv {u : UnpackedFloat} (hu : IsPackable u) (hfinite : u.isFinite = true)
    (low high : Int) : toInt low high u = (units u).tdiv unitsOfOne := by
  cases u with
  | finite s m e hm =>
    have hcast : (m : Int) * 2 ^ (e + 1074).toNat = ↑(m * 2 ^ (e + 1074).toNat) := by
      push_cast
      rfl
    have hnatural : ((m : Int) * 2 ^ (e + 1074).toNat).tdiv unitsOfOne =
        ↑(m * 2 ^ e.toNat / 2 ^ (-e).toNat) := by
      rw [hcast, ← Int.ofNat_tdiv, units_div m hu.least]
    rw [toInt_finite, units_finite]
    cases s with
    | positive => exact hnatural.symm
    | negative => rw [Sign.apply, Sign.apply, Int.neg_tdiv, hnatural]
  | zero s => exact (Int.zero_tdiv _).symm
  | _ => cases hfinite

/-- A finite float is small enough for a word if it has no more bits before the point than its
significand, or if its exponent is small. -/
theorem isWord_toInt_finite (low high : Int) (s : Sign) {m : Nat} {e : Int} (hm : 0 < m)
    (hlt : m < 2 ^ 53) (he : e ≤ 10) : IsWord (toInt low high (.finite s m e hm)) := by
  have hpower : 2 ^ e.toNat ≤ 2 ^ 10 := Nat.pow_le_pow_right Nat.two_pos (by omega)
  have hsmall : m * 2 ^ e.toNat / 2 ^ (-e).toNat < 2 ^ 63 := by
    calc m * 2 ^ e.toNat / 2 ^ (-e).toNat ≤ m * 2 ^ e.toNat := Nat.div_le_self _ _
      _ ≤ m * 2 ^ 10 := Nat.mul_le_mul_left m hpower
      _ < 2 ^ 63 := by omega
  rw [toInt_finite]
  generalize m * 2 ^ e.toNat / 2 ^ (-e).toNat = n at hsmall ⊢
  cases s <;> simp only [Sign.apply, IsWord] <;> omega

end Decimal

open Decimal

/-- A finite float without what stands behind its point. -/
def wholePart (x : Float) : Int :=
  (units x.toModel.unpack).tdiv unitsOfOne

variable {x : Float}

/-- Below the limit of rounding the exponent of a float is small. -/
theorem exponent_le_of_lt_roundLimit (h : x.abs < Standard.roundLimit)
    {s : Float.Model.UnpackedFloat.Sign} {m : Nat} {e : Int} {hm : 0 < m}
    (hx : x.toModel.unpack = .finite s m e hm) : e ≤ 10 := by
  by_contra he
  have hpackable : Packable m e := by
    have hunpack : IsPackable x.toModel.unpack := isPackable_unpack _
    rwa [hx] at hunpack
  have hnormal : 2 ^ 52 ≤ m := hpackable.normal.resolve_left (by omega)
  have habs : x.abs.toModel.unpack = .finite .positive m e hm := by
    show Float.Model.UnpackedFloat.unpack .binary64
      (Float.Model.UnpackedFloat.pack .binary64 x.toModel.unpack.abs) = _
    rw [hx]
    exact unpack_pack hm hpackable hnormal
  have hdefined : x.abs.isNaN = false := by
    rw [isNaN_eq_false_iff, habs]
    exact nofun
  have hordinal : ordinal x.abs = (e + 1074) * 2 ^ 52 + m := by
    rw [ordinal, habs]
    rfl
  have hlimit : ordinal Standard.roundLimit < (10 + 1074) * 2 ^ 52 + 2 ^ 53 := by decide
  have hlt := (lt_iff_ordinal hdefined rfl).1 h
  rw [hordinal] at hlt
  omega

/-- Below the limit of rounding the whole part of a float is a word. -/
theorem isWord_wholePart (hfinite : x.isFinite = true) (h : x.abs < Standard.roundLimit) :
    IsWord (wholePart x) := by
  have hpackable : IsPackable x.toModel.unpack := isPackable_unpack _
  have hzero : IsWord 0 := by decide
  rw [wholePart, ← toInt_eq_tdiv hpackable hfinite 0 0]
  cases hx : x.toModel.unpack with
  | finite s m e hm =>
    rw [hx] at hpackable
    exact isWord_toInt_finite 0 0 s hm hpackable.lt (exponent_le_of_lt_roundLimit h hx)
  | infinity s => cases s <;> exact hzero
  | zero => exact hzero
  | notANumber => exact hzero

/-- A float whose whole part is a word becomes this word. -/
theorem toInt_toInt64 (hfinite : x.isFinite = true) (h : IsWord (wholePart x)) :
    x.toModel.toInt64.toInt = wholePart x := by
  have hpackable : IsPackable x.toModel.unpack := isPackable_unpack _
  have hwhole := toInt_eq_tdiv hpackable hfinite Int64.minValue.toInt Int64.maxValue.toInt
  have hlow : Int64.minValue.toInt ≤ wholePart x := by
    rw [Int64.toInt_minValue]
    exact h.1
  have hhigh : wholePart x ≤ Int64.maxValue.toInt := by
    have := h.2
    rw [Int64.toInt_maxValue]
    omega
  show (Int64.ofIntClamp _).toInt = _
  rw [hwhole]
  exact Int64.toInt_ofIntClamp hlow hhigh

end Formulary
