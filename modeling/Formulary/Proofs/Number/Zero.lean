import Formulary.Column.Basic
import Formulary.Proofs.Number.Nearest

/-!
# Zero among floats

A float is zero if its unpacked form is, with either sign, and the undefined float is not
zero.  A short float is zero exactly if the float that it widens to is, and no unsigned word
but zero converts to zero.

Main definitions:

- `Decimal.isZero`: the two zeros.

Main results:

- Theorem `beq_zero`, `beq_zero_short`: which floats are zero.
- Theorem `isZero_wideFloat`: widening keeps what is zero.
- Theorem `toFloat_beq_zero`: converting a word keeps it from zero.
-/

namespace Formulary
namespace Decimal

open Float.Model

/-- Whether an unpacked float is one of the two zeros. -/
def isZero : UnpackedFloat → Bool
  | .zero _ => true
  | _ => false

/-- The zeros are what compares as equal with zero. -/
theorem beq_zero_eq (u : UnpackedFloat) : u.beq (.zero .positive) = isZero u := by
  cases u with
  | notANumber => rfl
  | infinity s => cases s <;> rfl
  | zero s => rfl
  | finite s m e hm => cases s <;> rfl

/-- Unpacking gives significands of short floats. -/
theorem unpack_binary32 {b : BitVec Format.binary32.numBits} {s : UnpackedFloat.Sign} {m : Nat}
    {e : Int} {hm : 0 < m} (h : UnpackedFloat.unpack .binary32 b = .finite s m e hm) :
    m < 2 ^ 24 ∧ -149 ≤ e ∧ e ≤ 104 := by
  have hexponent : (UnpackedFloat.unpackExponent b).toNat < 256 :=
    (UnpackedFloat.unpackExponent b).isLt
  have hfraction : (UnpackedFloat.unpackMantissa b).toNat < 2 ^ 23 :=
    (UnpackedFloat.unpackMantissa b).isLt
  obtain ⟨hones, hcases⟩ := of_unpack_eq_finite h
  have hbelow : (UnpackedFloat.unpackExponent b).toNat ≠ 255 :=
    fun h => hones (BitVec.eq_of_toNat_eq h)
  change (m = _ ∧ e = 1 - (150 : Nat)) ∨ (m = 2 ^ 23 + _ ∧ _ ∧ e = _ - (150 : Nat)) at hcases
  omega

end Decimal

open Decimal

/-- A float equals zero if its model is a zero. -/
theorem beq_zero (x : Float) : (x == 0.0) = isZero x.toModel.unpack :=
  beq_zero_eq x.toModel.unpack

theorem beq_zero_short (x : Float32) : (x == 0.0) = isZero x.toModel.unpack :=
  beq_zero_eq x.toModel.unpack

/-- The undefined float is not zero. -/
theorem beq_zero_of_isNaN {x : Float} (h : x.isNaN = true) : (x == 0.0) = false := by
  rw [← Bool.not_eq_true, beq_iff_compare, compare_unpack_eq_none (.inl h)]
  exact nofun

/-- Widening keeps what is zero and what is not. -/
theorem isZero_wideFloat (x : Float32) :
    isZero (Cells.wideFloat x).toModel.unpack = isZero x.toModel.unpack := by
  have hbounds : ∀ s m e hm, x.toModel.unpack = .finite s m e hm →
      m < 2 ^ 24 ∧ -149 ≤ e ∧ e ≤ 104 := fun s m e hm => unpack_binary32
  unfold Cells.wideFloat
  generalize x.toModel.unpack = u at hbounds ⊢
  cases u with
  | notANumber => rfl
  | infinity s => cases s <;> rfl
  | zero s => cases s <;> rfl
  | finite s m e hm =>
    obtain ⟨hm24, hleast, hgreatest⟩ := hbounds s m e hm rfl
    have hlog : m.log2 < 24 := (Nat.log2_lt (Nat.ne_of_gt hm)).2 hm24
    obtain ⟨m', e', hm', hunpack, -⟩ :=
      unpack_pack_round s (e := e) (Nat.ne_of_gt hm) (by omega) (by omega)
    exact (congrArg isZero hunpack).trans rfl

/-- Only the word zero converts to zero. -/
theorem toFloat_beq_zero (w : UInt64) : (w.toFloat == 0.0) = (w == 0) := by
  have hofInt : w.toFloat = .ofModel (.ofInt w.toNat) := rfl
  have hordinal : ordinal w.toFloat = integerOrdinal w.toNat := by
    rw [hofInt]
    exact ordinal_ofInt w.toNat_lt
  have hzero : ordinal 0.0 = integerOrdinal 0 := rfl
  rw [Bool.eq_iff_iff, beq_iff_ordinal (isNaN_toFloat w) rfl, hordinal, hzero, beq_iff_eq]
  constructor
  · intro h
    by_contra hw
    have hpos : w.toNat ≠ 0 := fun heq => hw (UInt64.toNat_inj.1 heq)
    have habove : 0 < naturalOrdinal w.toNat := naturalOrdinal_pos hpos
    rw [integerOrdinal_zero, integerOrdinal_pos (by omega), Int.natAbs_natCast] at h
    omega
  · rintro rfl
    rfl

end Formulary
