import Formulary.Decimal.Reading
import Formulary.Decimal.Shortest
import Mathlib.Logic.Basic

/-!
# Numbers that are read are defined

A decimal is read as zero, as an infinity, or by rounding a product or quotient of two
positive numbers.  None of these is the undefined float, and neither is the negation of a
float that is defined.

Main results:

- Theorem `ofFloat_ne_undefined`: the bits of a defined float are those of a number or an
  infinity.
- Theorem `isNaN_neg`: negations of defined floats are defined.
- Theorem `Numeral.isNaN_toFloat`: decimals are read as defined floats.
-/

namespace Formulary
namespace Decimal

open Float.Model

/-! ## Bits -/

/-- The bits of the undefined float have the greatest exponent and a fraction. -/
theorem unpack_eq_notANumber_iff {b : BitVec Format.binary64.numBits} :
    UnpackedFloat.unpack .binary64 b = .notANumber ↔
      UnpackedFloat.unpackExponent b = -1#_ ∧ UnpackedFloat.unpackMantissa b ≠ 0#_ := by
  unfold UnpackedFloat.unpack
  dsimp only
  by_cases hexponent : UnpackedFloat.unpackExponent b = -1#_
  · rw [if_pos hexponent]
    by_cases hfraction : UnpackedFloat.unpackMantissa b = 0#_
    · rw [if_pos hfraction]
      exact ⟨UnpackedFloat.noConfusion, fun h => absurd hfraction h.2⟩
    · rw [if_neg hfraction]
      exact ⟨fun _ => ⟨hexponent, hfraction⟩, fun _ => rfl⟩
  · rw [if_neg hexponent]
    refine iff_of_false ?_ fun h => hexponent h.1
    rw [ite_eq_iff, dite_eq_iff]
    rintro (⟨_, ⟨_, h⟩ | ⟨_, h⟩⟩ | ⟨_, h⟩) <;> cases h

/-- Packing makes nothing undefined. -/
theorem unpack_pack_ne {u : UnpackedFloat} (h : u ≠ .notANumber) :
    UnpackedFloat.unpack .binary64 (UnpackedFloat.pack .binary64 u) ≠ .notANumber := by
  rw [Ne, unpack_eq_notANumber_iff]
  rintro ⟨hexponent, hfraction⟩
  cases u with
  | notANumber => exact h rfl
  | infinity s => exact hfraction UnpackedFloat.unpackMantissa_packComponents
  | zero s => exact hfraction UnpackedFloat.unpackMantissa_packComponents
  | finite s m e hm =>
    unfold UnpackedFloat.pack at hexponent hfraction
    simp only at hexponent hfraction
    split at hexponent
    · next hlarge =>
      rw [if_pos hlarge] at hfraction
      exact hfraction UnpackedFloat.unpackMantissa_packComponents
    · next hsmall =>
      split at hexponent
      · rw [UnpackedFloat.unpackExponent_packComponents] at hexponent
        have hbits := congrArg BitVec.toNat hexponent
        rw [BitVec.toNat_ofNat, Nat.mod_eq_of_lt (by omega)] at hbits
        have hones : (-1#11).toNat = 2 ^ 11 - 1 := rfl
        omega
      · rw [UnpackedFloat.unpackExponent_packComponents] at hexponent
        exact absurd hexponent (by decide)

/-- A float is defined if its model is a number or an infinity. -/
theorem isNaN_eq_false_iff {x : Float} :
    x.isNaN = false ↔ x.toModel.unpack ≠ .notANumber := by
  show x.toModel.unpack.isNaN = false ↔ _
  cases x.toModel.unpack with
  | notANumber => exact ⟨Bool.noConfusion, fun h => absurd rfl h⟩
  | _ => exact ⟨fun _ => UnpackedFloat.noConfusion, fun _ => rfl⟩

theorem isNaN_ofModel_pack {u : UnpackedFloat} (h : u ≠ .notANumber) :
    (Float.ofModel (pack u)).isNaN = false :=
  isNaN_eq_false_iff.2 (unpack_pack_ne h)

/-- The exponent stands in the eleven bits above the fraction. -/
theorem toNat_unpackExponent (b : BitVec Format.binary64.numBits) :
    (UnpackedFloat.unpackExponent b).toNat = b.toNat / leadingBit % 2048 := by
  simp [UnpackedFloat.unpackExponent, Nat.shiftRight_eq_div_pow, leadingBit]

/-- The fraction stands in the lowest bits. -/
theorem toNat_unpackMantissa (b : BitVec Format.binary64.numBits) :
    (UnpackedFloat.unpackMantissa b).toNat = b.toNat % leadingBit := by
  simp [UnpackedFloat.unpackMantissa, leadingBit]

/-- The bits of a defined float are those of a number or an infinity. -/
theorem ofFloat_ne_undefined {x : Float} (h : x.isNaN = false) :
    Binary.ofFloat x ≠ .undefined := by
  rw [isNaN_eq_false_iff, Ne, unpack, unpack_eq_notANumber_iff] at h
  intro hx
  apply h
  unfold Binary.ofFloat at hx
  simp only at hx
  split at hx
  · next hexponent =>
    split at hx
    · cases hx
    · next hfraction =>
      constructor
      · rw [← BitVec.toNat_inj, toNat_unpackExponent]
        exact hexponent
      · rw [Ne, ← BitVec.toNat_inj, toNat_unpackMantissa]
        exact hfraction
  · split at hx <;> cases hx

/-! ## Arithmetic -/

/-- Whether the unpacked float is a number other than zero. -/
def isProper : UnpackedFloat → Bool
  | .finite .. => true
  | _ => false

/-- Rounding gives a number. -/
theorem roundWithAccuracy_ne (s : UnpackedFloat.Sign) (m : Nat) (e : Int)
    (a : UnpackedFloat.Accuracy) :
    UnpackedFloat.roundWithAccuracy .binary64 s m e a ≠ .notANumber := by
  unfold UnpackedFloat.roundWithAccuracy
  dsimp only
  rw [Ne, dite_eq_iff]
  rintro (⟨_, h⟩ | ⟨_, h⟩) <;> cases h

/-- Only zero and infinity have no product, and a proper number is neither. -/
theorem mul_ne {u v : UnpackedFloat} (hu : u ≠ .notANumber) (hv : isProper v = true) :
    UnpackedFloat.mul .binary64 u v ≠ .notANumber := by
  cases v with
  | finite =>
    cases u with
    | notANumber => exact absurd rfl hu
    | infinity => exact UnpackedFloat.noConfusion
    | zero => exact UnpackedFloat.noConfusion
    | finite => exact roundWithAccuracy_ne _ _ _ _
  | _ => cases hv

/-- Only zeros and infinities among themselves have no quotient. -/
theorem div_ne {u v : UnpackedFloat} (hu : u ≠ .notANumber) (hv : isProper v = true) :
    UnpackedFloat.div .binary64 u v ≠ .notANumber := by
  cases v with
  | finite =>
    cases u with
    | notANumber => exact absurd rfl hu
    | infinity => exact UnpackedFloat.noConfusion
    | zero => exact UnpackedFloat.noConfusion
    | finite => exact roundWithAccuracy_ne _ _ _ _
  | _ => cases hv

/-- Negations of defined floats are defined. -/
theorem isNaN_neg {x : Float} (h : x.isNaN = false) : (-x).isNaN = false := by
  rw [isNaN_eq_false_iff] at h
  apply isNaN_ofModel_pack
  cases hx : x.toModel.unpack with
  | notANumber => exact absurd hx h
  | _ => exact UnpackedFloat.noConfusion

/-! ## Decimals -/

theorem isNaN_toFloat (n : UInt64) : n.toFloat.isNaN = false := by
  apply isNaN_ofModel_pack
  unfold UnpackedFloat.ofUInt64 UnpackedFloat.ofNat UnpackedFloat.ofInt UnpackedFloat.normalize
  split
  · exact roundWithAccuracy_ne _ _ _ _
  · exact UnpackedFloat.noConfusion
  · exact roundWithAccuracy_ne _ _ _ _

/-- The powers of ten that are floats are proper numbers. -/
theorem isProper_powersOfTen :
    ∀ x ∈ Float.exactlyRepresentablePowersOfTen.toList, isProper x.toModel.unpack = true := by
  decide +kernel

/-- A decimal number is rounded to a number or an infinity. -/
theorem ofScientific_ne (m : Nat) (e : Int) :
    UnpackedFloat.ofScientific .binary64 m e ≠ .notANumber := by
  unfold UnpackedFloat.ofScientific
  rw [Ne, dite_eq_iff]
  rintro (⟨_, h⟩ | ⟨_, h⟩)
  · cases h
  rw [ite_eq_iff, ite_eq_iff, ite_eq_iff] at h
  rcases h with ⟨_, h⟩ | ⟨_, ⟨_, h⟩ | ⟨_, ⟨_, h⟩ | ⟨_, h⟩⟩⟩
  · cases h
  · cases h
  · exact mul_ne UnpackedFloat.noConfusion rfl h
  · exact div_ne UnpackedFloat.noConfusion rfl h

/-- A significand times a power of ten is read as a defined float. -/
theorem isNaN_ofScientific (m : Nat) (s : Bool) (e : Nat) :
    (Float.ofScientific m s e).isNaN = false := by
  unfold Float.ofScientific
  split
  · next h =>
    have hx := isNaN_eq_false_iff.1 (isNaN_toFloat m.toUInt64)
    have hsize : e < Float.exactlyRepresentablePowersOfTen.size := Nat.lt_succ_of_le h.2
    have hy := isProper_powersOfTen _ (Array.getElem_mem_toList hsize)
    cases s with
    | false => exact isNaN_ofModel_pack (mul_ne hx hy)
    | true => exact isNaN_ofModel_pack (div_ne hx hy)
  · exact isNaN_ofModel_pack (ofScientific_ne m _)

/-- Decimals are read as defined floats. -/
theorem Numeral.isNaN_toFloat (n : Numeral) : n.toFloat.isNaN = false := by
  have hzero : (0.0 : Float).isNaN = false := isNaN_ofScientific 0 true 1
  unfold Numeral.toFloat
  split
  · exact hzero
  · simp only
    split
    · rfl
    · split
      · exact hzero
      · exact isNaN_ofScientific ..

end Decimal
end Formulary
