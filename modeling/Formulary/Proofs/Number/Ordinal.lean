import Formulary.Proofs.Canonical.Defined
import Formulary.Value.Comparison
import Mathlib.Algebra.Group.Int.Defs
import Mathlib.Algebra.Group.Nat.Defs
import Mathlib.Tactic.ByContra

/-!
# The order of floats

Floats that are defined can be counted through from the lowest infinity to the greatest one:
the bits without the sign, read as one number, say how many floats lie between zero and the
float.  The order of floats is the order of these numbers, in which the two zeros are one.

Main definitions:

- `Decimal.Packable`: significand and exponent of a float.
- `ordinal`: the number of a float in the order of floats.

Main results:

- Theorem `Decimal.compare_eq`: unpacked floats are compared by their numbers.
- Theorem `orderFloats?_eq_some`: so are floats.
- Theorem `orderFloats?_eq_none_iff`: only undefined floats have no order.
-/

namespace Formulary
namespace Decimal

open Float.Model

/-! ## Unpacked floats -/

/-- Significand and exponent of a float: the significand has at most fifty-three bits, and
fewer only at the least exponent. -/
structure Packable (m : Nat) (e : Int) : Prop where
  pos : 0 < m
  lt : m < 2 ^ 53
  least : -1074 ≤ e
  greatest : e ≤ 971
  normal : e = -1074 ∨ 2 ^ 52 ≤ m

/-- Whether an unpacked float is one that unpacking can give. -/
def IsPackable : UnpackedFloat → Prop
  | .finite _ m e _ => Packable m e
  | _ => True

/-- How many floats lie between zero and an unpacked float, negative below zero. -/
def unpackedOrdinal : UnpackedFloat → Int
  | .notANumber => 0
  | .zero _ => 0
  | .infinity s => s.apply (2047 * 2 ^ 52)
  | .finite s m e _ => s.apply ((e + 1074) * 2 ^ 52 + m)

/-- The leading bit of a significand adds its weight. -/
theorem toNat_implicit {n : Nat} (v : BitVec n) : (1#1 ++ v).toNat = 2 ^ n + v.toNat := by
  rw [BitVec.toNat_append, ← Nat.shiftLeft_add_eq_or_of_lt v.isLt]
  simp [Nat.shiftLeft_eq]

/-- What unpacking reads from the bits of a finite float: the exponent is not the greatest
one, and the significand has its implicit bit unless the exponent is the least one. -/
theorem of_unpack_eq_finite {spec : Format} {b : BitVec spec.numBits} {s : UnpackedFloat.Sign}
    {m : Nat} {e : Int} {hm : 0 < m} (h : UnpackedFloat.unpack spec b = .finite s m e hm) :
    UnpackedFloat.unpackExponent b ≠ -1#_ ∧
      ((m = (UnpackedFloat.unpackMantissa b).toNat ∧
          e = 1 - (spec.exponentBias + spec.mantissaBitsWithoutImplicit : Nat)) ∨
        (m = 2 ^ spec.mantissaBitsWithoutImplicit + (UnpackedFloat.unpackMantissa b).toNat ∧
          0 < (UnpackedFloat.unpackExponent b).toNat ∧
          e = (UnpackedFloat.unpackExponent b).toNat -
            (spec.exponentBias + spec.mantissaBitsWithoutImplicit : Nat))) := by
  unfold UnpackedFloat.unpack at h
  dsimp only at h
  by_cases hones : UnpackedFloat.unpackExponent b = -1#_
  · rw [if_pos hones] at h
    by_cases hmantissa : UnpackedFloat.unpackMantissa b = 0#_
    · rw [if_pos hmantissa] at h
      cases h
    · rw [if_neg hmantissa] at h
      cases h
  refine ⟨hones, ?_⟩
  rw [if_neg hones] at h
  by_cases hzero : UnpackedFloat.unpackExponent b = 0#_
  · rw [if_pos hzero] at h
    by_cases hmantissa : UnpackedFloat.unpackMantissa b = 0#_
    · rw [dif_pos hmantissa] at h
      cases h
    · rw [dif_neg hmantissa] at h
      cases h
      refine .inl ⟨rfl, ?_⟩
      rw [hzero, BitVec.toNat_ofNat, Nat.zero_mod]
      omega
  · rw [if_neg hzero] at h
    cases h
    refine .inr ⟨toNat_implicit _, ?_, ?_⟩
    · exact Nat.pos_of_ne_zero fun h => hzero (BitVec.eq_of_toNat_eq (by simpa using h))
    · omega

/-- Unpacking gives significands and exponents of floats. -/
theorem isPackable_unpack (b : BitVec Format.binary64.numBits) :
    IsPackable (UnpackedFloat.unpack .binary64 b) := by
  cases hunpack : UnpackedFloat.unpack .binary64 b with
  | finite s m e hm =>
    have hexponent : (UnpackedFloat.unpackExponent b).toNat < 2048 :=
      (UnpackedFloat.unpackExponent b).isLt
    have hfraction : (UnpackedFloat.unpackMantissa b).toNat < 2 ^ 52 :=
      (UnpackedFloat.unpackMantissa b).isLt
    obtain ⟨hones, hcases⟩ := of_unpack_eq_finite hunpack
    have hbelow : (UnpackedFloat.unpackExponent b).toNat ≠ 2047 :=
      fun h => hones (BitVec.eq_of_toNat_eq h)
    change (m = _ ∧ e = 1 - (1075 : Nat)) ∨ (m = 2 ^ 52 + _ ∧ _ ∧ e = _ - (1075 : Nat)) at hcases
    obtain ⟨hm', he⟩ | ⟨hm', hpos, he⟩ := hcases
    · exact ⟨hm, by omega, by omega, by omega, .inl (by omega)⟩
    · exact ⟨hm, by omega, by omega, by omega, .inr (by omega)⟩
  | _ => trivial

section Compare

variable {m n : Nat} {e f : Int}

/-- Exponents decide before significands. -/
theorem Packable.compare_eq (hm : Packable m e) (hn : Packable n f) :
    (compare e f).then (compare m n) =
      compare ((e + 1074) * 2 ^ 52 + (m : Int)) ((f + 1074) * 2 ^ 52 + (n : Int)) := by
  obtain ⟨-, hm, he, -, hme⟩ := hm
  obtain ⟨-, hn, hf, -, hnf⟩ := hn
  rcases Int.lt_trichotomy e f with hlt | rfl | hgt
  · rw [Int.compare_eq_lt.2 hlt]
    refine (Int.compare_eq_lt.2 ?_).symm
    omega
  · rw [Int.compare_eq_eq.2 rfl]
    rcases Nat.lt_trichotomy m n with hlt | rfl | hgt
    · rw [Nat.compare_eq_lt.2 hlt]
      refine (Int.compare_eq_lt.2 ?_).symm
      omega
    · rw [Nat.compare_eq_eq.2 rfl, Int.compare_eq_eq.2 rfl]
      rfl
    · rw [Nat.compare_eq_gt.2 hgt]
      refine (Int.compare_eq_gt.2 ?_).symm
      omega
  · rw [Int.compare_eq_gt.2 hgt]
    refine (Int.compare_eq_gt.2 ?_).symm
    omega

/-- Finite floats lie between zero and infinity. -/
theorem Packable.ordinal_pos (hm : Packable m e) : 0 < (e + 1074) * 2 ^ 52 + (m : Int) := by
  obtain ⟨hm, -, he, -, -⟩ := hm
  omega

/-- The place of a finite float is between those of the infinities. -/
theorem Packable.ordinal_within (hm : Packable m e) (s : UnpackedFloat.Sign) :
    -(2047 * 2 ^ 52) < s.apply ((e + 1074) * 2 ^ 52 + m) ∧
      s.apply ((e + 1074) * 2 ^ 52 + m) < 2047 * 2 ^ 52 := by
  obtain ⟨hpos, hm, hleast, hgreatest, -⟩ := hm
  cases s <;> simp only [UnpackedFloat.Sign.apply] <;> omega

end Compare

/-- Below zero the order is reversed. -/
theorem compare_neg_neg (a b : Int) : compare (-a) (-b) = (compare a b).swap := by
  rw [Int.compare_swap]
  rcases Int.lt_trichotomy a b with hlt | rfl | hgt
  · rw [Int.compare_eq_gt.2 hlt, Int.compare_eq_gt]
    omega
  · rw [Int.compare_eq_eq.2 rfl, Int.compare_eq_eq.2 rfl]
  · rw [Int.compare_eq_lt.2 hgt, Int.compare_eq_lt]
    omega

/-- Unpacked floats are compared by their numbers. -/
theorem compare_eq {u v : UnpackedFloat} (hu : IsPackable u) (hv : IsPackable v)
    (hun : u ≠ .notANumber) (hvn : v ≠ .notANumber) :
    u.compare v = some (compare (unpackedOrdinal u) (unpackedOrdinal v)) := by
  have hlt : ∀ {a b : Int}, a < b → some Ordering.lt = some (compare a b) :=
    fun h => congrArg some (Int.compare_eq_lt.2 h).symm
  have hgt : ∀ {a b : Int}, b < a → some Ordering.gt = some (compare a b) :=
    fun h => congrArg some (Int.compare_eq_gt.2 h).symm
  cases u with
  | notANumber => exact absurd rfl hun
  | infinity s =>
    cases v with
    | notANumber => exact absurd rfl hvn
    | infinity t => cases s <;> cases t <;> rfl
    | zero t => cases s <;> rfl
    | finite t n f hn =>
      obtain ⟨habove, hbelow⟩ := Packable.ordinal_within hv t
      cases s with
      | positive => cases t <;> exact hgt hbelow
      | negative => cases t <;> exact hlt habove
  | zero s =>
    cases v with
    | notANumber => exact absurd rfl hvn
    | infinity t => cases t <;> rfl
    | zero t => rfl
    | finite t n f hn =>
      have hpos := Packable.ordinal_pos hv
      cases t with
      | positive => exact hlt hpos
      | negative => exact hgt (Int.neg_neg_of_pos hpos)
  | finite s m e hm =>
    have hpos := Packable.ordinal_pos hu
    cases v with
    | notANumber => exact absurd rfl hvn
    | infinity t =>
      obtain ⟨habove, hbelow⟩ := Packable.ordinal_within hu s
      cases t with
      | positive => cases s <;> exact hlt hbelow
      | negative => cases s <;> exact hgt habove
    | zero t =>
      cases s with
      | positive => exact hgt hpos
      | negative => exact hlt (Int.neg_neg_of_pos hpos)
    | finite t n f hn =>
      have hpos' := Packable.ordinal_pos hv
      cases s with
      | positive =>
        cases t with
        | positive => exact congrArg some (Packable.compare_eq hu hv)
        | negative => exact hgt (Int.lt_trans (Int.neg_neg_of_pos hpos') hpos)
      | negative =>
        cases t with
        | positive => exact hlt (Int.lt_trans (Int.neg_neg_of_pos hpos) hpos')
        | negative =>
          refine congrArg some ?_
          rw [Packable.compare_eq hu hv, ← compare_neg_neg]
          rfl

end Decimal

/-! ## Floats -/

/-- How many floats lie between zero and a float, negative below zero. -/
def ordinal (x : Float) : Int :=
  Decimal.unpackedOrdinal x.toModel.unpack

/-- Floats are ordered as their models are. -/
theorem lt_iff_compare {x y : Float} :
    x < y ↔ x.toModel.unpack.compare y.toModel.unpack = some .lt := by
  show decide (x.toModel.lt y.toModel = true) = true ↔ _
  rw [decide_eq_true_iff]
  exact beq_iff_eq

theorem beq_iff_compare {x y : Float} :
    (x == y) = true ↔ x.toModel.unpack.compare y.toModel.unpack = some .eq := by
  show (x.toModel.unpack.compare y.toModel.unpack == some .eq) = true ↔ _
  exact beq_iff_eq

section Order

variable {x y : Float}

/-- Defined floats are compared by their numbers. -/
theorem compare_unpack (hx : x.isNaN = false) (hy : y.isNaN = false) :
    x.toModel.unpack.compare y.toModel.unpack = some (compare (ordinal x) (ordinal y)) :=
  Decimal.compare_eq (Decimal.isPackable_unpack _) (Decimal.isPackable_unpack _)
    (Decimal.isNaN_eq_false_iff.1 hx) (Decimal.isNaN_eq_false_iff.1 hy)

/-- Defined floats are ordered by their places. -/
theorem lt_iff_ordinal (hx : x.isNaN = false) (hy : y.isNaN = false) :
    x < y ↔ ordinal x < ordinal y := by
  rw [lt_iff_compare, compare_unpack hx hy, Option.some_inj, Int.compare_eq_lt]

theorem beq_iff_ordinal (hx : x.isNaN = false) (hy : y.isNaN = false) :
    (x == y) = true ↔ ordinal x = ordinal y := by
  rw [beq_iff_compare, compare_unpack hx hy, Option.some_inj, Int.compare_eq_eq]

/-- The order of defined floats is the order of their numbers. -/
theorem orderFloats?_eq_some (hx : x.isNaN = false) (hy : y.isNaN = false) :
    orderFloats? x y = some (compare (ordinal x) (ordinal y)) := by
  unfold orderFloats?
  rcases Int.lt_trichotomy (ordinal x) (ordinal y) with hlt | heq | hgt
  · rw [if_pos ((lt_iff_ordinal hx hy).2 hlt), Int.compare_eq_lt.2 hlt]
  · have hnot : ¬ ordinal x < ordinal y := by omega
    have hnot' : ¬ ordinal y < ordinal x := by omega
    rw [if_neg (mt (lt_iff_ordinal hx hy).1 hnot), if_neg (mt (lt_iff_ordinal hy hx).1 hnot'),
      if_pos ((beq_iff_ordinal hx hy).2 heq), Int.compare_eq_eq.2 heq]
  · have hnot : ¬ ordinal x < ordinal y := by omega
    rw [if_neg (mt (lt_iff_ordinal hx hy).1 hnot), if_pos ((lt_iff_ordinal hy hx).2 hgt),
      Int.compare_eq_gt.2 hgt]

/-- An undefined float compares with no float. -/
theorem compare_unpack_eq_none (h : x.isNaN = true ∨ y.isNaN = true) :
    x.toModel.unpack.compare y.toModel.unpack = none := by
  have hundefined : ∀ z : Float, z.isNaN = true → z.toModel.unpack = .notANumber := by
    intro z hz
    by_contra hne
    rw [Decimal.isNaN_eq_false_iff.2 hne] at hz
    cases hz
  rcases h with hx | hy
  · rw [hundefined x hx]
    rfl
  · rw [hundefined y hy]
    cases x.toModel.unpack <;> rfl

/-- Two floats have no order exactly if one of them is undefined. -/
theorem orderFloats?_eq_none_iff :
    orderFloats? x y = none ↔ x.isNaN = true ∨ y.isNaN = true := by
  constructor
  · intro hnone
    by_contra hdefined
    rw [not_or, Bool.not_eq_true, Bool.not_eq_true] at hdefined
    rw [orderFloats?_eq_some hdefined.1 hdefined.2] at hnone
    cases hnone
  · intro h
    have hxy := compare_unpack_eq_none h
    have hyx := compare_unpack_eq_none h.symm
    have hnotlt : ¬ x < y := by simp [lt_iff_compare, hxy]
    have hnotgt : ¬ y < x := by simp [lt_iff_compare, hyx]
    have hne : ¬ (x == y) = true := by simp [beq_iff_compare, hxy]
    rw [orderFloats?, if_neg hnotlt, if_neg hnotgt, if_neg hne]

end Order

end Formulary
