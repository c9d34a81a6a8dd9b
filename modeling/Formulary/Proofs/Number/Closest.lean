import Formulary.Proofs.Number.Nearest
import Mathlib.Tactic.Ring
import Mathlib.Tactic.Zify

/-!
# The float closest to a word

A finite float is a whole number of units of `2 ^ -1074`, the least positive float, and so is an
integer.  Their distance in these units says how close they are.  The bits that rounding keeps
of what it drops tell on which side of half a unit the rest lies, so what is rounded goes to
the closest multiple of a power of two, and of two equally close ones to the even one.  Below
the leading power of two the floats lie closer together, but all of them are further away.

Main definitions:

- `Decimal.units`: a finite float in units of the least positive one.
- `IsNearest`: a finite float that no other one is closer to an integer than.

Main results:

- Theorem `Decimal.two_mul_roundedAt`: how far a rounded number is from the number.
- Theorem `isNearest_nearestFloat`: the nearest float of a word is the closest one.
-/

namespace Formulary
namespace Decimal

open Float.Model Float.Model.UnpackedFloat

/-! ## Half units -/

/-- A shift by one more place. -/
theorem shiftRight_succ (em : ExtendedMantissa) (t : Nat) :
    em >>> (t + 1) = (em >>> t).shiftRightOne :=
  rfl

/-- The bits behind a significand tell on which side of every half unit the number lies. -/
theorem code_shiftRight_iff (n t k : Nat) :
    (code (ExtendedMantissa.ofMantissaAndAccuracy n .exact >>> t) ≤ 2 * k ↔
      2 * n ≤ k * 2 ^ t) ∧
    (2 * k ≤ code (ExtendedMantissa.ofMantissaAndAccuracy n .exact >>> t) ↔
      k * 2 ^ t ≤ 2 * n) := by
  induction t generalizing k with
  | zero =>
    show (4 * n + 0 + 0 ≤ 2 * k ↔ _) ∧ (2 * k ≤ 4 * n + 0 + 0 ↔ _)
    omega
  | succ t ih =>
    -- Half units of the coarser unit are whole units of the finer one.
    have hfiner : k * 2 ^ (t + 1) = 2 * k * 2 ^ t := by ring
    rw [hfiner, ← (ih (2 * k)).1, ← (ih (2 * k)).2, shiftRight_succ, code_shiftRightOne]
    omega

/-- Rounding moves a number by at most half a unit, and by half a unit only to an even one. -/
theorem code_roundedMantissa (em : ExtendedMantissa) :
    4 * em.roundedMantissa ≤ code em + 2 ∧ code em ≤ 4 * em.roundedMantissa + 2 ∧
      (code em = 4 * em.roundedMantissa + 2 ∨ code em + 2 = 4 * em.roundedMantissa →
        em.roundedMantissa % 2 = 0) := by
  obtain ⟨m, round, sticky⟩ := em
  cases round <;> cases sticky <;>
    simp only [code, Bool.toNat_true, Bool.toNat_false, ExtendedMantissa.roundedMantissa,
      ExtendedMantissa.accuracy, Accuracy.roundToNearestEven] <;> omega

/-- A rounded number is at most half a unit away, and half a unit only if it is even. -/
theorem two_mul_roundedAt (n t : Nat) :
    2 * (roundedAt n t * 2 ^ t) ≤ 2 * n + 2 ^ t ∧ 2 * n ≤ 2 * (roundedAt n t * 2 ^ t) + 2 ^ t ∧
      (2 * (roundedAt n t * 2 ^ t) = 2 * n + 2 ^ t ∨
          2 * n = 2 * (roundedAt n t * 2 ^ t) + 2 ^ t →
        roundedAt n t % 2 = 0) := by
  have hunit : 0 < 2 ^ t := Nat.two_pow_pos t
  obtain ⟨hlow, hhigh, heven⟩ :=
    code_roundedMantissa (ExtendedMantissa.ofMantissaAndAccuracy n .exact >>> t)
  change 4 * roundedAt n t ≤ _ at hlow
  change _ ≤ 4 * roundedAt n t + 2 at hhigh
  change (_ = 4 * roundedAt n t + 2 ∨ _ = 4 * roundedAt n t → roundedAt n t % 2 = 0) at heven
  generalize roundedAt n t = r at hlow hhigh heven ⊢
  -- The half units on both sides of the rounded number.
  have habove : (2 * r + 1) * 2 ^ t = 2 * (r * 2 ^ t) + 2 ^ t := by ring
  have hcode := code_shiftRight_iff n t (2 * r + 1)
  rw [habove] at hcode
  cases r with
  | zero => omega
  | succ r =>
    have hbelow : (2 * r + 1) * 2 ^ t + 2 ^ t = 2 * ((r + 1) * 2 ^ t) := by ring
    have hcode' := code_shiftRight_iff n t (2 * r + 1)
    omega

/-! ## Units -/

/-- One in units of the least positive float. -/
def unitsOfOne : Nat :=
  2 ^ 1074

/-- A finite float in units of the least positive one. -/
def units : UnpackedFloat → Int
  | .finite s m e _ => s.apply (m * 2 ^ (e + 1074).toNat)
  | _ => 0

/-- A finite float is a whole number of least units. -/
theorem units_finite (s : Sign) (m : Nat) (e : Int) (hm : 0 < m) :
    units (.finite s m e hm) = s.apply (m * 2 ^ (e + 1074).toNat) :=
  rfl

/-- The significand of a float, zero for the zeros. -/
def mantissa : UnpackedFloat → Nat
  | .finite _ m _ _ => m
  | _ => 0

/-- A float is a multiple of a power of two, or lies below the numbers that have fifty-three
bits before it. -/
theorem units_cases {u : UnpackedFloat} (hu : IsPackable u) (k : Nat) :
    (∃ q : Int, units u = q * 2 ^ k) ∨ (units u).natAbs < 2 ^ 52 * 2 ^ k := by
  cases u with
  | finite s m e hm =>
    have hlt : m < 2 ^ 53 := hu.lt
    by_cases hk : k ≤ (e + 1074).toNat
    · left
      obtain ⟨d, hd⟩ := Nat.exists_eq_add_of_le hk
      refine ⟨s.apply (m * 2 ^ d), ?_⟩
      rw [units_finite, hd]
      cases s <;> simp only [Sign.apply] <;> ring
    · right
      have hk' : (e + 1074).toNat + 1 ≤ k := by omega
      rw [units_finite]
      calc (s.apply (m * 2 ^ (e + 1074).toNat)).natAbs = m * 2 ^ (e + 1074).toNat := by
            cases s <;> simp [Sign.apply, Int.natAbs_mul, Int.natAbs_pow]
        _ < 2 ^ 53 * 2 ^ (e + 1074).toNat := Nat.mul_lt_mul_of_pos_right hlt (Nat.two_pow_pos _)
        _ = 2 ^ 52 * 2 ^ ((e + 1074).toNat + 1) := by ring
        _ ≤ 2 ^ 52 * 2 ^ k := Nat.mul_le_mul_left _ (Nat.pow_le_pow_right Nat.two_pos hk')
  | _ => exact .inr (Nat.mul_pos (Nat.two_pow_pos _) (Nat.two_pow_pos _))

/-- A float on the side of a sign is a multiple of a power of two, or lies below. -/
theorem apply_units_cases {u : UnpackedFloat} (hu : IsPackable u) (s : Sign) (k : Nat) :
    (∃ q : Int, s.apply (units u) = q * 2 ^ k) ∨ s.apply (units u) < 2 ^ 52 * 2 ^ k := by
  rcases units_cases hu k with ⟨q, hq⟩ | hbelow
  · refine .inl ⟨s.apply q, ?_⟩
    cases s with
    | positive => exact hq
    | negative => rw [hq, Sign.apply, Sign.apply, Int.neg_mul]
  · right
    zify at hbelow
    cases s with
    | positive => exact Int.lt_of_le_of_lt (le_abs_self _) hbelow
    | negative => exact Int.lt_of_le_of_lt (neg_le_abs _) hbelow

/-- A number to which fifty-three bits are kept is at most half a unit away from them. -/
theorem two_mul_significand (n : Nat) :
    let k := n.log2 + 1022
    2 * (significand n * 2 ^ k) ≤ 2 * (n * unitsOfOne) + 2 ^ k ∧
      2 * (n * unitsOfOne) ≤ 2 * (significand n * 2 ^ k) + 2 ^ k ∧
      (2 * (significand n * 2 ^ k) = 2 * (n * unitsOfOne) + 2 ^ k ∨
          2 * (n * unitsOfOne) = 2 * (significand n * 2 ^ k) + 2 ^ k →
        significand n % 2 = 0) := by
  intro k
  -- The factor that the number and the unit that is kept of it have in common.
  obtain ⟨j, hj⟩ : ∃ j, j = min n.log2 52 + 1022 := ⟨_, rfl⟩
  have hk : 2 ^ k = 2 ^ (n.log2 - 52) * 2 ^ j := by
    have hsum : k = n.log2 - 52 + j := by omega
    rw [hsum, Nat.pow_add]
  have hone : n * unitsOfOne = n * 2 ^ (52 - n.log2) * 2 ^ j := by
    have hsum : 1074 = 52 - n.log2 + j := by omega
    rw [unitsOfOne, hsum, Nat.pow_add, Nat.mul_assoc]
  obtain ⟨hlow, hhigh, heven⟩ := two_mul_roundedAt (n * 2 ^ (52 - n.log2)) (n.log2 - 52)
  rw [hk, hone, significand]
  generalize roundedAt _ _ = r at hlow hhigh heven ⊢
  generalize n * 2 ^ (52 - n.log2) = a at hlow hhigh heven ⊢
  generalize 2 ^ (n.log2 - 52) = u at hlow hhigh heven ⊢
  have hleft : 2 * (r * (u * 2 ^ j)) = 2 * (r * u) * 2 ^ j := by ring
  have hright : 2 * (a * 2 ^ j) + u * 2 ^ j = (2 * a + u) * 2 ^ j := by ring
  have hleft' : 2 * (a * 2 ^ j) = 2 * a * 2 ^ j := by ring
  have hright' : 2 * (r * (u * 2 ^ j)) + u * 2 ^ j = (2 * (r * u) + u) * 2 ^ j := by ring
  rw [hright, hright', hleft, hleft']
  have hpos : 0 < 2 ^ j := Nat.two_pow_pos j
  refine ⟨Nat.mul_le_mul_right _ hlow, Nat.mul_le_mul_right _ hhigh, fun htie => heven ?_⟩
  exact htie.imp (Nat.eq_of_mul_eq_mul_right hpos) (Nat.eq_of_mul_eq_mul_right hpos)

/-- No multiple of a unit is closer to a number than one that is at most half a unit away, and
only an even one leaves another multiple as close. -/
theorem closest_multiple {n r u : Nat} (hlow : 2 * (r * u) ≤ 2 * n + u)
    (hhigh : 2 * n ≤ 2 * (r * u) + u)
    (heven : 2 * (r * u) = 2 * n + u ∨ 2 * n = 2 * (r * u) + u → r % 2 = 0) (q : Int) :
    (r * u - n : Int).natAbs ≤ (q * u - n).natAbs ∧
      ((q * u - n).natAbs = (r * u - n : Int).natAbs → q * u ≠ r * u → r % 2 = 0) := by
  zify at hlow hhigh heven
  rcases Int.lt_trichotomy q r with hlt | rfl | hgt
  · have hbelow : (q + 1) * u ≤ r * u := Int.mul_le_mul_of_nonneg_right hlt (Int.natCast_nonneg u)
    rw [Int.add_mul, Int.one_mul] at hbelow
    omega
  · exact ⟨Nat.le_refl _, fun _ hne => absurd rfl hne⟩
  · have habove : (r + 1 : Int) * u ≤ q * u :=
      Int.mul_le_mul_of_nonneg_right hgt (Int.natCast_nonneg u)
    rw [Int.add_mul, Int.one_mul] at habove
    omega

/-- No float is closer to a number than what the number is rounded to, and only an even one
leaves another float as close. -/
theorem significand_closest {n : Nat} (hn : n ≠ 0) {z : Int}
    (hz : (∃ q : Int, z = q * 2 ^ (n.log2 + 1022)) ∨ z < 2 ^ 52 * 2 ^ (n.log2 + 1022)) :
    let r : Int := significand n * 2 ^ (n.log2 + 1022)
    (r - n * unitsOfOne).natAbs ≤ (z - n * unitsOfOne).natAbs ∧
      ((z - n * unitsOfOne).natAbs = (r - n * unitsOfOne).natAbs → z ≠ r →
        significand n % 2 = 0) := by
  intro r
  obtain ⟨hlow, hhigh, heven⟩ := two_mul_significand n
  have hclosest := closest_multiple hlow hhigh heven
  push_cast at hclosest
  rcases hz with ⟨q, rfl⟩ | hbelow
  · exact hclosest q
  · -- The leading power of two is a multiple of the unit, and it lies between the two numbers.
    have hleading : 2 ^ 52 * 2 ^ (n.log2 + 1022) ≤ n * unitsOfOne := by
      have hsum : 52 + (n.log2 + 1022) = n.log2 + 1074 := by omega
      calc 2 ^ 52 * 2 ^ (n.log2 + 1022) = 2 ^ n.log2 * unitsOfOne := by
            rw [unitsOfOne, ← Nat.pow_add, ← Nat.pow_add, hsum]
        _ ≤ n * unitsOfOne := Nat.mul_le_mul_right _ (Nat.log2_self_le hn)
    zify at hleading
    have hfar := (hclosest (2 ^ 52)).1
    omega

/-- Rounding a number with a sign gives its significand in its units. -/
theorem units_round (s : Sign) {n : Nat} (hn : n ≠ 0) (hsize : n < 2 ^ 64) :
    ∃ m e hm, UnpackedFloat.unpack .binary64
        (UnpackedFloat.pack .binary64 (UnpackedFloat.round .binary64 s n 0)) = .finite s m e hm ∧
      m * 2 ^ (e + 1074).toNat = significand n * 2 ^ (n.log2 + 1022) ∧
      (significand n % 2 = 0 → m % 2 = 0) := by
  have hlog : n.log2 < 64 := (Nat.log2_lt hn).2 hsize
  obtain ⟨m, e, hm, hround, hordinal⟩ := unpack_pack_round s (e := 0) hn (by omega) (by omega)
  obtain ⟨hlow, hhigh⟩ := significand_bounds hn
  have hpackable : Packable m e := by
    have h := isPackable_unpack
      (UnpackedFloat.pack .binary64 (UnpackedFloat.round .binary64 s n 0))
    rwa [hround] at h
  have hlt : m < 2 ^ 53 := hpackable.lt
  have hnormal : 2 ^ 52 ≤ m := by
    rcases hpackable.normal with rfl | hnormal
    · omega
    · exact hnormal
  refine ⟨m, e, hm, hround, ?_, ?_⟩
  · rcases Nat.lt_or_eq_of_le hhigh with hlt' | heq
    · have hexponent : (e + 1074).toNat = n.log2 + 1022 := by omega
      have hm' : m = significand n := by omega
      rw [hexponent, hm']
    · -- Fifty-four bits are left, and the last one is dropped.
      have hexponent : (e + 1074).toNat = n.log2 + 1022 + 1 := by omega
      have hm' : m = 2 ^ 52 := by omega
      rw [hexponent, hm', heq]
      generalize n.log2 + 1022 = k
      ring
  · omega

end Decimal

open Decimal Float.Model

/-! ## Floats -/

/-- How far a finite float is from an integer, in units of the least positive float. -/
def distance (n : Int) (x : Float) : Nat :=
  (units x.toModel.unpack - n * unitsOfOne).natAbs

/-- A finite float that no other one is closer to an integer than, and whose significand is even
if another one is as close. -/
structure IsNearest (n : Int) (x : Float) : Prop where
  finite : x.isFinite = true
  closest : ∀ y : Float, y.isFinite = true → distance n x ≤ distance n y
  even : ∀ y : Float, y.isFinite = true → distance n y = distance n x →
    units y.toModel.unpack ≠ units x.toModel.unpack → mantissa x.toModel.unpack % 2 = 0

theorem apply_apply (s : UnpackedFloat.Sign) (a : Int) : s.apply (s.apply a) = a := by
  cases s with
  | positive => rfl
  | negative => exact Int.neg_neg a

/-- On the side of its sign an integer is as far from a float as its absolute value. -/
theorem distance_eq {n : Int} {s : UnpackedFloat.Sign} (hs : n = s.apply n.natAbs) (x : Float) :
    distance n x = (s.apply (units x.toModel.unpack) - n.natAbs * unitsOfOne).natAbs := by
  have hunits : n * unitsOfOne = s.apply (n.natAbs * unitsOfOne) := by
    calc n * (unitsOfOne : Int) = s.apply n.natAbs * unitsOfOne :=
          congrArg (fun a : Int => a * unitsOfOne) hs
      _ = s.apply (n.natAbs * unitsOfOne) := by
        cases s with
        | positive => rfl
        | negative => exact Int.neg_mul _ _
  rw [distance, hunits]
  cases s with
  | positive => rfl
  | negative =>
    simp only [UnpackedFloat.Sign.apply]
    omega

/-- What the absolute value of an integer is rounded to is the float nearest to it. -/
theorem isNearest_of_round {n : Int} {s : UnpackedFloat.Sign} (hn : n ≠ 0)
    (h : n.natAbs < 2 ^ 64) (hs : n = s.apply n.natAbs)
    (hround : UnpackedFloat.ofInt .binary64 n = UnpackedFloat.round .binary64 s n.natAbs 0) :
    IsNearest n (.ofModel (.ofInt n)) := by
  have habs : n.natAbs ≠ 0 := Int.natAbs_ne_zero.2 hn
  obtain ⟨m, e, hm, hunpack, hunits, heven⟩ := units_round s habs h
  rw [← hround] at hunpack
  change (Float.ofModel (.ofInt n)).toModel.unpack = _ at hunpack
  generalize Float.ofModel (.ofInt n) = x at hunpack ⊢
  have hx : s.apply (units x.toModel.unpack) =
      significand n.natAbs * 2 ^ (n.natAbs.log2 + 1022) := by
    rw [hunpack, units_finite, apply_apply]
    exact_mod_cast hunits
  have hclosest : ∀ y : Float, distance n x ≤ distance n y ∧
      (distance n y = distance n x → units y.toModel.unpack ≠ units x.toModel.unpack →
        significand n.natAbs % 2 = 0) := by
    intro y
    have hpackable : IsPackable y.toModel.unpack := isPackable_unpack _
    have hy := significand_closest habs
      (apply_units_cases hpackable s (n.natAbs.log2 + 1022))
    rw [distance_eq hs, distance_eq hs, hx]
    refine ⟨hy.1, fun htie hne => hy.2 htie fun heq => hne ?_⟩
    rw [← apply_apply s (units y.toModel.unpack), heq, ← hx, apply_apply]
  refine ⟨?_, fun y _ => (hclosest y).1, fun y _ htie hne => ?_⟩
  · show x.toModel.unpack.isFinite = true
    rw [hunpack]
    rfl
  · rw [hunpack]
    exact heven ((hclosest y).2 htie hne)

/-- The nearest float of a word is the float nearest to it. -/
theorem isNearest_nearestFloat (w : Int64) : IsNearest w.toInt (nearestFloat w) := by
  show IsNearest w.toInt (.ofModel (.ofInt w.toInt))
  by_cases hw : w.toInt = 0
  · rw [hw]
    have hunpack : (Float.ofModel (.ofInt 0)).toModel.unpack = .zero .positive := rfl
    have hdistance : distance 0 (.ofModel (.ofInt 0)) = 0 := by
      rw [distance, hunpack, Int.zero_mul]
      rfl
    refine ⟨rfl, fun y _ => ?_, fun y _ _ _ => ?_⟩
    · rw [hdistance]
      exact Nat.zero_le _
    · rw [hunpack]
      rfl
  · have hlow : -2 ^ 63 ≤ w.toInt := Int64.le_toInt w
    have hhigh : w.toInt < 2 ^ 63 := Int64.toInt_lt w
    obtain ⟨s, hs, hround⟩ := ofInt_eq_round hw
    exact isNearest_of_round hw (by omega) hs hround

end Formulary
