import Formulary.Proofs.Number.Ordinal

/-!
# Words among floats

Rounding drops bits of a significand one by one and keeps two bits of what was dropped.  A
significand and these two bits, read as one number, never get out of order when a bit is
dropped, and neither when the significand is rounded in the end.  So a greater word is never
next to a lower float, although two words may be next to one float.

Main definitions:

- `Decimal.code`: a significand and the two bits behind it as one number.
- `Decimal.roundedAt`: a number rounded to a multiple of a power of two.
- `Decimal.integerOrdinal`: the ordinal of the float nearest to an integer.

Main results:

- Theorem `Decimal.round_eq`: what rounding gives is a float, and its ordinal.
- Theorem `isNaN_nearestFloat`: the nearest float of a word is defined.
- Theorem `ordinal_nearestFloat_mono`: the nearest floats of words are in the order of the words.
-/

namespace Formulary
namespace Decimal

open Float.Model Float.Model.UnpackedFloat

/-! ## Dropping bits -/

/-- A significand and the two bits behind it as one number. -/
def code (em : ExtendedMantissa) : Nat :=
  4 * em.mantissa + 2 * em.roundBit.toNat + em.stickyBit.toNat

/-- A shift by one place halves a number and keeps track of what is lost. -/
theorem code_shiftRightOne (em : ExtendedMantissa) :
    code em.shiftRightOne = 2 * (code em / 4) + min 1 (code em % 4) := by
  obtain ⟨m, round, sticky⟩ := em
  have hbit : ((m % 2 != 0) : Bool).toNat = m % 2 := by
    rcases Nat.mod_two_eq_zero_or_one m with h | h <;> rw [h] <;> rfl
  simp only [code, ExtendedMantissa.shiftRightOne, hbit]
  cases round <;> cases sticky <;> simp only [Bool.toNat_true, Bool.toNat_false, Bool.or_false,
    Bool.or_true] <;>
    omega

/-- Dropping a bit keeps the order. -/
theorem code_shiftRightOne_mono {a b : ExtendedMantissa} (h : code a ≤ code b) :
    code a.shiftRightOne ≤ code b.shiftRightOne := by
  rw [code_shiftRightOne, code_shiftRightOne]
  omega

/-- Shifts keep the order. -/
theorem code_shiftRight_mono {a b : ExtendedMantissa} (h : code a ≤ code b) (t : Nat) :
    code (a >>> t) ≤ code (b >>> t) := by
  induction t with
  | zero => exact h
  | succ t ih => exact code_shiftRightOne_mono ih

/-- Rounding to the even neighbour keeps the order. -/
theorem roundedMantissa_mono {a b : ExtendedMantissa} (h : code a ≤ code b) :
    a.roundedMantissa ≤ b.roundedMantissa := by
  obtain ⟨m, round, sticky⟩ := a
  obtain ⟨n, round', sticky'⟩ := b
  simp only [code] at h
  cases round <;> cases sticky <;> cases round' <;> cases sticky' <;>
    simp only [Bool.toNat_true, Bool.toNat_false, ExtendedMantissa.roundedMantissa,
      ExtendedMantissa.accuracy, Accuracy.roundToNearestEven] at h ⊢ <;> omega

/-- A number in units of `2 ^ t`, rounded to the nearest one. -/
def roundedAt (n t : Nat) : Nat :=
  (ExtendedMantissa.ofMantissaAndAccuracy n .exact >>> t).roundedMantissa

theorem roundedAt_mono {n n' : Nat} (h : n ≤ n') (t : Nat) : roundedAt n t ≤ roundedAt n' t := by
  apply roundedMantissa_mono
  apply code_shiftRight_mono
  exact Nat.mul_le_mul_left 4 h

/-- Nothing is lost of a number that ends in zeros. -/
theorem shiftRight_mul (m t : Nat) :
    ExtendedMantissa.ofMantissaAndAccuracy (m * 2 ^ t) .exact >>> t = ⟨m, false, false⟩ := by
  induction t generalizing m with
  | zero => rw [Nat.pow_zero, Nat.mul_one]; rfl
  | succ t ih =>
    have hdouble : m * 2 ^ (t + 1) = 2 * m * 2 ^ t := by rw [Nat.pow_succ]; ac_rfl
    have hstep := ih (2 * m)
    rw [← hdouble] at hstep
    show ExtendedMantissa.shiftRightOne
      (ExtendedMantissa.ofMantissaAndAccuracy (m * 2 ^ (t + 1)) .exact >>> t) = _
    rw [hstep]
    simp [ExtendedMantissa.shiftRightOne]

/-- A number without digits below a place is not rounded there. -/
theorem roundedAt_mul (m t : Nat) : roundedAt (m * 2 ^ t) t = m := by
  rw [roundedAt, shiftRight_mul]
  rfl

/-- Rounding away all but fifty-three bits leaves fifty-three bits, or the next power of two. -/
theorem roundedAt_bounds {n t : Nat} (hlow : 2 ^ 52 * 2 ^ t ≤ n) (hhigh : n ≤ 2 ^ 53 * 2 ^ t) :
    2 ^ 52 ≤ roundedAt n t ∧ roundedAt n t ≤ 2 ^ 53 := by
  have hlow := roundedAt_mono hlow t
  have hhigh := roundedAt_mono hhigh t
  rw [roundedAt_mul] at hlow hhigh
  exact ⟨hlow, hhigh⟩

/-! ## Rounding to a float -/

/-- The fifty-three bits to which a number is rounded. -/
def significand (n : Nat) : Nat :=
  roundedAt (n * 2 ^ (52 - n.log2)) (n.log2 - 52)

/-- A significand has fifty-three bits, or is the next power of two. -/
theorem significand_bounds {n : Nat} (h : n ≠ 0) :
    2 ^ 52 ≤ significand n ∧ significand n ≤ 2 ^ 53 := by
  have hlow : 2 ^ n.log2 ≤ n := Nat.log2_self_le h
  have hhigh : n < 2 ^ (n.log2 + 1) := Nat.lt_log2_self
  have hsum : 52 + (n.log2 - 52) = n.log2 + (52 - n.log2) := by omega
  apply roundedAt_bounds
  · calc 2 ^ 52 * 2 ^ (n.log2 - 52) = 2 ^ n.log2 * 2 ^ (52 - n.log2) := by
          rw [← Nat.pow_add, ← Nat.pow_add, hsum]
      _ ≤ n * 2 ^ (52 - n.log2) := Nat.mul_le_mul_right _ hlow
  · calc n * 2 ^ (52 - n.log2) ≤ 2 ^ (n.log2 + 1) * 2 ^ (52 - n.log2) :=
          Nat.mul_le_mul_right _ (Nat.le_of_lt hhigh)
      _ = 2 ^ 53 * 2 ^ (n.log2 - 52) := by
          rw [← Nat.pow_add, ← Nat.pow_add]
          congr 1
          omega

/-- The exponent that leaves fifty-three bits, or the least one. -/
theorem targetExponent_eq (n : Nat) (e : Int) :
    Format.binary64.targetExponent (totalExponent n e) = max (n.log2 + e - 52) (-1074) := by
  have hbits : Format.binary64.targetExponent (totalExponent n e) =
      max (n.log2 + 1 + e - 53) (-1074) := rfl
  rw [hbits]
  omega

/-- A number is shifted to its target exponent. -/
theorem shiftToTargetExponent_eq {n t : Nat} {e E : Int}
    (htarget : max (n.log2 + e - 52) (-1074) = E) (hplace : e + t = E) :
    shiftToTargetExponent .binary64 n e .exact =
      (ExtendedMantissa.ofMantissaAndAccuracy n .exact >>> t, E) := by
  have hshift : (E - e).toNat = t := by omega
  unfold shiftToTargetExponent shiftToExponent
  simp only [targetExponent_eq, htarget, hshift, hplace]

/-- A rounded significand takes its place among the fifty-three bits; the next power of two
moves to the next exponent. -/
theorem roundWithAccuracy_eq (s : Sign) {n t : Nat} {e E : Int}
    (htarget : max (n.log2 + e - 52) (-1074) = E) (hplace : e + t = E)
    (hgreatest : E ≤ 970) (hbounds : 2 ^ 52 ≤ roundedAt n t ∧ roundedAt n t ≤ 2 ^ 53) :
    ∃ m e' hm, roundWithAccuracy .binary64 s n e .exact = .finite s m e' hm ∧
      Packable m e' ∧ 2 ^ 52 ≤ m ∧
      (e' + 1074) * 2 ^ 52 + (m : Int) = (E + 1074) * 2 ^ 52 + roundedAt n t := by
  have hround : ∀ {r : Nat} {m : ExtendedMantissa} {e' : Int}, roundedAt n t = r →
      shiftToTargetExponent .binary64 r E .exact = (m, e') → ∀ hm : m.mantissa ≠ 0,
      roundWithAccuracy .binary64 s n e .exact =
        .finite s m.mantissa e' (Nat.pos_of_ne_zero hm) := by
    rintro r m e' rfl hagain hm
    unfold roundWithAccuracy
    rw [shiftToTargetExponent_eq htarget hplace]
    have hrounded : (ExtendedMantissa.ofMantissaAndAccuracy n .exact >>> t).roundedMantissa =
        roundedAt n t := rfl
    dsimp only
    rw [hrounded, hagain]
    exact dif_neg hm
  obtain ⟨hlow, hhigh⟩ := hbounds
  rcases Nat.lt_or_eq_of_le hhigh with hlt | heq
  · have hlog : (roundedAt n t).log2 = 52 := by
      rw [Nat.log2_eq_iff (by omega)]
      exact ⟨hlow, hlt⟩
    have hagain : shiftToTargetExponent .binary64 (roundedAt n t) E .exact = (_, E) :=
      shiftToTargetExponent_eq (t := 0) (by omega) (by omega)
    have hpos : 0 < roundedAt n t := by omega
    refine ⟨roundedAt n t, E, hpos, hround rfl hagain (Nat.ne_of_gt hpos), ?_, hlow, rfl⟩
    exact ⟨hpos, hlt, by omega, by omega, .inr hlow⟩
  · have hlog : (2 ^ 53 : Nat).log2 = 53 := Nat.log2_two_pow
    have hagain : shiftToTargetExponent .binary64 (2 ^ 53) E .exact = (_, E + 1) :=
      shiftToTargetExponent_eq (t := 1) (by omega) (by omega)
    have hhalf : ExtendedMantissa.ofMantissaAndAccuracy (2 ^ 53) .exact >>> 1 =
        ⟨2 ^ 52, false, false⟩ := rfl
    rw [hhalf] at hagain
    refine ⟨2 ^ 52, E + 1, by decide, hround heq hagain (by decide), ?_, Nat.le_refl _, ?_⟩
    · exact ⟨by decide, by decide, by omega, by omega, .inr (Nat.le_refl _)⟩
    · rw [heq]
      omega

/-- A number that is not zero is rounded to a float, whose ordinal has the exponent of the
number and its fifty-three bits. -/
theorem round_eq (s : Sign) {n : Nat} {e : Int} (hn : n ≠ 0) (hleast : -1022 ≤ n.log2 + e)
    (hgreatest : n.log2 + e ≤ 1022) :
    ∃ m e' hm, UnpackedFloat.round .binary64 s n e = .finite s m e' hm ∧ Packable m e' ∧
      2 ^ 52 ≤ m ∧
      (e' + 1074) * 2 ^ 52 + (m : Int) = (n.log2 + e + 1022) * 2 ^ 52 + significand n := by
  have htarget : max (n.log2 + e - 52) (-1074) = n.log2 + e - 52 := by omega
  have hshift : (e - (n.log2 + e - 52)).toNat = 52 - n.log2 := by omega
  have hlog : (n * 2 ^ (52 - n.log2)).log2 = n.log2 + (52 - n.log2) := by
    have hpos : 0 < 2 ^ (52 - n.log2) := Nat.two_pow_pos _
    rw [Nat.log2_eq_iff (Nat.mul_ne_zero hn (Nat.ne_of_gt hpos)), Nat.pow_add,
      Nat.add_right_comm, Nat.pow_add]
    exact ⟨Nat.mul_le_mul_right _ (Nat.log2_self_le hn),
      Nat.mul_lt_mul_of_pos_right Nat.lt_log2_self hpos⟩
  have hround : UnpackedFloat.round .binary64 s n e = roundWithAccuracy .binary64 s
      (n * 2 ^ (52 - n.log2)) (e - (52 - n.log2 : Nat)) .exact := by
    unfold UnpackedFloat.round decreaseExponent
    simp only [targetExponent_eq, htarget, hshift, Nat.shiftLeft_eq]
  rw [hround]
  obtain ⟨m, e', hm, heq, hpackable, hnormal, hordinal⟩ := roundWithAccuracy_eq s
    (n := n * 2 ^ (52 - n.log2)) (t := n.log2 - 52) (e := e - (52 - n.log2 : Nat))
    (E := n.log2 + e - 52) (by rw [hlog]; omega) (by omega) (by omega) (significand_bounds hn)
  refine ⟨m, e', hm, heq, hpackable, hnormal, ?_⟩
  rw [hordinal, significand]
  omega

/-- The sign of a packed float. -/
@[simp]
theorem unpackSign_packComponents {s : Sign} {e : BitVec 11} {m : BitVec 52} :
    Sign.ofBitVec (unpackSign (packComponents .binary64 s e m)) = s := by
  have hsign : unpackSign (packComponents .binary64 s e m) = s.toBitVec := by
    ext i hi
    obtain rfl : i = 0 := by omega
    calc (unpackSign (packComponents .binary64 s e m))[0]
        = (BitVec.extractLsb 63 63 (packComponents .binary64 s e m))[0] := rfl
      _ = (packComponents .binary64 s e m).getLsbD 63 := by simp
      _ = s.toBitVec[0] := by
        unfold packComponents
        rw [BitVec.getLsbD_append, BitVec.getLsbD_append]
        rfl
  rw [hsign]
  cases s <;> rfl

theorem finite_congr {s s' : Sign} {m m' : Nat} {e e' : Int} {hm : 0 < m} {hm' : 0 < m'}
    (hs : s = s') (h : m = m') (he : e = e') :
    UnpackedFloat.finite s m e hm = .finite s' m' e' hm' := by
  subst hs h he
  rfl

/-- Unpacking bits whose exponent is neither the least nor the greatest one. -/
theorem unpack_normal {b : BitVec Format.binary64.numBits} (hones : unpackExponent b ≠ -1#11)
    (hzero : unpackExponent b ≠ 0#11) :
    ∃ hpos, UnpackedFloat.unpack .binary64 b =
      .finite (.ofBitVec (unpackSign b)) (1#1 ++ unpackMantissa b).toNat
        ((unpackExponent b).toNat - (Format.binary64.exponentBias + (52 : Nat))) hpos := by
  have hpos : 0 < (1#1 ++ unpackMantissa b).toNat := by
    rw [toNat_implicit]
    exact Nat.add_pos_left (Nat.two_pow_pos 52) _
  refine ⟨hpos, ?_⟩
  unfold UnpackedFloat.unpack
  dsimp only
  rw [if_neg hones, if_neg hzero]

/-- Packing keeps floats of fifty-three bits. -/
theorem unpack_pack {s : Sign} {m : Nat} {e : Int} (hm : 0 < m) (h : Packable m e)
    (hnormal : 2 ^ 52 ≤ m) :
    UnpackedFloat.unpack .binary64 (UnpackedFloat.pack .binary64 (.finite s m e hm)) =
      .finite s m e hm := by
  obtain ⟨-, hlt, hleast, hgreatest, -⟩ := h
  have hlog : m.log2 = 52 := by
    rw [Nat.log2_eq_iff (by omega)]
    exact ⟨hnormal, hlt⟩
  have hbiased : (e + Format.binary64.exponentBias + (52 : Nat)).toNat = (e + 1075).toNat := by
    have hbias : (Format.binary64.exponentBias : Int) = 1023 := rfl
    omega
  have hexponent : (BitVec.ofNat 11 (e + 1075).toNat).toNat = (e + 1075).toNat := by
    rw [BitVec.toNat_ofNat, Nat.mod_eq_of_lt (by omega)]
  have hpack : UnpackedFloat.pack .binary64 (.finite s m e hm) =
      packComponents .binary64 s (BitVec.ofNat 11 (e + 1075).toNat) (BitVec.ofNat 52 m) := by
    unfold UnpackedFloat.pack
    dsimp only
    rw [hbiased, if_neg (by omega), if_pos (by rw [hlog]; rfl)]
  have hones : BitVec.ofNat 11 (e + 1075).toNat ≠ -1#11 := by
    intro h
    have hnat : (-1#11).toNat = 2047 := rfl
    rw [h, hnat] at hexponent
    omega
  have hzero : BitVec.ofNat 11 (e + 1075).toNat ≠ 0#11 := by
    intro h
    have hnat : (0#11).toNat = 0 := rfl
    rw [h, hnat] at hexponent
    omega
  have himplicit : (1#1 ++ BitVec.ofNat 52 m).toNat = m := by
    rw [toNat_implicit, BitVec.toNat_ofNat]
    omega
  have hunbiased : ((e + 1075).toNat : Int) - (Format.binary64.exponentBias + (52 : Nat)) = e := by
    have hbias : (Format.binary64.exponentBias : Int) = 1023 := rfl
    omega
  obtain ⟨hpos, hunpack⟩ := unpack_normal
    (b := packComponents .binary64 s (BitVec.ofNat 11 (e + 1075).toNat) (BitVec.ofNat 52 m))
    (by rwa [unpackExponent_packComponents]) (by rwa [unpackExponent_packComponents])
  rw [hpack, hunpack]
  refine finite_congr unpackSign_packComponents ?_ ?_
  · rw [unpackMantissa_packComponents, himplicit]
  · rw [unpackExponent_packComponents, hexponent, hunbiased]

/-- Packing keeps what a number that is not zero is rounded to. -/
theorem unpack_pack_round (s : Sign) {n : Nat} {e : Int} (hn : n ≠ 0)
    (hleast : -1022 ≤ n.log2 + e) (hgreatest : n.log2 + e ≤ 1022) :
    ∃ m e' hm, UnpackedFloat.unpack .binary64
        (UnpackedFloat.pack .binary64 (UnpackedFloat.round .binary64 s n e)) = .finite s m e' hm ∧
      (e' + 1074) * 2 ^ 52 + (m : Int) = (n.log2 + e + 1022) * 2 ^ 52 + significand n := by
  obtain ⟨m, e', hm, hround, hpackable, hnormal, hordinal⟩ := round_eq s hn hleast hgreatest
  refine ⟨m, e', hm, ?_, hordinal⟩
  rw [hround, unpack_pack hm hpackable hnormal]

/-! ## Integers -/

/-- The ordinal of the float nearest to a natural number that is not zero. -/
def naturalOrdinal (n : Nat) : Int :=
  (n.log2 + 1022) * 2 ^ 52 + significand n

theorem naturalOrdinal_pos {n : Nat} (h : n ≠ 0) : 0 < naturalOrdinal n := by
  have hlow := (significand_bounds h).1
  unfold naturalOrdinal
  omega

/-- The ordinals of natural numbers are in the order of the numbers. -/
theorem naturalOrdinal_mono {n n' : Nat} (hn : n ≠ 0) (h : n ≤ n') :
    naturalOrdinal n ≤ naturalOrdinal n' := by
  have hn' : n' ≠ 0 := by omega
  have hlog : n.log2 ≤ n'.log2 := (Nat.le_log2 hn').2 (Nat.le_trans (Nat.log2_self_le hn) h)
  unfold naturalOrdinal
  rcases Nat.lt_or_eq_of_le hlog with hlt | heq
  · -- The next power of two lies between the two numbers.
    have hhigh := (significand_bounds hn).2
    have hlow := (significand_bounds hn').1
    omega
  · have hsignificand : significand n ≤ significand n' := by
      unfold significand
      rw [heq]
      exact roundedAt_mono (Nat.mul_le_mul_right _ h) _
    omega

/-- Rounding a natural number with a sign gives the float with its ordinal. -/
theorem ordinal_round (s : Sign) {n : Nat} (hn : n ≠ 0) (hsize : n < 2 ^ 64) :
    unpackedOrdinal (UnpackedFloat.unpack .binary64
        (UnpackedFloat.pack .binary64 (UnpackedFloat.round .binary64 s n 0))) =
      s.apply (naturalOrdinal n) := by
  have hlog : n.log2 < 64 := (Nat.log2_lt hn).2 hsize
  obtain ⟨m, e, hm, hround, hordinal⟩ := unpack_pack_round s (e := 0) hn (by omega) (by omega)
  rw [hround]
  show s.apply ((e + 1074) * 2 ^ 52 + m) = _
  rw [hordinal, Int.add_zero]
  rfl

/-- The ordinal of the float nearest to an integer. -/
def integerOrdinal (n : Int) : Int :=
  n.sign * naturalOrdinal n.natAbs

/-- Numbers below zero have the places of their absolute values, below zero. -/
theorem integerOrdinal_neg {n : Int} (h : n < 0) :
    integerOrdinal n = -naturalOrdinal n.natAbs := by
  rw [integerOrdinal, Int.sign_eq_neg_one_of_neg h]
  omega

theorem integerOrdinal_zero : integerOrdinal 0 = 0 :=
  Int.zero_mul _

theorem integerOrdinal_pos {n : Int} (h : 0 < n) : integerOrdinal n = naturalOrdinal n.natAbs := by
  rw [integerOrdinal, Int.sign_eq_one_of_pos h]
  omega

/-- The ordinals of integers are in the order of the integers. -/
theorem integerOrdinal_mono {m n : Int} (h : m ≤ n) : integerOrdinal m ≤ integerOrdinal n := by
  have habove : ∀ {k : Int}, k ≠ 0 → 0 < naturalOrdinal k.natAbs :=
    fun hk => naturalOrdinal_pos (Int.natAbs_ne_zero.2 hk)
  rcases Int.lt_trichotomy m 0 with hm | rfl | hm
  · have hmpos := habove (Int.ne_of_lt hm)
    rw [integerOrdinal_neg hm]
    rcases Int.lt_trichotomy n 0 with hn | rfl | hn
    · -- Below zero the number that is further away is the lower one.
      rw [integerOrdinal_neg hn]
      exact Int.neg_le_neg (naturalOrdinal_mono (by omega) (by omega))
    · rw [integerOrdinal_zero]
      omega
    · have hnpos := habove (Int.ne_of_gt hn)
      rw [integerOrdinal_pos hn]
      omega
  · rcases Int.lt_or_eq_of_le h with hn | rfl
    · have hnpos := habove (Int.ne_of_gt hn)
      rw [integerOrdinal_zero, integerOrdinal_pos hn]
      omega
    · exact Int.le_refl _
  · rw [integerOrdinal_pos hm, integerOrdinal_pos (Int.lt_of_lt_of_le hm h)]
    exact naturalOrdinal_mono (by omega) (by omega)

/-- Converting an integer other than zero rounds its absolute value. -/
theorem ofInt_eq_round {n : Int} (hn : n ≠ 0) :
    ∃ s : Sign, n = s.apply n.natAbs ∧
      UnpackedFloat.ofInt .binary64 n = UnpackedFloat.round .binary64 s n.natAbs 0 := by
  rcases Int.lt_or_gt_of_ne hn with hneg | hpos
  · have habs : (-n).toNat = n.natAbs := by omega
    refine ⟨.negative, ?_, ?_⟩
    · rw [Sign.apply]
      omega
    · rw [UnpackedFloat.ofInt, UnpackedFloat.normalize, Int.compare_eq_lt.2 hneg, habs]
  · have habs : n.toNat = n.natAbs := by omega
    refine ⟨.positive, ?_, ?_⟩
    · rw [Sign.apply]
      omega
    · rw [UnpackedFloat.ofInt, UnpackedFloat.normalize, Int.compare_eq_gt.2 hpos, habs]

end Decimal

open Decimal

/-- The place of a rounded integer is that of its absolute value, with its sign. -/
theorem ordinal_of_round {n : Int} {s : Float.Model.UnpackedFloat.Sign} (hn : n ≠ 0)
    (h : n.natAbs < 2 ^ 64) (hround : Float.Model.UnpackedFloat.ofInt .binary64 n =
      Float.Model.UnpackedFloat.round .binary64 s n.natAbs 0) :
    ordinal (.ofModel (.ofInt n)) = s.apply (naturalOrdinal n.natAbs) := by
  have hordinal := ordinal_round s (Int.natAbs_ne_zero.2 hn) h
  rw [← hround] at hordinal
  exact hordinal

/-- Integers are converted by rounding their absolute value. -/
theorem ordinal_ofInt {n : Int} (h : n.natAbs < 2 ^ 64) :
    ordinal (.ofModel (.ofInt n)) = integerOrdinal n := by
  by_cases hn : n = 0
  · rw [hn]
    rfl
  · obtain ⟨s, hs, hround⟩ := ofInt_eq_round hn
    rw [ordinal_of_round hn h hround]
    cases s with
    | positive =>
      rw [Float.Model.UnpackedFloat.Sign.apply] at hs
      exact (integerOrdinal_pos (by omega)).symm
    | negative =>
      rw [Float.Model.UnpackedFloat.Sign.apply] at hs
      exact (integerOrdinal_neg (by omega)).symm

/-- The floats of integers are defined. -/
theorem isNaN_ofInt (n : Int) : (Float.ofModel (.ofInt n)).isNaN = false := by
  apply isNaN_ofModel_pack
  unfold Float.Model.UnpackedFloat.ofInt Float.Model.UnpackedFloat.normalize
  split
  · exact roundWithAccuracy_ne _ _ _ _
  · exact Float.Model.UnpackedFloat.noConfusion
  · exact roundWithAccuracy_ne _ _ _ _

/-- The nearest float of a word is defined. -/
theorem isNaN_nearestFloat (w : Int64) : (nearestFloat w).isNaN = false :=
  isNaN_ofInt w.toInt

/-- The place of the float nearest to a word. -/
theorem ordinal_nearestFloat (w : Int64) : ordinal (nearestFloat w) = integerOrdinal w.toInt := by
  have hlow : -2 ^ 63 ≤ w.toInt := Int64.le_toInt w
  have hhigh : w.toInt < 2 ^ 63 := Int64.toInt_lt w
  exact ordinal_ofInt (by omega)

/-- The nearest floats of words are in the order of the words. -/
theorem ordinal_nearestFloat_mono {v w : Int64} (h : v.toInt ≤ w.toInt) :
    ordinal (nearestFloat v) ≤ ordinal (nearestFloat w) := by
  rw [ordinal_nearestFloat, ordinal_nearestFloat]
  exact integerOrdinal_mono h

end Formulary
