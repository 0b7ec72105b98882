import RangeTuner.Proofs.Decimal.Comparison

/-! Rounding in the arithmetic of doubles. What is computed with doubles is shifted to fifty-three
binary places and rounded there. Main statements: a whole number below `2 ^ 53` is a double itself,
and dividing by `2 ^ 53` moves the places of a double.
-/

namespace RangeTuner.Decimal

open Float.Model (Format UnpackedFloat totalExponent)
open Float.Model.UnpackedFloat

-----------------------------------------------------------------------------------------
-- Shifting to fifty-three places
-----------------------------------------------------------------------------------------

/-- A double has fifty-three places, but none behind the last one of all. -/
theorem targetExponent_eq (places : Int)
    : Format.binary64.targetExponent places = max (places - 53) (-1074) :=
  rfl

/-- The last place that a double of a mantissa and an exponent has. -/
theorem targetExponent_totalExponent (m : Nat) (e : Int)
    : Format.binary64.targetExponent (totalExponent m e) = max (m.log2 + e - 52) (-1074) := by
  rw [targetExponent_eq, totalExponent]
  omega

/-- Where the last place is not before that of the double, nothing is shifted away. -/
theorem shiftToTargetExponent_of_le {m : Nat} {e : Int} (a : Accuracy)
    (fits : max (m.log2 + e - 52) (-1074) ≤ e)
    : shiftToTargetExponent .binary64 m e a = (.ofMantissaAndAccuracy m a, e) := by
  have still : (max (m.log2 + e - 52) (-1074) - e).toNat = 0 := by omega
  rw [shiftToTargetExponent, targetExponent_totalExponent, shiftToExponent, still]
  exact congrArg _ (Int.add_zero e)

/-- Shifting moves the last place to that of the double, if it is before it. -/
theorem shiftToTargetExponent_snd (m : Nat) (e : Int) (a : Accuracy)
    : (shiftToTargetExponent .binary64 m e a).2 = max e (max (m.log2 + e - 52) (-1074)) := by
  rw [shiftToTargetExponent, targetExponent_totalExponent, shiftToExponent]
  omega

theorem mantissa_ofMantissaAndAccuracy (m : Nat) (a : Accuracy)
    : (ExtendedMantissa.ofMantissaAndAccuracy m a).mantissa = m := by
  cases a with
  | exact => rfl
  | inexact order => cases order <;> rfl

/-- Shifting leaves no more of a mantissa than there was, by induction on the places. -/
theorem mantissa_shiftRight_le (em : ExtendedMantissa) (places : Nat)
    : (em >>> places).mantissa ≤ em.mantissa := by
  induction places with
  | zero => exact Nat.le_refl _
  | succ places ih => exact (Nat.div_le_self _ 2).trans ih

theorem mantissa_shiftToTargetExponent_le (m : Nat) (e : Int) (a : Accuracy)
    : (shiftToTargetExponent .binary64 m e a).1.mantissa ≤ m :=
  (mantissa_shiftRight_le _ _).trans_eq (mantissa_ofMantissaAndAccuracy m a)

theorem roundedMantissa_le (em : ExtendedMantissa)
    : em.roundedMantissa ≤ em.mantissa + 1 := by
  obtain ⟨m, round, sticky⟩ := em
  cases round <;> cases sticky <;>
    simp only [ExtendedMantissa.roundedMantissa, ExtendedMantissa.accuracy,
      Accuracy.roundToNearestEven] <;>
    omega

-----------------------------------------------------------------------------------------
-- Numbers that need no rounding
-----------------------------------------------------------------------------------------

/-- A mantissa of fifty-three places is rounded to itself. -/
theorem roundWithAccuracy_of_full (s : Sign) {m : Nat} {e : Int} (positive : 0 < m)
    (full : m.log2 = 52) (low : -1074 ≤ e)
    : roundWithAccuracy .binary64 s m e .exact = .finite s m e positive := by
  have fits : max ((m.log2 : Int) + e - 52) (-1074) ≤ e := by omega
  have shifted := shiftToTargetExponent_of_le .exact fits
  have rounded : (ExtendedMantissa.ofMantissaAndAccuracy m .exact).roundedMantissa = m := rfl
  simp only [roundWithAccuracy, shifted, rounded]
  exact dif_neg (Nat.ne_of_gt positive)

/-- The field of an exponent that is not too great for a double. -/
theorem toNat_exponentField {e : Int} (high : e ≤ 970)
    : (BitVec.ofNat 11 (e + 1075).toNat).toNat = (e + 1075).toNat := by
  rw [BitVec.toNat_ofNat, Nat.mod_eq_of_lt (by omega)]

theorem exponentField_ne_top {e : Int} (high : e ≤ 970)
    : BitVec.ofNat 11 (e + 1075).toNat ≠ -1#11 := by
  intro top
  have same := congrArg BitVec.toNat top
  rw [toNat_exponentField high] at same
  simp at same
  omega

/-- Packing and unpacking keeps a mantissa of fifty-three places. -/
theorem unpack_pack_of_full (s : Sign) {m : Nat} {e : Int} (positive : 0 < m)
    (full : m.log2 = 52) (low : -1074 ≤ e) (high : e ≤ 970)
    : unpack .binary64 (pack .binary64 (.finite s m e positive)) = .finite s m e positive := by
  obtain ⟨least, most⟩ := (Nat.log2_eq_iff (Nat.ne_of_gt positive)).mp full
  have exponent := toNat_exponentField high
  have mantissa : (1#1 ++ BitVec.ofNat 52 (m - 2 ^ 52)).toNat = m := by
    rw [toNat_leading, BitVec.toNat_ofNat, Nat.mod_eq_of_lt (by omega)]
    omega
  have fields : UnpackedFloat.finite s m e positive
      = ofFields s (BitVec.ofNat 11 (e + 1075).toNat) (BitVec.ofNat 52 (m - 2 ^ 52)) := by
    rw [ofFields, if_neg, if_neg]
    · simp only [mantissa, exponent]
      congr 1
      omega
    · exact fun zero => absurd (congrArg BitVec.toNat zero) (by rw [exponent]; simp; omega)
    · exact exponentField_ne_top high
  rw [fields, unpack_pack_ofFields]

/-- Shifting a mantissa to the left adds places. -/
theorem log2_shiftLeft {m : Nat} (positive : 0 < m) (places : Nat)
    : (m <<< places).log2 = m.log2 + places := by
  have shifted : m <<< places ≠ 0 := Nat.ne_of_gt (Nat.shiftLeft_pos_iff.mpr positive)
  obtain ⟨least, most⟩ := (Nat.log2_eq_iff (Nat.ne_of_gt positive)).mp rfl
  rw [Nat.log2_eq_iff shifted, Nat.shiftLeft_eq, Nat.pow_add, Nat.add_right_comm, Nat.pow_add]
  exact ⟨Nat.mul_le_mul_right _ least, Nat.mul_lt_mul_of_pos_right most (Nat.two_pow_pos places)⟩

/-- A whole number as a double is rounded, unless it is zero. -/
theorem ofNat_of_pos {n : Nat} (positive : 0 < n)
    : UnpackedFloat.ofNat .binary64 n = UnpackedFloat.round .binary64 .positive n 0 := by
  rw [UnpackedFloat.ofNat, UnpackedFloat.ofInt, UnpackedFloat.normalize,
    Int.compare_eq_gt.mpr (Int.natCast_pos.mpr positive)]
  rfl

/-- A whole number below `2 ^ 53` is a double itself, shifted to fifty-three places. -/
theorem unpack_toFloat {k : UInt64} (positive : 0 < k.toNat) (small : k.toNat < 2 ^ 53)
    : k.toFloat.toModel.unpack
      = .finite .positive (k.toNat <<< (52 - k.toNat.log2)) (k.toNat.log2 - 52)
        (Nat.shiftLeft_pos_iff.mpr positive) := by
  have places : k.toNat.log2 < 53 := (Nat.log2_lt (Nat.ne_of_gt positive)).mpr small
  have full : (k.toNat <<< (52 - k.toNat.log2)).log2 = 52 := by
    rw [log2_shiftLeft positive]
    omega
  have target : Format.binary64.targetExponent (totalExponent k.toNat 0) = k.toNat.log2 - 52 := by
    rw [targetExponent_totalExponent]
    omega
  have shift : (0 - ((k.toNat.log2 : Int) - 52)).toNat = 52 - k.toNat.log2 := by omega
  have place : (0 : Int) - (52 - k.toNat.log2 : Nat) = k.toNat.log2 - 52 := by omega
  have rounded : UnpackedFloat.ofNat .binary64 k.toNat
      = .finite .positive (k.toNat <<< (52 - k.toNat.log2)) (k.toNat.log2 - 52)
        (Nat.shiftLeft_pos_iff.mpr positive) := by
    rw [ofNat_of_pos positive]
    simp only [UnpackedFloat.round, target, decreaseExponent, shift, place]
    exact roundWithAccuracy_of_full .positive _ full (by omega)
  change unpack .binary64 (pack .binary64 (UnpackedFloat.ofNat .binary64 k.toNat)) = _
  rw [rounded, unpack_pack_of_full .positive _ full (by omega) (by omega)]

/-- A mantissa of one place too many that ends in zero is rounded to the half of it. -/
theorem roundWithAccuracy_of_double (s : Sign) {m : Nat} {e : Int} (positive : 0 < m)
    (full : m.log2 = 52) (low : -1074 ≤ e)
    : roundWithAccuracy .binary64 s (m * 2) e .exact = .finite s m (e + 1) positive := by
  have log : (m * 2).log2 = 53 := by
    have shifted := log2_shiftLeft positive 1
    rwa [Nat.shiftLeft_eq, Nat.pow_one, full] at shifted
  have one : (max (((m * 2).log2 : Int) + e - 52) (-1074) - e).toNat = 1 := by omega
  have first : shiftToTargetExponent .binary64 (m * 2) e .exact = (⟨m, false, false⟩, e + 1) := by
    rw [shiftToTargetExponent, targetExponent_totalExponent, shiftToExponent, one]
    refine Prod.ext ?_ rfl
    change ExtendedMantissa.mk (m * 2 / 2) (m * 2 % 2 != 0) false = ⟨m, false, false⟩
    simp
  have fits : max ((m.log2 : Int) + (e + 1) - 52) (-1074) ≤ e + 1 := by omega
  have rounded : (ExtendedMantissa.mk m false false).roundedMantissa = m := rfl
  simp only [roundWithAccuracy, first, rounded, shiftToTargetExponent_of_le .exact fits]
  exact dif_neg (Nat.ne_of_gt positive)

/-- Dividing by `2 ^ 53` moves the places of a double. -/
theorem unpack_div_units {x : Float} {m : Nat} {e : Int} {positive : 0 < m}
    (unpacked : x.toModel.unpack = .finite .positive m e positive) (full : m.log2 = 52)
    (low : -900 ≤ e) (high : e ≤ 900)
    : (x / 9007199254740992.0).toModel.unpack = .finite .positive m (e - 53) positive := by
  have unit : (9007199254740992.0 : Float).toModel.unpack
      = .finite .positive (2 ^ 52) 1 (by decide) := by
    rfl
  have target : min (e - 1)
      (Format.binary64.targetExponent (totalExponent m e - totalExponent (2 ^ 52) 1))
      = e - 54 := by
    rw [targetExponent_eq, totalExponent, totalExponent, full, Nat.log2_two_pow]
    omega
  have shift : (e - 1 - (e - 54)).toNat = 53 := by omega
  have halves : m <<< 53 / 2 ^ 52 = m * 2 := by
    rw [Nat.shiftLeft_eq]
    omega
  have exact : accuracyOfFraction (m <<< 53 % 2 ^ 52) (2 ^ 52) = .exact := by
    rw [Nat.shiftLeft_eq]
    exact if_pos (by omega)
  have quotient : UnpackedFloat.div .binary64 x.toModel.unpack
      (9007199254740992.0 : Float).toModel.unpack = .finite .positive m (e - 53) positive := by
    rw [unpacked, unit]
    simp only [UnpackedFloat.div, divCore, target, shift, halves, exact]
    have rounded := roundWithAccuracy_of_double .positive positive full (e := e - 54) (by omega)
    rwa [show e - 54 + 1 = e - 53 by omega] at rounded
  change unpack .binary64 (pack .binary64 (UnpackedFloat.div .binary64 x.toModel.unpack
    (9007199254740992.0 : Float).toModel.unpack)) = _
  rw [quotient, unpack_pack_of_full .positive _ full (by omega) (by omega)]

end RangeTuner.Decimal
