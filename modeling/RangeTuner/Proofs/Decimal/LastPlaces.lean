import RangeTuner.Proofs.Decimal.Rounding

/-! Doubles that are not below zero, by where their last place is. Rounding moves the last place no
further than the exact result has places, so products of moderate doubles are finite. Main
statements: a product reaches no further than both factors with all their places, and what has no
whole places is below one.
-/

namespace RangeTuner.Decimal

open Float.Model (Format UnpackedFloat totalExponent)
open Float.Model.UnpackedFloat

/-- A number that is not below zero and whose last place is `2 ^ place` at most. -/
inductive UpTo (place : Int) : UnpackedFloat → Prop where
  | zero (s : Sign) : UpTo place (.zero s)
  | finite {m : Nat} {e : Int} (positive : 0 < m) (low : e ≤ place)
    : UpTo place (.finite .positive m e positive)

theorem UpTo.mono {place higher : Int} {x : UnpackedFloat} (upTo : UpTo place x)
    (le : place ≤ higher)
    : UpTo higher x := by
  cases upTo with
  | zero s => exact .zero s
  | finite positive low => exact .finite positive (low.trans le)

/-- A number up to a power of two has no more places. -/
theorem log2_lt_of_le {m k : Nat} (le : m ≤ 2 ^ k)
    : m.log2 < k + 1 := by
  rcases Nat.eq_zero_or_pos m with rfl | positive
  · simp
  · rw [Nat.log2_lt (Nat.ne_of_gt positive), Nat.pow_succ]
    omega

/-- Rounding moves the last place no further than there are places, and carries at most once. -/
theorem roundWithAccuracy_upTo {m k : Nat} {e place : Int} (a : Accuracy) (short : m < 2 ^ k)
    (low : e ≤ place) (least : -1074 ≤ place)
    : UpTo (place + 2 * k) (roundWithAccuracy .binary64 .positive m e a) := by
  have few : m.log2 < k + 1 := log2_lt_of_le (Nat.le_of_lt short)
  have first := shiftToTargetExponent_snd m e a
  have kept := mantissa_shiftToTargetExponent_le m e a
  simp only [roundWithAccuracy]
  generalize shiftToTargetExponent .binary64 m e a = shifted at first kept ⊢
  have carried : shifted.1.roundedMantissa.log2 < k + 1 :=
    log2_lt_of_le ((roundedMantissa_le _).trans (kept.trans_lt short))
  have second := shiftToTargetExponent_snd shifted.1.roundedMantissa shifted.2 .exact
  split
  · exact .zero _
  · exact .finite _ (by omega)

/-- What is read from the fields of a number that is not below zero. -/
theorem ofFields_upTo {place : Int} (e : BitVec 11) (m : BitVec 52) (finite : e ≠ -1#11)
    (low : e.toNat - 1075 ≤ place) (least : -1074 ≤ place)
    : UpTo place (ofFields .positive e m) := by
  rw [ofFields, if_neg finite]
  split
  next subnormal =>
    split
    · exact .zero _
    · refine .finite _ ?_
      simp only [subnormal]
      simpa using least
  · exact .finite _ low

/-- Packing and unpacking keeps a number up to a place, unless it is too great to be finite. -/
theorem unpack_pack_upTo {place : Int} {x : UnpackedFloat} (upTo : UpTo place x)
    (least : -1074 ≤ place) (most : place ≤ 970)
    : UpTo place (unpack .binary64 (pack .binary64 x)) := by
  cases upTo with
  | zero s => cases s <;> exact .zero _
  | @finite m e positive low =>
      have bias : Format.binary64.exponentBias + Format.binary64.mantissaBitsWithoutImplicit
          = 1075 := by
        decide
      have biased := toNat_exponentField (low.trans most)
      have exponent : e + Format.binary64.exponentBias
          + Format.binary64.mantissaBitsWithoutImplicit = e + 1075 := by
        omega
      simp only [pack, exponent]
      rw [if_neg (by omega)]
      split
      · rw [unpack_packComponents]
        exact ofFields_upTo _ _ (exponentField_ne_top (low.trans most)) (by omega) least
      · rw [unpack_packComponents]
        exact ofFields_upTo _ _ (by decide) (by simp; omega) least

/-- The mantissa of a double has fifty-three places at most. -/
theorem mantissa_lt_of_unpack {b : BitVec Format.binary64.numBits} {s : Sign} {m : Nat} {e : Int}
    {positive : 0 < m} (unpacked : unpack .binary64 b = .finite s m e positive)
    : m < 2 ^ 53 := by
  rw [unpack_eq_ofFields] at unpacked
  generalize (unpackMantissa b : BitVec 52) = fraction at unpacked
  unfold ofFields at unpacked
  have short : fraction.toNat < 2 ^ 52 := fraction.isLt
  split at unpacked
  · split at unpacked <;> cases unpacked
  · split at unpacked
    · split at unpacked
      · cases unpacked
      · cases unpacked
        exact short.trans (by decide)
    · injection unpacked with _ leading
      rw [← leading, toNat_leading]
      omega

/-- A product reaches no further than both factors with all their places. -/
theorem upTo_mul {x y : Float} {a b : Int} (first : UpTo a x.toModel.unpack)
    (second : UpTo b y.toModel.unpack) (least : -1074 ≤ a + b) (most : a + b + 212 ≤ 970)
    : UpTo (a + b + 212) (x * y).toModel.unpack := by
  refine unpack_pack_upTo (x := UnpackedFloat.mul .binary64 x.toModel.unpack y.toModel.unpack) ?_
    (by omega) most
  generalize left : x.toModel.unpack = x' at first ⊢
  generalize right : y.toModel.unpack = y' at second ⊢
  cases first with
  | zero s => cases second <;> exact .zero _
  | @finite m e positive low =>
      cases second with
      | zero s => exact .zero _
      | @finite m' e' positive' low' =>
          have short : m * m' < 2 ^ 106 := by
            rw [show 2 ^ 106 = 2 ^ 53 * 2 ^ 53 from (Nat.pow_add 2 53 53)]
            exact Nat.mul_lt_mul'' (mantissa_lt_of_unpack left) (mantissa_lt_of_unpack right)
          exact roundWithAccuracy_upTo .exact short (Int.add_le_add low low') least

/-- A word as a double, with room for twice its places. -/
theorem upTo_ofWord (word : UInt64)
    : UpTo 128 word.toFloat.toModel.unpack := by
  refine unpack_pack_upTo (x := UnpackedFloat.ofNat .binary64 word.toNat) ?_ (by decide)
    (by decide)
  rcases Nat.eq_zero_or_pos word.toNat with zero | positive
  · rw [zero]
    exact .zero _
  · rw [ofNat_of_pos positive]
    simp only [UnpackedFloat.round, decreaseExponent, targetExponent_totalExponent]
    have few : word.toNat.log2 < 64 := (Nat.log2_lt (Nat.ne_of_gt positive)).mpr word.toNat_lt
    refine (roundWithAccuracy_upTo (k := 64) .exact ?_ (Int.le_refl _) (by omega)).mono (by omega)
    rw [Nat.shiftLeft_eq]
    calc word.toNat * 2 ^ (0 - max ((word.toNat.log2 : Int) + 0 - 52) (-1074)).toNat
        < 2 ^ (word.toNat.log2 + 1)
            * 2 ^ (0 - max ((word.toNat.log2 : Int) + 0 - 52) (-1074)).toNat :=
          Nat.mul_lt_mul_of_pos_right Nat.lt_log2_self (Nat.two_pow_pos _)
      _ ≤ 2 ^ 64 := by
          rw [← Nat.pow_add]
          exact Nat.pow_le_pow_right (by decide) (by omega)

/-- A whole number in the range of words as a double, also where it has more places than one. -/
theorem upTo_toFloat {n : Nat} (small : n < 2 ^ 64)
    : UpTo 288 n.toFloat.toModel.unpack := by
  change UpTo 288 (Float.ofScientific n false 0).toModel.unpack
  unfold Float.ofScientific
  split
  next =>
    have one : UpTo (-52) (Float.exactlyRepresentablePowersOfTen[0]).toModel.unpack :=
      .finite (by decide) (Int.le_refl _)
    exact upTo_mul (upTo_ofWord _) one (by decide) (by decide)
  next large =>
    have positive : n ≠ 0 := by omega
    have few : ¬(0 : Int) < -(2 ^ 11 + n.log2) := by omega
    have short : n <<< 53 * 10 ^ 0 < 2 ^ 117 := by
      rw [Nat.shiftLeft_eq]
      omega
    have scaled := roundWithAccuracy_upTo .exact short (Int.le_refl (-53)) (by decide)
    refine (unpack_pack_upTo (x := UnpackedFloat.ofScientific .binary64 n 0) ?_
      (by decide) (by decide))
    have written : UnpackedFloat.ofScientific .binary64 n 0
        = roundWithAccuracy .binary64 .positive (n <<< 53 * 10 ^ 0) (-53) .exact := by
      rw [UnpackedFloat.ofScientific, dif_neg positive, if_neg (by decide), if_neg few,
        if_pos (by decide)]
      rfl
    rw [written]
    exact scaled.mono (by decide)

-----------------------------------------------------------------------------------------
-- Comparing with one and zero
-----------------------------------------------------------------------------------------

theorem unpack_zero
    : (0.0 : Float).toModel.unpack = .zero .positive :=
  rfl

theorem unpack_one
    : (1.0 : Float).toModel.unpack = .finite .positive (2 ^ 52) (-52) (Nat.two_pow_pos 52) :=
  rfl

/-- A share of one, and not the whole, has its places behind the point. -/
theorem upTo_share {share : Float} (least : 0.0 ≤ share) (below : share < 1.0)
    : UpTo (-52) share.toModel.unpack := by
  rw [float_le_iff, unpack_zero] at least
  rw [float_lt_iff, unpack_one] at below
  generalize share.toModel.unpack = x at least below
  cases x with
  | notANumber => cases below
  | infinity s =>
      cases s with
      | positive => cases below
      | negative => cases least
  | zero s => exact .zero s
  | finite s m e positive =>
      cases s with
      | negative => cases least
      | positive =>
          refine .finite positive ?_
          have order : (compare e (-52)).then (compare m (2 ^ 52)) = .lt := Option.some.inj below
          rcases Ordering.then_eq_lt.mp order with lower | ⟨same, -⟩
          · exact (Int.compare_eq_lt.mp lower).le
          · exact (Int.compare_eq_eq.mp same).le

/-- A number without whole places is below whatever is one or more, by cases on both. -/
theorem UpTo.lt_of_one_le {x bound : Float} (upTo : UpTo (-53) x.toModel.unpack)
    (great : 1.0 ≤ bound)
    : x < bound := by
  rw [float_le_iff, unpack_one] at great
  rw [float_lt_iff]
  generalize x.toModel.unpack = x' at upTo ⊢
  generalize bound.toModel.unpack = bound' at great ⊢
  cases bound' with
  | notANumber => cases great
  | zero s => cases great
  | infinity s =>
      cases s with
      | negative => cases great
      | positive => cases upTo <;> rfl
  | finite s m e positive =>
      cases s with
      | negative => cases great
      | positive =>
          have least : -52 ≤ e := by
            have order : ((compare (-52) e).then (compare (2 ^ 52) m)).isLE = true := great
            refine Int.not_lt.mp fun lower => ?_
            rw [Int.compare_eq_gt.mpr lower] at order
            cases order
          cases upTo with
          | zero s => rfl
          | finite positive' low =>
              change some ((compare _ e).then _) = some .lt
              rw [Int.compare_eq_lt.mpr (by omega)]
              rfl

/-- A number that is not below zero is not below whatever is zero or less, by cases on both. -/
theorem UpTo.not_lt_of_le_zero {place : Int} {x bound : Float} (upTo : UpTo place x.toModel.unpack)
    (small : bound ≤ 0.0)
    : ¬x < bound := by
  rw [float_le_iff, unpack_zero] at small
  rw [float_lt_iff]
  generalize x.toModel.unpack = x' at upTo ⊢
  generalize bound.toModel.unpack = bound' at small ⊢
  cases bound' with
  | notANumber => cases small
  | zero s => cases upTo <;> exact nofun
  | infinity s =>
      cases s with
      | negative => cases upTo <;> exact nofun
      | positive => cases small
  | finite s m e positive =>
      cases s with
      | negative => cases upTo <;> exact nofun
      | positive => cases small

end RangeTuner.Decimal
