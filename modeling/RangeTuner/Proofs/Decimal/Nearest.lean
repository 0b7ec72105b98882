import RangeTuner.Decimal.Binary
import RangeTuner.Proofs.Decimal.LastPlaces

/-! The numbers that doubles stand for, and the words nearest to them. A double says what it says
unpacked, and the word nearest to a number that is not below zero is its value rounded, halves up,
as far as there are words.
-/

namespace RangeTuner.Decimal

open Float.Model (Format UnpackedFloat)
open Float.Model.UnpackedFloat

/-- The sign stands in front of what is below zero. -/
def isNegative : Sign → Bool
  | .positive => false
  | .negative => true

/-- The number that an unpacked double stands for. -/
def Number.ofUnpacked : UnpackedFloat → Number
  | .notANumber => .undefined
  | .infinity s => .infinite (isNegative s)
  | .zero s => .finite (isNegative s) ⟨0, -1074⟩
  | .finite s m e _ => .finite (isNegative s) ⟨m, e⟩

/-- The number of a sign, a field of exponent and a fraction. -/
theorem Number.ofUnpacked_ofFields (s : Sign) (e : BitVec 11) (m : BitVec 52)
    : ofUnpacked (ofFields s e m)
      = if e.toNat = 0x7ff then
          if m.toNat = 0 then .infinite (isNegative s) else .undefined
        else if e.toNat = 0 then .finite (isNegative s) ⟨m.toNat, -1074⟩
        else .finite (isNegative s) ⟨m.toNat + hiddenOne, e.toNat - 1075⟩ := by
  have top : e = -1#11 ↔ e.toNat = 0x7ff := BitVec.toNat_inj.symm
  have low : e = 0#11 ↔ e.toNat = 0 := BitVec.toNat_inj.symm
  have none : m = 0#52 ↔ m.toNat = 0 := BitVec.toNat_inj.symm
  simp only [ofFields, top, low, none]
  split
  · split <;> rfl
  · split
    next subnormal =>
      split
      next zero => simp [ofUnpacked, zero]
      next nonzero => simp [ofUnpacked, subnormal]
    next =>
      rw [ofUnpacked, toNat_leading, Nat.add_comm]
      rfl

/-- A sign is read from a bit as from a word of one bit. -/
theorem isNegative_ofBitVec {bit : BitVec 1} {word : UInt64} (same : bit.toNat = word.toNat)
    : isNegative (.ofBitVec bit) = (word != 0) := by
  rcases BitVec.eq_zero_or_eq_one bit with rfl | rfl
  · have none : word = 0 := UInt64.toNat_inj.mp same.symm
    rw [none]
    rfl
  · have one : word = 1 := UInt64.toNat_inj.mp same.symm
    rw [one]
    rfl

/-- The bits of a double stand for what they say unpacked. -/
theorem Number.ofBits_eq (bits : UInt64)
    : ofBits bits = ofUnpacked (unpack .binary64 bits.toBitVec) := by
  have exponent : (@unpackExponent .binary64 bits.toBitVec).toNat
      = ((bits >>> 52) &&& 0x7ff).toNat := by
    rw [UInt64.toNat_and, UInt64.toNat_shiftRight]
    exact (Nat.and_two_pow_sub_one_eq_mod _ 11).symm
  have fraction : (@unpackMantissa .binary64 bits.toBitVec).toNat
      = (bits &&& 0xfffffffffffff).toNat := by
    rw [UInt64.toNat_and]
    exact (Nat.and_two_pow_sub_one_eq_mod _ 52).symm
  have sign : (@unpackSign .binary64 bits.toBitVec).toNat = (bits >>> 63).toNat := by
    have bound := bits.toNat_lt
    rw [UInt64.toNat_shiftRight]
    exact Nat.mod_eq_of_lt (by simp [Nat.shiftRight_eq_div_pow]; omega)
  rw [unpack_eq_ofFields, ofUnpacked_ofFields, ofBits]
  simp only [isNegative_ofBitVec sign, exponent, fraction]

/-- A double stands for what it says unpacked. -/
theorem Number.ofFloat_eq (x : Float)
    : ofFloat x = ofUnpacked x.toModel.unpack :=
  ofBits_eq x.toModel.toBits

/-- The value of a magnitude. -/
def Binary.value (x : Binary) : ℚ :=
  x.significand * 2 ^ x.exponent

/-- The value of a number, if it is finite. -/
def Number.value? : Number → Option ℚ
  | .undefined | .infinite _ => none
  | .finite negative magnitude => some (if negative then -magnitude.value else magnitude.value)

theorem Binary.value_nonneg (x : Binary)
    : 0 ≤ x.value := by
  unfold value
  positivity

/-- Counted in units of one, a magnitude is a fraction of whole numbers. -/
theorem Binary.value_eq_div (x : Binary)
    : x.value = (x.inUnits 0).1 / (x.inUnits 0).2 := by
  rcases x.exponent.le_total 0 with negative | positive
  · obtain ⟨places, exponent⟩ := Int.exists_eq_neg_ofNat negative
    simp [value, inUnits, exponent, div_eq_mul_inv]
  · obtain ⟨places, exponent⟩ := Int.eq_ofNat_of_zero_le positive
    simp [value, inUnits, exponent]

/-- The whole number nearest to a fraction is the value rounded, halves up. -/
theorem roundHalfUp_eq (numerator denominator : Nat) (positive : 0 < denominator)
    : (roundHalfUp numerator denominator : ℤ) = round ((numerator : ℚ) / denominator) := by
  have half : (numerator : ℚ) / denominator + 1 / 2
      = ((2 * numerator + denominator : Nat) : ℚ) / (2 * denominator : Nat) := by
    push_cast
    field_simp
  rw [round_eq, half, Rat.floor_natCast_div_natCast]
  rfl

/-- The word nearest to a number that is not below zero is its value rounded. -/
theorem Number.nearestWord_eq {x : Number} {q : ℚ} (value : x.value? = some q) (least : 0 ≤ q)
    : x.nearestWord = min (round q).toNat greatestWord := by
  cases x with
  | undefined | infinite _ => cases value
  | finite negative m =>
      obtain rfl := Option.some.inj value
      cases negative with
      | true =>
          have zero : -m.value = 0 := le_antisymm (neg_nonpos.mpr m.value_nonneg) least
          simp [nearestWord, zero]
      | false =>
          have positive : 0 < (m.inUnits 0).2 := by simp [Binary.inUnits]
          have rounded := roundHalfUp_eq (m.inUnits 0).1 (m.inUnits 0).2 positive
          rw [← m.value_eq_div] at rounded
          simp [nearestWord, ← rounded]

/-- A number up to a place has a value, which is not below zero. -/
theorem UpTo.exists_value {place : Int} {x : UnpackedFloat} (upTo : UpTo place x)
    : ∃ q, (Number.ofUnpacked x).value? = some q ∧ 0 ≤ q := by
  cases upTo with
  | zero s => cases s <;> exact ⟨_, rfl, by simp [isNegative, Binary.value]⟩
  | finite positive low => exact ⟨_, rfl, Binary.value_nonneg _⟩

end RangeTuner.Decimal
