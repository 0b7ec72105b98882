import RangeTuner.Proofs.Decimal.LastPlaces
import RangeTuner.Proofs.Learning.Synthesis

/-! What single draws show. A number drawn from the unit interval is below one, so an outcome of
probability one is always drawn and one of probability zero never; a whole number drawn between
bounds is between them, and drawn in words where the bounds are no more than half the words apart.
-/

namespace RangeTuner.Learning.Draw

open RangeTuner.Decimal

/-- A number drawn from the unit interval has no whole places. -/
theorem always_unit
    : unit.Always fun drawn => UpTo (-53) drawn.toModel.unpack := by
  intro g
  change UpTo (-53) (((word.run g).1 >>> 11).toFloat / 9007199254740992.0).toModel.unpack
  generalize shifted : (word.run g).1 >>> 11 = k
  have quotient : k.toNat = (word.run g).1.toNat / 2 ^ 11 := by
    rw [← shifted, UInt64.toNat_shiftRight, Nat.shiftRight_eq_div_pow]
    rfl
  have small : k.toNat < 2 ^ 53 := by
    have bound := (word.run g).1.toNat_lt
    omega
  rcases Nat.eq_zero_or_pos k.toNat with none | positive
  · obtain rfl : k = 0 := UInt64.toNat_inj.mp none
    have zero : ((0 : UInt64).toFloat / 9007199254740992.0).toModel.unpack = .zero .positive := rfl
    rw [zero]
    exact .zero _
  · have places : k.toNat.log2 < 53 := (Nat.log2_lt (Nat.ne_of_gt positive)).mpr small
    have full : (k.toNat <<< (52 - k.toNat.log2)).log2 = 52 := by
      rw [log2_shiftLeft positive]
      omega
    rw [unpack_div_units (unpack_toFloat positive small) full (by omega) (by omega)]
    exact .finite _ (by omega)

/-- What is certain is always drawn, and what is ruled out never. -/
theorem always_bernoulli (probability : Float)
    : (bernoulli probability).Always fun drawn =>
        (1.0 ≤ probability → drawn = true) ∧ (probability ≤ 0.0 → drawn = false) := by
  refine always_unit.bind fun drawn upTo => always_pure ⟨fun certain => ?_, fun ruledOut => ?_⟩
  · exact decide_eq_true (upTo.lt_of_one_le certain)
  · exact decide_eq_false (upTo.not_lt_of_le_zero ruledOut)

/-- A whole number is drawn between its bounds, or is the lower one if there is none between. -/
theorem always_between (low high : Int)
    : (between low high).Always fun drawn =>
        if low < high then low ≤ drawn ∧ drawn < high else drawn = low := by
  rw [between]
  split
  next none => exact always_pure (by rw [if_neg (by omega)])
  next some =>
    refine (always_true word).bind fun drawn _ => always_pure ?_
    have width : 0 < high - low := by omega
    have least := Int.emod_nonneg (drawn.toNat : Int) (Int.ne_of_gt width)
    have below := Int.emod_lt_of_pos (drawn.toNat : Int) width
    rw [if_pos (by omega)]
    omega

/-- A whole number between two bounds, drawn in words. -/
def betweenWords (low high : Int64) : Draw Int64 := do
  if high ≤ low then return low
  else return low + ((← word) % (high - low).toUInt64).toInt64

/-- A word of less than half the words is itself with a sign. -/
theorem toInt_toInt64 {drawn : UInt64} (few : drawn.toNat < 2 ^ 63)
    : drawn.toInt64.toInt = drawn.toNat := by
  have same : drawn.toInt64 = Int64.ofNat drawn.toNat := by
    rw [← UInt64.toInt64_ofNat', UInt64.ofNat_toNat]
  rw [same, Int64.toInt_ofNat_of_lt few]

/-- Drawing in words loses nothing where the bounds are less than half the words apart. -/
theorem between_toInt (low high : Int64) (near : high.toInt - low.toInt < 2 ^ 63)
    : between low.toInt high.toInt = Int64.toInt <$> betweenWords low high := by
  have least := low.le_toInt
  have most := high.toInt_lt
  rw [between, betweenWords]
  by_cases none : high ≤ low
  · rw [if_pos (Int64.le_iff_toInt_le.mp none), if_pos none]
    rfl
  · rw [if_neg (fun le => none (Int64.le_iff_toInt_le.mpr le)), if_neg none, map_bind]
    obtain ⟨width, wide⟩ : ∃ width : Nat, high.toInt - low.toInt = width :=
      Int.eq_ofNat_of_zero_le (by rw [Int64.le_iff_toInt_le] at none; omega)
    have positive : 0 < width := by rw [Int64.le_iff_toInt_le] at none; omega
    have apart : high - low = Int64.ofNat width := by
      rw [← Int64.toInt_inj, Int64.toInt_sub, Int64.toInt_ofNat_of_lt (by omega), wide,
        Int.bmod_eq_of_le (by omega) (by omega)]
    refine congrArg _ (funext fun drawn => congrArg pure ?_)
    have divisor : (UInt64.ofNat width).toNat = width :=
      UInt64.toNat_ofNat_of_lt (Nat.lt_trans (m := 2 ^ 63) (by omega) (by decide))
    have below := Nat.mod_lt drawn.toNat positive
    have remainder : (drawn % UInt64.ofNat width).toInt64.toInt = drawn.toNat % width := by
      rw [toInt_toInt64, UInt64.toNat_mod, divisor]
      · rfl
      · rw [UInt64.toNat_mod, divisor]
        omega
    rw [apart, wide, Int64.toUInt64_ofNat', Int64.toInt_add, remainder,
      Int.bmod_eq_of_le (by omega) (by omega)]

end RangeTuner.Learning.Draw
